import Mathlib.Tactic

/-!
# The state machine of a call

`Call.status` with `call-state.service.ts`: the table of allowed transitions and the function that
applies a transition to a loaded document, and how a loaded document is saved.
-/

namespace VibemeetBackend.Video

/-- `Call.status`. -/
inductive CallStatus where
  | ringing
  | accepted
  | rejected
  | ended
  | missed
  | cancelled
  deriving DecidableEq

/-- `ALLOWED_TRANSITIONS`. -/
def allowedTransitions : CallStatus → List CallStatus
  | .ringing => [.accepted, .rejected, .missed, .cancelled, .ended]
  | .accepted => [.ended, .cancelled, .missed]
  | .rejected | .missed | .cancelled | .ended => []

def isAllowedTransition (src dst : CallStatus) : Bool := (allowedTransitions src).contains dst

structure PriceSnapshot where
  priceAtCallTime : Option ℤ
  creatorShareAtCallTime : Option ℚ
  deriving DecidableEq

/-- The fields of a `Call` that its lifecycle writes. -/
structure CallDoc where
  status : CallStatus
  startedAt : Option ℤ
  acceptedAt : Option ℤ
  endedAt : Option ℤ
  durationSeconds : Option ℤ
  price : PriceSnapshot
  billedSeconds : ℤ
  userCoinsSpent : ℤ
  creatorCoinsEarned : ℤ
  isForceEnded : Bool
  isSettled : Bool

/-- What `Call.create` is given. -/
def newCall (status : CallStatus) (price : PriceSnapshot) : CallDoc where
  status
  startedAt := none
  acceptedAt := none
  endedAt := none
  durationSeconds := none
  price
  billedSeconds := 0
  userCoinsSpent := 0
  creatorCoinsEarned := 0
  isForceEnded := false
  isSettled := false

namespace CallDoc

def withDuration (call : CallDoc) : CallDoc :=
  match call.startedAt, call.endedAt with
  | some startedAt, some endedAt =>
    { call with durationSeconds := some ((endedAt - startedAt) / 1000) }
  | _, _ => call

def withEnd (now : ℤ) (call : CallDoc) : CallDoc :=
  { call with endedAt := some (call.endedAt.getD now) }

end CallDoc

def applyTimestamps (now : ℤ) (nextStatus : CallStatus) (call : CallDoc) : CallDoc :=
  match nextStatus with
  | .ringing => call
  | .accepted => { call with acceptedAt := some (call.acceptedAt.getD now) }
  | .ended => (call.withEnd now).withDuration
  | .rejected | .missed | .cancelled => call.withEnd now

def transitionCallStatus (now : ℤ) (nextStatus : CallStatus) (call : CallDoc) : CallDoc :=
  if call.status = nextStatus then call
  else { applyTimestamps now nextStatus call with status := nextStatus }

@[simp] theorem transitionCallStatus_status (now : ℤ) (nextStatus : CallStatus) (call : CallDoc) :
    (transitionCallStatus now nextStatus call).status = nextStatus := by
  rw [transitionCallStatus]
  split
  · rename_i h
    exact h
  · rfl

@[simp] theorem transitionCallStatus_isSettled (now : ℤ) (nextStatus : CallStatus)
    (call : CallDoc) : (transitionCallStatus now nextStatus call).isSettled = call.isSettled := by
  rw [transitionCallStatus]
  split
  · rfl
  · cases nextStatus with
    | ended =>
      simp only [applyTimestamps, CallDoc.withDuration]
      split <;> rfl
    | _ => rfl

/-! ### Saving a loaded document -/

def savedField {α : Type} [DecidableEq α] (loaded modified stored : α) : α :=
  if modified = loaded then stored else modified

theorem savedField_self {α : Type} [DecidableEq α] (loaded modified : α) :
    savedField loaded modified loaded = modified := by
  rw [savedField]
  split
  · rename_i h
    exact h.symm
  · rfl

/-- `save()` of a document that was loaded earlier. -/
def CallDoc.save (loaded modified stored : CallDoc) : CallDoc where
  status := savedField loaded.status modified.status stored.status
  startedAt := savedField loaded.startedAt modified.startedAt stored.startedAt
  acceptedAt := savedField loaded.acceptedAt modified.acceptedAt stored.acceptedAt
  endedAt := savedField loaded.endedAt modified.endedAt stored.endedAt
  durationSeconds := savedField loaded.durationSeconds modified.durationSeconds stored.durationSeconds
  price := savedField loaded.price modified.price stored.price
  billedSeconds := savedField loaded.billedSeconds modified.billedSeconds stored.billedSeconds
  userCoinsSpent := savedField loaded.userCoinsSpent modified.userCoinsSpent stored.userCoinsSpent
  creatorCoinsEarned :=
    savedField loaded.creatorCoinsEarned modified.creatorCoinsEarned stored.creatorCoinsEarned
  isForceEnded := savedField loaded.isForceEnded modified.isForceEnded stored.isForceEnded
  isSettled := savedField loaded.isSettled modified.isSettled stored.isSettled

theorem CallDoc.save_self (loaded modified : CallDoc) : loaded.save modified loaded = modified := by
  simp only [CallDoc.save, savedField_self]

end VibemeetBackend.Video
