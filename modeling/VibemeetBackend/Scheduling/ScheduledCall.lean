import VibemeetBackend.Async.Flow
import VibemeetBackend.Async.Pool
import VibemeetBackend.Mongo.Unique

/-!
# Scheduled calls

`confirmScheduledCall` and `cancelScheduledCall` of `vip-scheduling.service.ts` with their handlers,
and `processDueScheduledCalls` of `vip-scheduling.reconciliation.ts`.

An `ObjectId` is its number; a parameter that is no `ObjectId` is `none`.  Left out is what none of
these reads: the duration and the notes of a call.
-/

namespace VibemeetBackend.Scheduling

open Async
open Mongo (Unique)

/-! ### Documents -/

abbrev ObjectId : Type := ℕ

inductive ScheduledCallStatus where
  | pending_creator
  | confirmed
  | cancelled
  | completed
  | missed
  deriving DecidableEq

inductive CancelledBy where
  | caller
  | creator
  | system
  deriving DecidableEq

structure ScheduledCall where
  id : ObjectId
  callerUserId : ObjectId
  creatorId : ObjectId
  creatorFirebaseUid : String
  scheduledAt : ℤ
  status : ScheduledCallStatus
  reminderSentAt : Option ℤ
  confirmedAt : Option ℤ
  cancelledAt : Option ℤ
  cancelledBy : Option CancelledBy

structure User where
  id : ObjectId
  firebaseUid : String

structure Creator where
  id : ObjectId
  userId : ObjectId

/-- What a `save` sets; a field that has not changed is not written. -/
structure Changes where
  status : Option ScheduledCallStatus
  confirmedAt : Option ℤ
  cancelledAt : Option ℤ
  cancelledBy : Option CancelledBy

def changed {α : Type} [DecidableEq α] (old new : Option α) : Option α :=
  if new = old then none else new

def Changes.between (old new : ScheduledCall) : Changes where
  status := changed (some old.status) (some new.status)
  confirmedAt := changed old.confirmedAt new.confirmedAt
  cancelledAt := changed old.cancelledAt new.cancelledAt
  cancelledBy := changed old.cancelledBy new.cancelledBy

namespace ScheduledCall

/-- `$set` of what changed. -/
def set (changes : Changes) (call : ScheduledCall) : ScheduledCall :=
  { call with
    status := changes.status.getD call.status
    confirmedAt := changes.confirmedAt.or call.confirmedAt
    cancelledAt := changes.cancelledAt.or call.cancelledAt
    cancelledBy := changes.cancelledBy.or call.cancelledBy }

def remind (now : ℤ) (call : ScheduledCall) : ScheduledCall :=
  { call with reminderSentAt := some now }

def confirm (now : ℤ) (call : ScheduledCall) : ScheduledCall :=
  { call with status := .confirmed, confirmedAt := some now }

def cancel (now : ℤ) (isCreator : Bool) (call : ScheduledCall) : ScheduledCall :=
  { call with
    status := .cancelled
    cancelledAt := some now
    cancelledBy := some (if isCreator then .creator else .caller) }

def isDue (now : ℤ) (call : ScheduledCall) : Bool :=
  decide (call.status = .confirmed) && decide (call.scheduledAt ≤ now) &&
    call.reminderSentAt.isNone

end ScheduledCall

structure Store where
  users : List User
  creators : List Creator
  calls : Unique ScheduledCall.id

def dueLimit : ℕ := 20

namespace Store

variable (s : Store)

def findUser (firebaseUid : String) : Option User :=
  s.users.find? fun u => u.firebaseUid == firebaseUid

def findCreator (userId : ObjectId) : Option Creator :=
  s.creators.find? fun c => c.userId == userId

/-- `findOne({ _id, creatorId })`. -/
def callOf (id creatorId : ObjectId) : Option ScheduledCall :=
  (s.calls.get id).filter fun call => call.creatorId == creatorId

def dueCalls (now : ℤ) : List ScheduledCall := (s.calls.rows.filter (·.isDue now)).take dueLimit

def unclaimed (id : ObjectId) : Option ScheduledCall :=
  (s.calls.get id).filter fun call => call.reminderSentAt.isNone

end Store

/-! ### Answers -/

inductive ErrorCode where
  | NOT_FOUND
  | FORBIDDEN
  | INVALID_STATUS
  deriving DecidableEq

structure VipSchedulingError where
  message : String
  code : ErrorCode

inductive Response where
  | error (status : ℕ) (error : String) (errorCode : Option ErrorCode)
  | confirmed (id : ObjectId) (status : ScheduledCallStatus) (confirmedAt : Option ℤ)
  | cancelled (id : ObjectId) (status : ScheduledCallStatus) (cancelledAt : Option ℤ)

/-! ### Commands -/

inductive Cmd where
  | findUser (firebaseUid : String)
  | findCreator (userId : ObjectId)
  | findCallOf (id creatorId : ObjectId)
  | findCall (id : ObjectId)
  | save (id : ObjectId) (changes : Changes)
  | findDue (now : ℤ)
  | claimReminder (id : ObjectId) (now : ℤ)
  | emitDue (creatorFirebaseUid : String) (scheduledCallId callerUserId : ObjectId)
      (scheduledAt : ℤ)
  | respond (response : Response)

structure Reply where
  delivered : Bool
  answered : Bool

def Reply.ok (r : Reply) : Bool := r.delivered && r.answered

def Cmd.exec (c : Cmd) (r : Reply) (s : Store) : Store :=
  if r.delivered = false then s
  else
    match c with
    | .save id changes => { s with calls := s.calls.update id (·.set changes) }
    | .claimReminder id now =>
      match s.unclaimed id with
      | some _ => { s with calls := s.calls.update id (·.remind now) }
      | none => s
    | .findUser _ | .findCreator _ | .findCallOf .. | .findCall _ | .findDue _ | .emitDue ..
    | .respond _ => s

/-! ### Operations -/

abbrev SchedulingFlow (α : Type) : Type := Flow Cmd Reply Store α

def run (c : Cmd) : SchedulingFlow (Reply × Store) := Flow.call Reply.ok "command failed" c

/-- `call.save()`. -/
def save (old new : ScheduledCall) : SchedulingFlow Unit := do
  let (_, s) ← run (.save old.id (.between old new))
  if (s.calls.get old.id).isNone then throw "DocumentNotFoundError" else pure ()

def confirmScheduledCall (callId : Option ObjectId) (creatorId : ObjectId) (now : ℤ) :
    SchedulingFlow (Except VipSchedulingError ScheduledCall) :=
  match callId with
  | none => throw "CastError"
  | some id => do
    let (_, s) ← run (.findCallOf id creatorId)
    match s.callOf id creatorId with
    | none => pure (.error ⟨"Scheduled call not found", .NOT_FOUND⟩)
    | some call =>
      if call.status ≠ .pending_creator then
        pure (.error ⟨"Call cannot be confirmed", .INVALID_STATUS⟩)
      else do
        save call (call.confirm now)
        pure (.ok (call.confirm now))

structure Actor where
  userId : ObjectId
  isCreator : Bool

namespace Actor

variable (actor : Actor) (call : ScheduledCall)

/-- The `isCaller` of `cancelScheduledCall`. -/
def isCallerOf : Bool := call.callerUserId == actor.userId

/-- The `isCreator` of `cancelScheduledCall`. -/
def isCreatorOf : Bool := actor.isCreator && call.creatorId == actor.userId

end Actor

def cancelScheduledCall (callId : Option ObjectId) (actor : Actor) (now : ℤ) :
    SchedulingFlow (Except VipSchedulingError ScheduledCall) :=
  match callId with
  | none => throw "CastError"
  | some id => do
    let (_, s) ← run (.findCall id)
    match s.calls.get id with
    | none => pure (.error ⟨"Scheduled call not found", .NOT_FOUND⟩)
    | some call =>
      if !actor.isCallerOf call && !actor.isCreatorOf call then
        pure (.error ⟨"Not authorized", .FORBIDDEN⟩)
      else if call.status ∈ [.cancelled, .completed, .missed] then
        pure (.error ⟨"Call already closed", .INVALID_STATUS⟩)
      else do
        save call (call.cancel now (actor.isCreatorOf call))
        pure (.ok (call.cancel now (actor.isCreatorOf call)))

def answer (vipEnabled : Bool) (auth : Option String) (failed : String)
    (handle : User → SchedulingFlow Response) : SchedulingFlow Unit := do
  let response ← tryCatch
    (if vipEnabled = false then pure (.error 503 "VIP is not available yet" none)
    else
      match auth with
      | none => pure (.error 401 "Unauthorized" none)
      | some firebaseUid => do
        let (_, s) ← run (.findUser firebaseUid)
        match s.findUser firebaseUid with
        | none => pure (.error 404 "User not found" none)
        | some user => handle user)
    fun _ => pure (.error 500 failed none)
  let _ ← run (.respond response)
  pure ()

def confirmScheduledCallHandler (vipEnabled : Bool) (auth : Option String)
    (callId : Option ObjectId) (now : ℤ) : SchedulingFlow Unit :=
  answer vipEnabled auth "Failed to confirm scheduled call" fun user => do
    let (_, s) ← run (.findCreator user.id)
    match s.findCreator user.id with
    | none => pure (.error 403 "Creator profile required" none)
    | some creator => do
      let result ← confirmScheduledCall callId creator.id now
      match result with
      | .ok call => pure (.confirmed call.id call.status call.confirmedAt)
      | .error e =>
        pure (.error (if e.code = .NOT_FOUND then 404 else 400) e.message (some e.code))

def cancelScheduledCallHandler (vipEnabled : Bool) (auth : Option String)
    (callId : Option ObjectId) (now : ℤ) : SchedulingFlow Unit :=
  answer vipEnabled auth "Failed to cancel scheduled call" fun user => do
    let (_, s) ← run (.findCreator user.id)
    let result ← cancelScheduledCall callId ⟨user.id, (s.findCreator user.id).isSome⟩ now
    match result with
    | .ok call => pure (.cancelled call.id call.status call.cancelledAt)
    | .error e =>
      pure (.error (if e.code = .NOT_FOUND then 404 else if e.code = .FORBIDDEN then 403 else 400)
        e.message (some e.code))

def remindAll (now : ℤ) : List ScheduledCall → SchedulingFlow Unit
  | [] => pure ()
  | call :: calls => do
    let (_, s) ← run (.claimReminder call.id now)
    match s.unclaimed call.id with
    | none => remindAll now calls
    | some claimed => do
      let _ ← run (.emitDue claimed.creatorFirebaseUid claimed.id claimed.callerUserId
        claimed.scheduledAt)
      remindAll now calls

def processDueScheduledCalls (vipSchedulingEnabled : Bool) (now : ℤ) : SchedulingFlow Unit :=
  if vipSchedulingEnabled = false then pure ()
  else do
    let (_, s) ← run (.findDue now)
    remindAll now (s.dueCalls now)

inductive Request where
  | confirm (vipEnabled : Bool) (auth : Option String) (callId : Option ObjectId) (now : ℤ)
  | cancel (vipEnabled : Bool) (auth : Option String) (callId : Option ObjectId) (now : ℤ)
  | remind (vipSchedulingEnabled : Bool) (now : ℤ)

def program (q : Request) : Prog Cmd Reply Store Unit :=
  match q with
  | .confirm vipEnabled auth callId now =>
    (confirmScheduledCallHandler vipEnabled auth callId now).run >>= fun _ => .ret ()
  | .cancel vipEnabled auth callId now =>
    (cancelScheduledCallHandler vipEnabled auth callId now).run >>= fun _ => .ret ()
  | .remind vipSchedulingEnabled now =>
    (processDueScheduledCalls vipSchedulingEnabled now).run >>= fun _ => .ret ()

end VibemeetBackend.Scheduling
