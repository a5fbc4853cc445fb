import VibemeetBackend.Async.Watch
import VibemeetBackend.Video.Commands
import VibemeetBackend.Settlement.Absorbing

/-!
# Terminal call statuses

The table of `call-state.service.ts` calls four statuses terminal.  `transitionCallStatus` applies a
transition that is not in the table all the same, and a document that was loaded earlier is saved over
whatever is stored by then.
-/

namespace VibemeetBackend.Video

open Async Flow Billing

def VideoStore.statusOf (s : VideoStore) (callId : String) : Option CallStatus :=
  (s.calls callId).map (·.status)

def MayBecome (src dst : CallStatus) : Prop := dst = src ∨ isAllowedTransition src dst = true

instance (src dst : CallStatus) : Decidable (MayBecome src dst) :=
  inferInstanceAs (Decidable (_ ∨ _))

/-- The status that a request gives a call which it has loaded with a status. -/
def Request.asks (q : Request) (loaded : CallStatus) : CallStatus :=
  match q with
  | .transition _ nextStatus => nextStatus
  | .webhook _ (.sessionStarted _) _ _ => if loaded = .ringing then .accepted else loaded
  | _ => .ended

/-- The calls that a request is made of: a session starts on a call that has not ended, a call that
is rejected, missed or cancelled is not ended any more, and an admin keeps to the table. -/
def Request.Fits (q : Request) (status : CallStatus) : Prop :=
  match q with
  | .transition _ nextStatus => MayBecome status nextStatus
  | .webhook _ (.sessionStarted _) _ _ => status = .ringing ∨ status = .accepted
  | _ => status ≠ .rejected ∧ status ≠ .missed ∧ status ≠ .cancelled

instance (q : Request) (status : CallStatus) : Decidable (q.Fits status) := by
  unfold Request.Fits
  split <;> infer_instance

/-- A request that changes the status of a call fits the call that it has loaded, and no other
request has brought the call to a status that it does not fit by the time of its save. -/
def Orderly (x : Request × VideoEvent) : Prop :=
  match x.2.cmd with
  | .saveCall _ callId loaded _ => x.1.asks loaded.status ≠ loaded.status →
      x.1.Fits loaded.status ∧
        (x.2.ans.delivered = true → ∀ stored ∈ x.2.before.statusOf callId, x.1.Fits stored)
  | _ => True

instance : DecidablePred Orderly := fun x => by
  unfold Orderly
  split <;> infer_instance

def Asks (q : Request) : VideoCmd → Prop
  | .saveCall _ _ loaded call => call.status = q.asks loaded.status
  | _ => True

variable {status : CallStatus} {q : Request}

variable {c : VideoCmd}

section asks

attribute [local simp] run quiet Asks

variable (cfg : VideoConfig) (callId : String)

theorem Marks.asks (q : Request) (h : Marks callId c) : Asks q c := by
  cases c with
  | saveCall => exact h.elim
  | _ => trivial

theorem Ends.asks (hq : ∀ loaded, q.asks loaded = .ended) (h : Ends callId c) : Asks q c := by
  cases c with
  | saveCall source id loaded call =>
    rcases h with h | ⟨-, h, -⟩
    · exact h.elim
    · exact h.trans (hq _).symm
  | _ => trivial

theorem Starts.asks (q : Request) (h : Starts callId c) : Asks q c := by
  obtain ⟨c, rfl⟩ := h
  trivial

theorem Restores.asks (q : Request) (h : Restores c) : Asks q c := by
  cases c with
  | saveCall => exact h.elim
  | _ => trivial

theorem startCall_status (now : ℤ) (startedAt : Option ℤ) (price : PriceSnapshot) (call : CallDoc) :
    (startCall now startedAt price call).status =
      if call.status = .ringing then .accepted else call.status := by
  unfold startCall
  dsimp only
  split
  · exact transitionCallStatus_status now .accepted _
  · rfl

end asks

/-! ### Who changes a status -/

theorem MayBecome.refl (status : CallStatus) : MayBecome status status := .inl rfl

section

variable {s : VideoStore} {callId : String}

theorem statusOf_setCall (callId' : String) (call : Option CallDoc) :
    (s.setCall callId' call).statusOf callId =
      if callId = callId' then call.map (·.status) else s.statusOf callId := by
  simp only [VideoStore.statusOf, VideoStore.setCall, Function.update_apply]
  split <;> rfl

theorem statusOf_insertCall {callId' : String} {call : CallDoc}
    (h : s.statusOf callId = some status) :
    (s.insertCall callId' call).statusOf callId = some status := by
  rw [VideoStore.insertCall]
  split
  · exact h
  · rename_i hnone
    have hne : callId ≠ callId' := by
      rintro rfl
      obtain ⟨c, hc, -⟩ := Option.map_eq_some_iff.1 h
      exact hnone (by rw [hc]; rfl)
    show (s.setCall callId' _).statusOf callId = _
    rw [statusOf_setCall, if_neg hne]
    exact h

theorem statusOf_settlementEffect (callId' : String) (c : Settlement.SettlementCmd) :
    (settlementEffect s callId' c).statusOf callId = s.statusOf callId := by
  cases c with
  | markCallSettled version =>
    rw [settlementEffect, statusOf_setCall]
    split
    · rename_i h
      rw [h, Option.map_map]
      rfl
    · rfl
  | _ => rfl

theorem statusOf_startEffect (r : VideoReply) (c : ActiveCall.ActiveCallCmd) :
    (startEffect r s c).statusOf callId = s.statusOf callId := by
  cases c with
  | reserve id p =>
    rw [startEffect]
    split <;> rfl
  | billing id c => cases c <;> rfl
  | _ => rfl

theorem statusOf_save {callId' : String} {loaded call : CallDoc}
    (h : s.statusOf callId = some status) :
    (s.setCall callId' ((s.calls callId').map (loaded.save call))).statusOf callId =
      if callId = callId' then some (savedField loaded.status call.status status)
      else some status := by
  rw [statusOf_setCall]
  split
  · rename_i hid
    subst hid
    obtain ⟨c, hc, rfl⟩ := Option.map_eq_some_iff.1 h
    rw [hc]
    rfl
  · exact h

/-- **Only a save changes a status.** -/
theorem statusOf_effect {r : VideoReply} (h : s.statusOf callId = some status) :
    (effect r s c).statusOf callId = some status ∨
      ∃ source loaded call, c = .saveCall source callId loaded call ∧ call.status ≠ loaded.status ∧
        (effect r s c).statusOf callId = some call.status := by
  cases c with
  | saveCall source callId' loaded call =>
    rw [effect, statusOf_save h]
    split
    · rename_i hid
      subst hid
      by_cases hm : call.status = loaded.status
      · exact .inl (by rw [savedField, if_pos hm])
      · exact .inr ⟨source, loaded, call, rfl, hm, by rw [savedField, if_neg hm]⟩
    · exact .inl rfl
  | createCall callId' call | upsertCall callId' => exact .inl (statusOf_insertCall h)
  | rehydrate callId' =>
    refine .inl ?_
    rw [effect]
    split <;> exact h
  | settlement callId' c => exact .inl ((statusOf_settlementEffect callId' c).trans h)
  | start callId' c => exact .inl ((statusOf_startEffect r c).trans h)
  | _ => exact .inl h

theorem statusOf_exec {r : VideoReply} (h : s.statusOf callId = some status) :
    (exec c r s).statusOf callId = some status ∨
      ∃ source loaded call, c = .saveCall source callId loaded call ∧ r.delivered = true ∧
        call.status ≠ loaded.status ∧ (exec c r s).statusOf callId = some call.status := by
  have hdelivered : ∀ c : VideoCmd,
      ((if r.delivered = true then effect r s c else s).statusOf callId = some status) ∨
        ∃ source loaded call, c = .saveCall source callId loaded call ∧ r.delivered = true ∧
          call.status ≠ loaded.status ∧
          (if r.delivered = true then effect r s c else s).statusOf callId = some call.status := by
    intro c
    by_cases hr : r.delivered = true
    · rw [if_pos hr]
      obtain h' | ⟨source, loaded, call, hc, hm, h'⟩ := statusOf_effect (r := r) (c := c) h
      · exact .inl h'
      · exact .inr ⟨source, loaded, call, hc, hr, hm, h'⟩
    · rw [if_neg hr]
      exact .inl h
  cases c with
  | start callId' c =>
    cases c with
    | finish id p => exact .inl h
    | _ => exact hdelivered _
  | _ => exact hdelivered _

end

/-! ### Runs -/

section

variable {s : VideoStore} {c : VideoCmd} {r : VideoReply}

end

def sampleVideoConfig : VideoConfig where
  billing := sampleConfig
  settlement := Settlement.defaultConfig
  finalizerLogOnly := false
  enforceAvailabilityWrites := true
  ringingSlotGraceSeconds := 120

def freshSettlement : Settlement.SettlementStore where
  call := none
  userHistory := none
  creatorHistory := none
  durable := none
  outbox := []
  deadLetter := false
  settledKey := false
  recoveryCooldown := false
  finalizeInflight := none
  settlementClaim := none
  settleLock := none
  retryDedup := false
  retryPayload := none
  retryQueued := false

def freshVideo : VideoStore where
  calls := fun _ => none
  keys := fun _ => false
  start :=
    { billing := fun _ => emptyStore
      slots := fun _ => none
      callpair := fun _ => none
      orchestrator := fun _ => false
      startLock := fun _ => none
      starting := fun _ => [] }
  slotExpiresAt := fun _ => 0
  settlement := fun _ => freshSettlement
  committed := fun _ => false
  hadSession := fun _ => false

/-- Every command succeeds, the participants are known and no session is found. -/
def sampleAnswer : VideoReply where
  delivered := true
  answered := true
  now := 1000
  admitted := true
  billing := { sampleReply 1000 with ok := false }
  view := { (Settlement.sampleAnswer 1000).view with hasSession := false }
  participants := some ⟨"user-uid", "creator-uid"⟩
  creatorUid := some "creator-uid"
  callerUid := some "user-uid"
  creatorMongoId := some "creator"
  creatorOnline := true
  price := noPrice
  rehydrated := none
  sessionActive := false
  ownedElsewhere := false

def steps (i n : ℕ) : List (Move Request VideoReply) := List.replicate n (.step i sampleAnswer)

def sampleTokens : EndTokens := ⟨"inflight", "owner"⟩

end VibemeetBackend.Video
