import VibemeetBackend.Video.Lifecycle

/-!
# Which commands a webhook issues

The commands of the video modules fall into three kinds: those that restore a creator's presence and
clear slots, those that mark a creator busy and create the record of a call, and those of an end.  What
is proved of a kind holds of every program of the kind.
-/

namespace VibemeetBackend.Video

open Async Flow Billing ActiveCall

@[simp] def Restores : VideoCmd → Prop
  | .query | .readSlot _ | .delSlot .. | .delKey (.snapshot ..) | .rehydrate _ => True
  | _ => False

@[simp] def Claims : VideoCmd → Prop
  | .query | .claimKey (.busyPhase ..) | .claimKey (.snapshot ..) | .claimKey (.overlapRejected _)
  | .claimKey (.offlineRejected _) => True
  | _ => False

@[simp] def Marks (callId : String) : VideoCmd → Prop
  | .query | .claimKey (.busyPhase ..) | .claimKey (.snapshot ..) | .claimKey (.overlapRejected _)
  | .claimKey (.offlineRejected _) => True
  | .setSlot id _ => id = callId
  | .createCall id call => id = callId ∧ call.isSettled = false
  | _ => False

@[simp] def SaveEnds (loaded call : CallDoc) : Prop :=
  call.status = .ended ∧ (call.isSettled = true ∨ call.isSettled = loaded.isSettled)

@[simp] def Ends (callId : String) (c : VideoCmd) : Prop :=
  Restores c ∨
    match c with
    | .settlement id _ | .setKey (.finalizeDone id) | .claimKey (.finalizeLock id)
    | .delKey (.finalizeLock id) => id = callId
    | .createCall id call => id = callId ∧ call.isSettled = false
    | .saveCall _ id loaded call => id = callId ∧ SaveEnds loaded call
    | _ => False

section

variable {α : Type} {P : VideoCmd → Prop}

abbrev IssuesOnly (P : VideoCmd → Prop) (p : VideoFlow α) : Prop := Issues (fun _ => True) P p

theorem issuesOnly_call {ok : VideoReply → Bool} {err : String} {c : VideoCmd}
    {f : VideoReply × VideoStore → VideoFlow α} (hc : P c) (h : ∀ r s, IssuesOnly P (f (r, s))) :
    IssuesOnly P (call ok err c >>= f) :=
  issues_call_bind hc fun r s _ => h r s

end

/-! ### Presence -/

attribute [local simp] run quiet

variable (cfg : VideoConfig)

@[simp] theorem readKey_restores (k : VideoKey) : IssuesOnly Restores (readKey k) := by
  simp [readKey]

@[simp] theorem dateNow_restores : IssuesOnly Restores dateNow := by simp [dateNow]

@[simp] theorem slotLiveByRecord_restores (slotCallId uid : String) :
    IssuesOnly Restores (slotLiveByRecord cfg slotCallId uid) := by
  simp [slotLiveByRecord]
  intros
  split <;> simp

@[simp] theorem isCreatorActiveCallSlotLive_restores (slotCallId uid : String) :
    IssuesOnly Restores (isCreatorActiveCallSlotLive cfg slotCallId uid) := by
  simp [isCreatorActiveCallSlotLive]
  intros
  split <;> simp

@[simp] theorem clearCreatorActiveCallSlotIfStale_restores (callId uid : String)
    (endingCallId : Option String) :
    IssuesOnly Restores (clearCreatorActiveCallSlotIfStale cfg callId uid endingCallId) := by
  simp [clearCreatorActiveCallSlotIfStale]
  intros
  split <;> simp

@[simp] theorem transitionCreatorPresence_restores (callId uid : String) :
    IssuesOnly Restores (transitionCreatorPresence cfg callId uid) := by
  simp [transitionCreatorPresence]

theorem restoreAvailability_bind (callId uid : String) :
    ∃ rest : VideoReply × VideoStore → SlotClear → VideoFlow Unit,
      restoreAvailability cfg callId uid =
          (run .query >>= fun x =>
            clearCreatorActiveCallSlotIfStale cfg callId uid (some callId) >>= rest x) ∧
        ∀ x result, IssuesOnly Restores (rest x result) := ⟨_, rfl, fun _ _ => by simp⟩

@[simp] theorem restoreAvailability_restores (callId uid : String) :
    IssuesOnly Restores (restoreAvailability cfg callId uid) := by
  simp [restoreAvailability]

@[simp] theorem finalizeCreatorAvailabilityForCall_restores (callId : String) :
    IssuesOnly Restores (finalizeCreatorAvailabilityForCall cfg callId) := by
  simp [finalizeCreatorAvailabilityForCall]
  intros
  split <;> simp

@[simp] theorem restoreCreatorPresenceForEndedCall_restores (callId : String) :
    IssuesOnly Restores (restoreCreatorPresenceForEndedCall cfg callId) := by
  simp [restoreCreatorPresenceForEndedCall]
  intros
  split <;> simp

theorem clearSlotOfDeadLetter_restores (callId uid : String) :
    IssuesOnly Restores (clearSlotOfDeadLetter callId uid) := by
  simp [clearSlotOfDeadLetter]

@[simp] theorem readActiveCallConflict_restores (callId uid : String) :
    IssuesOnly Restores (readActiveCallConflict callId uid) := by
  simp [readActiveCallConflict]
  intros
  split <;> simp

/-! ### Busy marks and records -/

variable (callId : String)

@[simp] theorem markCreatorBusyForCall_marks (uid : String) (phase : BusyPhase) :
    IssuesOnly (Marks callId) (markCreatorBusyForCall callId uid phase) := by
  simp [markCreatorBusyForCall]

@[simp] theorem createCall_issues {P : VideoCmd → Prop} {call : CallDoc} :
    IssuesOnly P (createCall callId call) ↔ P (.createCall callId call) := by
  simp [createCall]

@[simp] theorem ensureCallRecordExists_marks :
    IssuesOnly (Marks callId) (ensureCallRecordExists callId) := by
  simp [ensureCallRecordExists]
  intros
  split <;> simp [newCall]

theorem markSessionStarted_marks : IssuesOnly (Marks callId) (do
    let (r, _) ← run .query
    if let some uid := r.creatorUid then
      markCreatorBusyForCall callId uid .sessionStarted : VideoFlow Unit) := by
  simp
  intros
  split <;> simp

theorem handleCallAccepted_marks : IssuesOnly (Marks callId) (handleCallAccepted callId) := by
  simp [handleCallAccepted]
  intros
  split <;> simp

/-! ### Ends -/

theorem Restores.ends {c : VideoCmd} (h : Restores c) : Ends callId c := .inl h

@[simp low] theorem issuesOnly_ends {α : Type} {p : VideoFlow α} (hp : IssuesOnly Restores p) :
    IssuesOnly (Ends callId) p :=
  Issues.mono hp fun _ hc => hc.ends callId

@[simp] theorem onSettlement_ends {α : Type} (p : Settlement.SettlementFlow α) :
    IssuesOnly (Ends callId) (onSettlement callId p) :=
  Prog.issues_focus (I := fun _ => True) (Prog.issues_of_forall (fun _ => trivial) p.run)
    (fun _ _ => trivial) fun (_ : Settlement.SettlementCmd) (_ : True) => .inr rfl

variable (t : EndTokens)

@[simp] theorem settleExplicitEnd_ends :
    IssuesOnly (Ends callId) (settleExplicitEnd cfg callId t) := by
  simp [settleExplicitEnd]
  intros
  split <;> simp

theorem finalizeCall_bind (call : CallDoc) :
    ∃ rest : Unit → VideoFlow Unit,
      finalizeCall cfg callId t call =
          finalizeCreatorAvailabilityForCall cfg callId >>= rest ∧
        ∀ x, IssuesOnly (Ends callId) (rest x) := ⟨_, rfl, fun _ => by simp [projectEnding]⟩

@[simp] theorem finalizeCall_ends (call : CallDoc) :
    IssuesOnly (Ends callId) (finalizeCall cfg callId t call) := by
  simp [finalizeCall, projectEnding]

@[simp] theorem finalizeLocked_ends : IssuesOnly (Ends callId) (finalizeLocked cfg callId t) := by
  simp [finalizeLocked]
  intros
  split <;> simp

@[simp] theorem finalizeCallEnd_ends : IssuesOnly (Ends callId) (finalizeCallEnd cfg callId t) := by
  have hmk : ∀ x, IssuesOnly (Ends callId) (ExceptT.mk (Prog.ret x) : VideoFlow Unit) :=
    fun _ => trivial
  simp [finalizeCallEnd, hmk]

@[simp] theorem markEnded_ends (call : CallDoc) : IssuesOnly (Ends callId) (markEnded callId call) := by
  simp [markEnded, transitionCallStatus_status]

def EndsFirst (t : EndTokens) (p : VideoFlow Unit) : Prop :=
  ∃ rest : Except String Unit → VideoFlow Unit,
    p = attempt (finalizeCallEnd cfg callId t) >>= rest ∧
      ∀ x, IssuesOnly (Ends callId) (rest x)

theorem EndsFirst.ends {t : EndTokens} {p : VideoFlow Unit} (hp : EndsFirst cfg callId t p) :
    IssuesOnly (Ends callId) p := by
  obtain ⟨rest, rfl, hrest⟩ := hp
  exact issues_bind (issues_attempt (finalizeCallEnd_ends cfg callId t)) hrest

theorem handleCallEnded_endsFirst : EndsFirst cfg callId t (handleCallEnded cfg callId t) := by
  refine ⟨_, rfl, fun _ => ?_⟩
  simp
  intros
  split <;> simp
  intros
  split <;> simp [newCall]

theorem endSession_saves (now : ℤ) (endedAt : Option ℤ) (call : CallDoc) :
    SaveEnds call (endSession now endedAt call) := by
  refine ⟨?_, .inl rfl⟩
  rw [endSession]
  split
  · exact transitionCallStatus_status now .ended _
  · rename_i hended
    exact not_not.1 hended

theorem handleSessionEnded_endsFirst (endedAt : Option ℤ) (t : EndTokens) :
    EndsFirst cfg callId t (handleSessionEnded cfg callId endedAt t) := by
  have hsaves := fun now call => endSession_saves now endedAt call
  refine ⟨_, rfl, fun _ => ?_⟩
  simp at hsaves ⊢
  intros
  split <;> simp [hsaves]

/-! ### The incoming call -/

theorem Claims.marks {c : VideoCmd} (h : Claims c) : Marks callId c := by
  cases c with
  | query => trivial
  | claimKey k => cases k <;> trivial
  | _ => exact h.elim

theorem rejectOverlappingIncomingCallIfNeeded_commands :
    IssuesOnly (fun c => Ends callId c ∨ Claims c)
      (rejectOverlappingIncomingCallIfNeeded cfg callId t) := by
  generalize hP : (fun c => Ends callId c ∨ Claims c) = P
  have hquery : P .query := hP ▸ .inr trivial
  have hclaim : P (.claimKey (.overlapRejected callId)) := hP ▸ .inr trivial
  have hends : ∀ {α : Type} {p : VideoFlow α}, IssuesOnly (Ends callId) p → IssuesOnly P p :=
    fun hp => Issues.mono hp fun _ hc => hP ▸ .inl hc
  simp [rejectOverlappingIncomingCallIfNeeded, hquery]
  intros
  split <;> simp [hends, hclaim]

theorem handleCallRinging_commands :
    IssuesOnly (fun c => Ends callId c ∨ Marks callId c) (handleCallRinging cfg callId t) := by
  have hrejects := Issues.mono (rejectOverlappingIncomingCallIfNeeded_commands cfg callId t)
    fun _ hc => hc.imp_right (Claims.marks callId)
  generalize hP : (fun c => Ends callId c ∨ Marks callId c) = P at hrejects ⊢
  have hissues : ∀ {α : Type} {p : VideoFlow α}, IssuesOnly (Marks callId) p → IssuesOnly P p :=
    fun hp => Issues.mono hp fun _ hc => hP ▸ .inr hc
  simp [handleCallRinging, hissues, hrejects]
  intros
  split <;> simp [hissues]

/-! ### The start of a session -/

def Starts (callId : String) (c : VideoCmd) : Prop := ∃ c', c = .start callId c'

theorem onStart_starts {α : Type} (p : ActiveCallFlow α) :
    IssuesOnly (Starts callId) (onStart callId p) :=
  Prog.issues_focus (I := fun _ => True) (Prog.issues_of_forall (fun _ => trivial) p.run)
    (fun _ _ => trivial) fun (c : ActiveCallCmd) (_ : True) => ⟨c, rfl⟩

theorem startBillingOfCall_commands (token : String) :
    IssuesOnly (fun c => Marks callId c ∨ Starts callId c) (startBillingOfCall cfg callId token) := by
  generalize hP : (fun c => Marks callId c ∨ Starts callId c) = P
  have hquery : P .query := hP ▸ .inl trivial
  have hissues : ∀ {α : Type} {p : VideoFlow α}, IssuesOnly (Marks callId) p → IssuesOnly P p :=
    fun hp => Issues.mono hp fun _ hc => hP ▸ .inl hc
  have hstarts : ∀ {α : Type} (p : ActiveCallFlow α), IssuesOnly P (onStart callId p) :=
    fun p => Issues.mono (onStart_starts callId p) fun _ hc => hP ▸ .inr hc
  simp [startBillingOfCall, hquery]
  intros
  split <;> simp [hissues] <;> intros <;> split <;> simp [hstarts, hquery]

end VibemeetBackend.Video
