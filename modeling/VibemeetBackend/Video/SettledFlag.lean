import VibemeetBackend.Settlement.Records
import VibemeetBackend.Video.Commands
import VibemeetBackend.Video.StatusAbsorbing

/-!
# What `isSettled` and the done key say

`Call.isSettled` and the done key of the finalizer should say that a settlement transaction of the
call committed, unless the call never had a billing session.  The finalizer and the settlement set
them only when they know of a commit; two webhook handlers set the flag whatever the finalizer
returned, and a session may be stored for a call that is flagged already.
-/

namespace VibemeetBackend.Video

open Async Flow Billing ActiveCall Knowledge
open Settlement (SettlementStore SettlementReply SettlementCmd settledKnowledge)

namespace VideoStore

variable (s : VideoStore)

def Flagged (callId : String) : Prop :=
  (∃ call, s.calls callId = some call ∧ call.isSettled = true) ∨
    s.keys (.finalizeDone callId) = true

def Backed (callId : String) : Prop := s.committed callId = true ∨ s.hadSession callId = false

def FlagsBacked : Prop := ∀ callId, s.Flagged callId → s.Backed callId

end VideoStore

def storesSession : BillingCmd → Bool
  | .persistSession _ | .persistAll .. => true
  | _ => false

/-- A webhook handler that sets the flag of a call finds it backed, and the first session of a call is
stored only when the call is not flagged or a settlement has committed. -/
def Cautious (e : VideoEvent) : Prop :=
  e.ans.delivered = true →
    match e.cmd with
    | .saveCall source callId loaded call =>
      source ≠ .finalizer → loaded.isSettled = false → call.isSettled = true →
        (e.before.calls callId).isSome = true → e.before.Backed callId
    | .rehydrate callId =>
      e.before.session callId = none → e.ans.rehydrated.isSome = true →
        e.before.hadSession callId = false → e.before.Flagged callId →
          e.before.committed callId = true
    | .start _ (.billing callId c) =>
      storesSession c = true → e.before.hadSession callId = false → e.before.Flagged callId →
        e.before.committed callId = true
    | _ => True

/-! ### Who may set a flag -/

/-- That a settlement transaction of the call committed: it is needed to record a settlement, to set
the done key, and by the finalizer to set the flag. -/
def videoKnowledge : Knowledge VideoCmd VideoReply VideoStore String where
  allows callId c :=
    match c with
    | .settlement callId' _ | .setKey (.finalizeDone callId') | .saveCall .finalizer callId' .. =>
      callId' = callId
    | .claimKey (.finalizeDone _) => False
    | .createCall _ call => call.isSettled = false
    | _ => True
  needs c :=
    match c with
    | .settlement _ c => c.records = true
    | .setKey (.finalizeDone _) => True
    | .saveCall .finalizer _ loaded call => loaded.isSettled = false ∧ call.isSettled = true
    | _ => False
  shows callId c r s :=
    match c with
    | .settlement _ c => settledKnowledge.shows () c r.toSettlement (s.settlement callId)
    | _ => false

variable {c : VideoCmd}

section rules

variable {α β : Type} {callId : String} {b : Bool} {R : α → Prop}

/-- A program about a call that knows of a commit when `b`, and when its result satisfies `R`. -/
abbrev Learns (callId : String) (b : Bool) (p : VideoFlow α) (R : α → Prop) : Prop :=
  videoKnowledge.Learns callId b p R

def Free (c : VideoCmd) : Prop := (∀ callId, videoKnowledge.allows callId c) ∧ ¬ videoKnowledge.needs c

abbrev IsFree (p : VideoFlow α) : Prop := Issues (fun _ => True) Free p

theorem free_query : Free .query := ⟨fun _ => trivial, id⟩

theorem free_rehydrate (callId : String) : Free (.rehydrate callId) := ⟨fun _ => trivial, id⟩

theorem free_delKey (k : VideoKey) : Free (.delKey k) := ⟨fun _ => trivial, id⟩

theorem free_saveCall (source : SaveSource) (h : source ≠ .finalizer) (callId : String)
    (loaded call : CallDoc) : Free (.saveCall source callId loaded call) := by
  cases source with
  | finalizer => exact absurd rfl h
  | _ => exact ⟨fun _ => trivial, id⟩

variable {f : VideoReply × VideoStore → VideoFlow α}

theorem free_call {ok : VideoReply → Bool} {err : String} (hc : Free c)
    (h : ∀ r s, IsFree (f (r, s))) : IsFree (call ok err c >>= f) :=
  issues_call_bind hc fun r s _ => h r s

theorem learns_of_free {p : VideoFlow α} (hp : IsFree p) : Learns callId b p fun _ => False :=
  learns_of_issues (Issues.mono hp fun _ hc => ⟨hc.1 callId, hc.2⟩)

theorem learns_free_bind {p : VideoFlow β} {f : β → VideoFlow α} (hp : IsFree p)
    (hf : ∀ x b', (b = true → b' = true) → Learns callId b' (f x) R) :
    Learns callId b (p >>= f) R :=
  learns_bind (learns_of_free hp) fun x b' hb' => hf x b' fun hb => hb' (.inl hb)

theorem learns_free_call {ok : VideoReply → Bool} {err : String} (hc : Free c)
    (h : ∀ r s b', (b = true → b' = true) → Learns callId b' (f (r, s)) R) :
    Learns callId b (call ok err c >>= f) R :=
  learns_call_bind (hc.1 callId) (fun hn => (hc.2 hn).elim) fun r s b' hb' _ =>
    h r s b' fun hb => hb' (.inl hb)

theorem learns_onSettlement {p : Settlement.SettlementFlow α} (hp : Settlement.Learns b p R) :
    Learns callId b (onSettlement callId p) R :=
  learns_focus hp (fun _ _ => rfl) (fun _ hn => hn) fun _ _ _ => rfl

end rules

/-! ### The parties without knowledge -/

variable (cfg : VideoConfig)

theorem free_of_restores (h : Restores c) : Free c := by
  cases c with
  | query | readSlot | delSlot | delKey | rehydrate => exact ⟨fun _ => trivial, id⟩
  | _ => exact h.elim

theorem free_of_marks {callId : String} (h : Marks callId c) : Free c := by
  cases c with
  | query | setSlot => exact ⟨fun _ => trivial, id⟩
  | claimKey k =>
    cases k with
    | finalizeDone => exact h.elim
    | _ => exact ⟨fun _ => trivial, id⟩
  | createCall => exact ⟨fun _ => h.2, id⟩
  | _ => exact h.elim

theorem isFree_of_restores {α : Type} {p : VideoFlow α} (hp : IssuesOnly Restores p) : IsFree p :=
  Issues.mono hp fun _ => free_of_restores

theorem isFree_of_marks {α : Type} {callId : String} {p : VideoFlow α}
    (hp : IssuesOnly (Marks callId) p) : IsFree p :=
  Issues.mono hp fun _ => free_of_marks

theorem free_of_starts {callId : String} (h : Starts callId c) : Free c := by
  obtain ⟨c', rfl⟩ := h
  exact ⟨fun _ => trivial, id⟩

theorem onStart_free {α : Type} (callId : String) (p : ActiveCallFlow α) :
    IsFree (onStart callId p) :=
  Issues.mono (onStart_starts callId p) fun _ => free_of_starts

theorem startBillingOfCall_free (callId token : String) :
    IsFree (startBillingOfCall cfg callId token) :=
  Issues.mono (startBillingOfCall_commands cfg callId token) fun _ hc =>
    hc.elim free_of_marks free_of_starts

theorem handleSessionStarted_free (callId : String) (startedAt : Option ℤ) (token : String) :
    IsFree (handleSessionStarted cfg callId startedAt token) := by
  refine issues_bind (isFree_of_marks (ensureCallRecordExists_marks callId)) fun _ => ?_
  refine free_call free_query fun _ s => ?_
  dsimp only
  split
  · exact isFree_of_marks (markSessionStarted_marks callId)
  · refine free_call free_query fun _ s => ?_
    split
    · exact isFree_of_marks (markSessionStarted_marks callId)
    · refine free_call free_query fun r _ => ?_
      exact free_call (free_saveCall .sessionStarted nofun callId _ _) fun _ _ =>
        startBillingOfCall_free cfg callId token

theorem transitionCallStatusById_free (callId : String) (nextStatus : CallStatus) :
    IsFree (transitionCallStatusById callId nextStatus) := by
  refine free_call free_query fun _ s => ?_
  dsimp only
  split
  · exact issues_pure ()
  · exact issues_bind (isFree_of_restores dateNow_restores) fun now =>
      free_call (free_saveCall .byId nofun callId _ _) fun _ _ => issues_pure ()

theorem markEnded_free (callId : String) (call : CallDoc) : IsFree (markEnded callId call) :=
  issues_bind (isFree_of_restores dateNow_restores) fun _ =>
    free_call (free_saveCall .callEnded nofun callId _ _) fun _ _ => issues_pure ()

/-! ### Ends -/

section ends

variable {b : Bool}

theorem markCallEndingForDeferredEnd_free (callId : String) :
    IsFree (markCallEndingForDeferredEnd callId) := by
  refine free_call ⟨fun _ => trivial, id⟩ fun _ _ => free_call free_query fun _ s => ?_
  dsimp only
  split
  · exact issues_pure ()
  split
  · exact issues_pure ()
  · exact issues_bind (isFree_of_restores dateNow_restores) fun now =>
      free_call (free_saveCall .deferredEnd nofun callId _ _) fun _ _ => issues_pure ()

theorem projectEnding_learns (callId : String) (hasSession : Bool) :
    Learns callId b (projectEnding cfg callId hasSession) fun _ => False := by
  refine learns_onSettlement ?_
  split
  · exact Settlement.learns_of_plain
      (Settlement.enqueueCallBillingProjectionEvent_plain cfg.settlement rfl)
  · exact Settlement.learns_of_plain
      (Settlement.upsertPendingCallHistoryOnEnding_plain cfg.settlement)

theorem settleExplicitEnd_learns (hunified : cfg.settlement.unifiedBillingFinalizerEnabled = true)
    (callId : String) (t : EndTokens) :
    Learns callId b (settleExplicitEnd cfg callId t) (· = true) := by
  refine learns_bind (learns_onSettlement (Settlement.finalizeCallSession_learns
    cfg.settlement hunified _ _ _)) fun status b' hb' => ?_
  cases status with
  | settled => exact learns_pure fun _ => hb' (.inr rfl)
  | duplicate =>
    exact learns_onSettlement (Settlement.isCallBillingAlreadySettled_learns cfg.settlement)
  | pendingRetry | deadLettered => exact learns_pure fun h => absurd h Bool.false_ne_true

theorem setDone_learns (callId : String) (hb : b = true) :
    Learns callId b (do
      let _ ← run (.setKey (.finalizeDone callId)) : VideoFlow Unit) fun _ => False :=
  learns_call_bind rfl (fun _ => hb) fun _ _ _ _ _ => learns_pure nofun

theorem finalizeCall_learns (hunified : cfg.settlement.unifiedBillingFinalizerEnabled = true)
    (callId : String) (t : EndTokens) (call : CallDoc) :
    Learns callId b (finalizeCall cfg callId t call) fun _ => False := by
  refine learns_free_bind (isFree_of_restores
    (finalizeCreatorAvailabilityForCall_restores cfg callId)) fun _ b₁ _ => ?_
  refine learns_free_bind (isFree_of_restores dateNow_restores) fun now b₂ _ => ?_
  refine learns_free_call free_query fun _ _ b₃ _ => ?_
  refine learns_free_call (free_rehydrate callId) fun r s b₄ _ => ?_
  refine learns_bind (projectEnding_learns cfg callId _) fun _ b₅ _ => ?_
  refine learns_bind (settleExplicitEnd_learns cfg hunified callId t)
    fun complete b₆ hb₆ => ?_
  refine learns_call_bind rfl ?_ fun _ _ b₇ hb₇ _ => ?_
  · -- the save sets the flag only when the end is complete
    rintro ⟨hloaded, hcall⟩
    cases complete with
    | true => exact hb₆ (.inr rfl)
    | false =>
      rw [if_neg Bool.false_ne_true, transitionCallStatus_isSettled, hloaded] at hcall
      cases hcall
  · split
    · rename_i hcomplete
      exact setDone_learns callId (hb₇ (.inl (hb₆ (.inr hcomplete))))
    · exact learns_pure fun h => h.elim

theorem finalizeLocked_learns (hunified : cfg.settlement.unifiedBillingFinalizerEnabled = true)
    (callId : String) (t : EndTokens) :
    Learns callId b (finalizeLocked cfg callId t) fun _ => False := by
  refine learns_free_call free_query fun _ s b₁ _ => ?_
  dsimp only
  split
  · exact finalizeCall_learns cfg hunified callId t _
  · refine learns_bind (settleExplicitEnd_learns cfg hunified callId t)
      fun complete b₂ hb₂ => ?_
    split
    · rename_i hcomplete
      exact setDone_learns callId (hb₂ (.inr hcomplete))
    · exact learns_pure nofun

/-- **The finalizer** sets a flag only when it knows of a commit. -/
theorem finalizeCallEnd_learns (hunified : cfg.settlement.unifiedBillingFinalizerEnabled = true)
    (callId : String) (t : EndTokens) :
    Learns callId b (finalizeCallEnd cfg callId t) fun _ => False := by
  rw [finalizeCallEnd]
  split
  · exact learns_pure fun h => h.elim
  have hrestore : ∀ b, Learns callId b (do
      let _ ← attempt (restoreCreatorPresenceForEndedCall cfg callId)
      pure () : VideoFlow Unit) fun _ => False := fun b =>
    learns_of_free (isFree_of_restores (issues_bind (issues_attempt
      (restoreCreatorPresenceForEndedCall_restores cfg callId)) fun _ => issues_pure ()))
  refine learns_free_call free_query fun _ s b₁ _ => ?_
  dsimp only
  split
  · exact hrestore b₁
  refine learns_free_call ⟨fun _ => trivial, id⟩ fun _ s b₂ _ => ?_
  split
  · exact hrestore b₂
  refine learns_bind (learns_attempt
    (finalizeLocked_learns cfg hunified callId t)) fun result b₃ _ => ?_
  exact learns_free_call (free_delKey _) fun _ _ b₄ _ => learns_mk fun _ _ hR => hR.elim

theorem delegateCallEndSettlementToRetry_learns (callId : String) :
    Learns callId b (delegateCallEndSettlementToRetry cfg callId) fun _ => False := by
  refine learns_free_bind (markCallEndingForDeferredEnd_free callId) fun _ b₁ _ => ?_
  refine learns_free_call free_query fun _ s b₂ _ => ?_
  have hqueue : ∀ b, Learns callId b (onSettlement callId
      (Settlement.enqueueImmediateSettlementRetry cfg.settlement ⟨none, none⟩)) fun _ => False :=
    fun b => learns_onSettlement (Settlement.learns_of_plain
      (Settlement.enqueueRetry_plain cfg.settlement _))
  dsimp only
  split
  · exact learns_free_bind (isFree_of_restores
    (finalizeCreatorAvailabilityForCall_restores cfg callId))
      fun _ b₃ _ => hqueue b₃
  · exact learns_free_bind (isFree_of_restores
    (restoreCreatorPresenceForEndedCall_restores cfg callId))
      fun _ b₃ _ => hqueue b₃

theorem endExplicitly_learns (hunified : cfg.settlement.unifiedBillingFinalizerEnabled = true)
    (callId : String) (t : EndTokens) :
    Learns callId b (endExplicitly cfg callId t) fun _ => False := by
  refine learns_free_call (free_rehydrate callId) fun r _ b₁ _ => ?_
  dsimp only
  split
  · refine learns_of_free (issues_bind (markCallEndingForDeferredEnd_free callId) fun _ => ?_)
    exact free_call ⟨fun _ => trivial, id⟩ fun _ _ => issues_bind (issues_attempt
      (isFree_of_restores
    (restoreCreatorPresenceForEndedCall_restores cfg callId))) fun _ => issues_pure ()
  split
  · exact delegateCallEndSettlementToRetry_learns cfg callId
  · exact finalizeCallEnd_learns cfg hunified callId t

/-! ### Webhooks -/

theorem handleCallEnded_learns (hunified : cfg.settlement.unifiedBillingFinalizerEnabled = true)
    (callId : String) (t : EndTokens) :
    Learns callId b (handleCallEnded cfg callId t) fun _ => False := by
  refine learns_bind (learns_attempt
    (finalizeCallEnd_learns cfg hunified callId t)) fun _ b₁ _ => ?_
  refine learns_of_free (free_call free_query fun _ s => ?_)
  dsimp only
  split
  · exact markEnded_free callId _
  · refine free_call free_query fun r _ => ?_
    split
    · exact issues_pure ()
    · exact free_call free_query fun r _ => issues_bind
        ((createCall_issues callId).2 ⟨fun _ => rfl, id⟩) fun _ => markEnded_free callId _

theorem handleSessionEnded_learns (hunified : cfg.settlement.unifiedBillingFinalizerEnabled = true)
    (callId : String) (endedAt : Option ℤ) (t : EndTokens) :
    Learns callId b (handleSessionEnded cfg callId endedAt t) fun _ => False := by
  refine learns_bind (learns_attempt
    (finalizeCallEnd_learns cfg hunified callId t)) fun _ b₁ _ => ?_
  refine learns_of_free (free_call free_query fun _ s => ?_)
  dsimp only
  split
  · exact issues_pure ()
  split
  · exact issues_pure ()
  · exact issues_bind (isFree_of_restores dateNow_restores) fun now =>
      free_call (free_saveCall .sessionEnded nofun callId _ _) fun _ _ => issues_pure ()

theorem rejectOverlappingIncomingCallIfNeeded_learns
    (hunified : cfg.settlement.unifiedBillingFinalizerEnabled = true) (callId : String)
    (t : EndTokens) :
    Learns callId b (rejectOverlappingIncomingCallIfNeeded cfg callId t) fun _ => False := by
  refine learns_free_call free_query fun r _ b₁ _ => ?_
  dsimp only
  split
  · exact learns_pure nofun
  refine learns_free_bind (isFree_of_restores (readActiveCallConflict_restores callId _)) fun callerConflict b₂ _ => ?_
  refine learns_free_bind (isFree_of_restores (readActiveCallConflict_restores callId _)) fun creatorConflict b₃ _ => ?_
  split
  · exact learns_pure nofun
  refine learns_free_call ⟨fun _ => trivial, id⟩ fun _ s b₄ _ => ?_
  split
  · exact learns_pure nofun
  · exact learns_bind (learns_attempt
      (finalizeCallEnd_learns cfg hunified callId t)) fun _ b₅ _ => learns_pure nofun

theorem handleCallRinging_learns (hunified : cfg.settlement.unifiedBillingFinalizerEnabled = true)
    (callId : String) (t : EndTokens) :
    Learns callId b (handleCallRinging cfg callId t) fun _ => False := by
  refine learns_free_bind (isFree_of_marks (ensureCallRecordExists_marks callId)) fun _ b₁ _ => ?_
  refine learns_bind (rejectOverlappingIncomingCallIfNeeded_learns cfg hunified callId t)
    fun rejected b₂ _ => ?_
  split
  · exact learns_pure nofun
  refine learns_of_free (free_call free_query fun r _ => ?_)
  dsimp only
  split
  · exact issues_pure ()
  refine free_call free_query fun r _ => ?_
  split
  · exact free_call ⟨fun _ => trivial, id⟩ fun _ _ => issues_pure ()
  · exact isFree_of_marks (markCreatorBusyForCall_marks callId _ .ringing)

theorem routeEvent_learns (hunified : cfg.settlement.unifiedBillingFinalizerEnabled = true)
    (callId : String) (t : EndTokens) (token : String) (w : Webhook) :
    Learns callId b (routeEvent cfg callId t token w) fun _ => False := by
  cases w with
  | ringing => exact handleCallRinging_learns cfg hunified callId t
  | accepted => exact learns_of_free (isFree_of_marks (handleCallAccepted_marks callId))
  | sessionStarted startedAt =>
    exact learns_of_free (handleSessionStarted_free cfg callId startedAt token)
  | sessionEnded endedAt => exact handleSessionEnded_learns cfg hunified callId endedAt t
  | ended => exact handleCallEnded_learns cfg hunified callId t

end ends

def Request.callId : Request → String
  | .webhook callId .. | .explicitEnd callId _ | .finalize callId _ | .transition callId _
  | .upsertCall callId | .start callId .. | .settlement callId _ | .deleteKeys callId _
  | .deadLetterSlot callId _ | .expireSession callId => callId
  | .expireKey _ | .expireSlot _ => ""

/-- **Every request** sets a flag only when it knows of a commit, the handlers' saves apart. -/
theorem program_follows (hunified : cfg.settlement.unifiedBillingFinalizerEnabled = true)
    (q : Request) :
    (program cfg q).Follows videoKnowledge.next (q.callId, false) fun _ _ => True := by
  refine Prog.follows_bind.2 ?_
  have hreturn : ∀ {f : VideoFlow Unit}, (Learns q.callId false f fun _ => False) →
      f.run.Follows videoKnowledge.next (q.callId, false) fun _ φ' =>
        Prog.Follows videoKnowledge.next φ'
          (.ret () : Prog VideoCmd VideoReply VideoStore Unit) fun _ _ => True :=
    fun hf => Prog.Follows.mono hf fun _ _ _ => trivial
  refine hreturn ?_
  cases q with
  | webhook callId w t token => exact routeEvent_learns cfg hunified callId t token w
  | explicitEnd callId t => exact endExplicitly_learns cfg hunified callId t
  | finalize callId t => exact finalizeCallEnd_learns cfg hunified callId t
  | transition callId nextStatus => exact learns_of_free (transitionCallStatusById_free callId _)
  | upsertCall callId =>
    exact learns_of_free (free_call ⟨fun _ => trivial, id⟩ fun _ _ => issues_pure ())
  | start callId token q => exact learns_of_free (onStart_free callId _)
  | settlement callId q =>
    refine learns_onSettlement (Prog.follows_bind.2 (Prog.Follows.mono
      (Settlement.program_learns cfg.settlement hunified q) fun _ φ hφ => ?_))
    exact ⟨rfl, fun hb => hb.elim hφ False.elim⟩
  | deleteKeys callId p =>
    exact learns_of_free (free_call ⟨fun _ => trivial, id⟩ fun _ _ => onStart_free callId _)
  | deadLetterSlot callId uid => exact learns_of_free (isFree_of_restores (clearSlotOfDeadLetter_restores callId uid))
  | expireKey k =>
    exact learns_of_free (free_call ⟨fun _ => trivial, id⟩ fun _ _ => issues_pure ())
  | expireSlot uid =>
    exact learns_of_free (free_call ⟨fun _ => trivial, id⟩ fun _ _ => issues_pure ())
  | expireSession callId =>
    exact learns_of_free (free_call ⟨fun _ => trivial, id⟩ fun _ _ => issues_pure ())

/-! ### What a command does to the flags -/

section store

variable {s : VideoStore} {c : VideoCmd} {r : VideoReply} {callId : String}

theorem committed_exec (h : s.committed callId = true) : (exec c r s).committed callId = true := by
  obtain hs | ⟨-, hs⟩ | ⟨id, l, hs⟩ := exec_cases s c r
  · rw [hs]
    exact h
  · rw [hs]
    cases c with
    | settlement callId' c =>
      cases c with
      | commitSettlement =>
        show Function.update s.committed callId' true callId = true
        rw [Function.update_apply]
        split
        · rfl
        · exact h
      | _ => exact h
    | createCall callId' call | upsertCall callId' =>
      rw [effect, VideoStore.insertCall]
      split <;> exact h
    | rehydrate callId' =>
      rw [effect]
      split <;> exact h
    | start callId' c =>
      cases c with
      | reserve id p =>
        rw [effect, startEffect]
        split <;> exact h
      | billing id c => cases c <;> exact h
      | _ => exact h
    | _ => exact h
  · rw [hs]
    exact h

theorem committed_of_commit (hr : r.delivered = true) :
    (exec (.settlement callId .commitSettlement) r s).committed callId = true := by
  show (if r.delivered = true then effect r s _ else s).committed callId = true
  rw [if_pos hr]
  exact Function.update_self callId true s.committed

theorem recordsSettled_exec
    (h : ((exec c r s).settlement callId).recordsSettled = true) :
    (s.settlement callId).recordsSettled = true ∨
      ∃ c', c = .settlement callId c' ∧ r.delivered = true ∧
        (c'.records = true ∨ c'.isCommit = true) := by
  have hinsert : ∀ (callId' : String) (call : CallDoc),
      ((s.insertCall callId' call).settlement callId).recordsSettled = true →
        (s.settlement callId).recordsSettled = true := by
    intro callId' call h
    rw [VideoStore.insertCall] at h
    split at h
    · exact h
    · replace h : (Function.update s.settlement callId' _ callId).recordsSettled = true := h
      rw [Function.update_apply] at h
      split at h
      · rename_i hid
        subst hid
        exact Settlement.recordsSettled_mono h id id id (fun hcall => by cases hcall) id
      · exact h
  obtain hs | ⟨hr, hs⟩ | ⟨id, l, hs⟩ := exec_cases s c r
  · rw [hs] at h
    exact .inl h
  · rw [hs] at h
    cases c with
    | settlement callId' c =>
      replace h : (Function.update (settlementEffect s callId' c).settlement callId'
        (Settlement.effect r.toSettlement (s.settlement callId') c) callId).recordsSettled = true := h
      rw [Function.update_apply] at h
      split at h
      · rename_i hid
        subst hid
        exact (Settlement.recordsSettled_effect h).imp_right fun hc => ⟨c, rfl, hr, hc⟩
      · refine .inl ?_
        cases c <;> exact h
    | createCall callId' call | upsertCall callId' => exact .inl (hinsert callId' _ h)
    | rehydrate callId' =>
      rw [effect] at h
      split at h <;> exact .inl h
    | start callId' c =>
      refine .inl ?_
      cases c with
      | reserve id p =>
        rw [effect, startEffect] at h
        split at h <;> exact h
      | billing id c => cases c <;> exact h
      | _ => exact h
    | _ => exact .inl h
  · rw [hs] at h
    exact .inl h

theorem hadSession_exec (h : (exec c r s).hadSession callId = true) :
    s.hadSession callId = true ∨ (r.delivered = true ∧
      ((c = .rehydrate callId ∧ s.session callId = none ∧ r.rehydrated.isSome = true) ∨
        ∃ id c', c = .start id (.billing callId c') ∧ storesSession c' = true)) := by
  have hrecord : ∀ id, (s.recordSession id).hadSession callId = true →
      s.hadSession callId = true ∨ id = callId := by
    intro id h
    replace h : Function.update s.hadSession id true callId = true := h
    grind
  obtain hs | ⟨hr, hs⟩ | ⟨id, l, hs⟩ := exec_cases s c r
  · rw [hs] at h
    exact .inl h
  · rw [hs] at h
    cases c with
    | settlement callId' c => exact .inl (by cases c <;> exact h)
    | createCall callId' call | upsertCall callId' =>
      rw [effect, VideoStore.insertCall] at h
      split at h <;> exact .inl h
    | rehydrate callId' =>
      rw [effect] at h
      split at h
      · rename_i call hnone hsome
        obtain h | rfl := hrecord callId' h
        · exact .inl h
        · exact .inr ⟨hr, .inl ⟨rfl, hnone, by rw [hsome]; rfl⟩⟩
      · exact .inl h
    | start callId' c =>
      cases c with
      | reserve id p =>
        rw [effect, startEffect] at h
        split at h <;> exact .inl h
      | billing id c =>
        cases c with
        | persistSession | persistAll =>
          obtain h | rfl := hrecord id h
          · exact .inl h
          · exact .inr ⟨hr, .inr ⟨callId', _, rfl, rfl⟩⟩
        | _ => exact .inl h
      | _ => exact .inl h
    | _ => exact .inl h
  · rw [hs] at h
    exact .inl h

theorem flagged_setCall {callId' : String} {call : Option CallDoc}
    (h : (s.setCall callId' call).Flagged callId) :
    s.Flagged callId ∨ (callId' = callId ∧ ∃ d, call = some d ∧ d.isSettled = true) := by
  rcases h with ⟨d, hd, hsettled⟩ | h
  · replace hd : Function.update s.calls callId' call callId = some d := hd
    rw [Function.update_apply] at hd
    split at hd
    · rename_i hid
      exact .inr ⟨hid.symm, d, hd, hsettled⟩
    · exact .inl (.inl ⟨d, hd, hsettled⟩)
  · exact .inl (.inr h)

theorem flagged_exec (h : (exec c r s).Flagged callId) :
    s.Flagged callId ∨ (r.delivered = true ∧
      ((∃ source loaded call, c = .saveCall source callId loaded call ∧ loaded.isSettled = false ∧
          call.isSettled = true ∧ (s.calls callId).isSome = true) ∨
        (∃ call, c = .createCall callId call ∧ call.isSettled = true) ∨
        c = .setKey (.finalizeDone callId) ∨ c = .claimKey (.finalizeDone callId) ∨
        ∃ version, c = .settlement callId (.markCallSettled version))) := by
  have hkey : ∀ k v, (s.setKey k v).Flagged callId →
      s.Flagged callId ∨ (k = .finalizeDone callId ∧ v = true) := by
    rintro k v (h | h)
    · exact .inl (.inl h)
    · replace h : Function.update s.keys k v (.finalizeDone callId) = true := h
      rw [Function.update_apply] at h
      split at h
      · rename_i hk
        exact .inr ⟨hk.symm, h⟩
      · exact .inl (.inr h)
  have hinsert : ∀ callId' call, (s.insertCall callId' call).Flagged callId →
      s.Flagged callId ∨ (callId' = callId ∧ call.isSettled = true) := by
    intro callId' call h
    rw [VideoStore.insertCall] at h
    split at h
    · exact .inl h
    · replace h : (s.setCall callId' (some call)).Flagged callId := h
      refine (flagged_setCall h).imp_right ?_
      rintro ⟨hid, d, hd, hsettled⟩
      cases hd
      exact ⟨hid, hsettled⟩
  obtain hs | ⟨hr, hs⟩ | ⟨id, l, hs⟩ := exec_cases s c r
  · rw [hs] at h
    exact .inl h
  · rw [hs] at h
    cases c with
    | setKey k =>
      refine (hkey k true h).imp_right fun hk => ⟨hr, ?_⟩
      rw [hk.1]
      exact .inr (.inr (.inl rfl))
    | claimKey k =>
      refine (hkey k true h).imp_right fun hk => ⟨hr, ?_⟩
      simp [hk.1]
    | delKey k | expireKey k =>
      exact (hkey k false h).imp_right fun hk => absurd hk.2 Bool.false_ne_true
    | createCall callId' call =>
      refine (hinsert callId' call h).imp_right ?_
      rintro ⟨rfl, hsettled⟩
      exact ⟨hr, .inr (.inl ⟨call, rfl, hsettled⟩)⟩
    | upsertCall callId' => exact (hinsert callId' _ h).imp_right fun hk => absurd hk.2 Bool.false_ne_true
    | saveCall source callId' loaded call =>
      obtain h | ⟨rfl, d, hd, hsettled⟩ := flagged_setCall h
      · exact .inl h
      · obtain ⟨stored, hstored, rfl⟩ := Option.map_eq_some_iff.1 hd
        replace hsettled : savedField loaded.isSettled call.isSettled stored.isSettled = true :=
          hsettled
        rw [savedField] at hsettled
        split at hsettled
        · exact .inl (.inl ⟨stored, hstored, hsettled⟩)
        · rename_i hne
          have hloaded : loaded.isSettled = false :=
            Bool.eq_false_iff.2 fun hl => hne (hsettled.trans hl.symm)
          exact .inr ⟨hr, .inl ⟨source, loaded, call, rfl, hloaded, hsettled, by rw [hstored]; rfl⟩⟩
    | settlement callId' c =>
      cases c with
      | markCallSettled version =>
        replace h : (s.setCall callId' _).Flagged callId := h
        refine (flagged_setCall h).imp_right ?_
        rintro ⟨rfl, -⟩
        exact ⟨hr, .inr (.inr (.inr (.inr ⟨version, rfl⟩)))⟩
      | _ => exact .inl h
    | rehydrate callId' =>
      rw [effect] at h
      split at h <;> exact .inl h
    | start callId' c =>
      refine .inl ?_
      cases c with
      | reserve id p =>
        rw [effect, startEffect] at h
        split at h <;> exact h
      | billing id c => cases c <;> exact h
      | _ => exact h
    | _ => exact .inl h
  · rw [hs] at h
    exact .inl h

end store

/-! ### Runs -/

section

variable {s : VideoStore} {c : VideoCmd} {r : VideoReply} {callId : String}

theorem flagged_save {source : SaveSource} {loaded call : CallDoc} (hr : r.delivered = true)
    (hloaded : loaded.isSettled = false) (hcall : call.isSettled = true)
    (hsome : (s.calls callId).isSome = true) :
    (exec (.saveCall source callId loaded call) r s).Flagged callId := by
  obtain ⟨stored, hstored⟩ := Option.isSome_iff_exists.1 hsome
  refine .inl ⟨loaded.save call stored, ?_, ?_⟩
  · show (if r.delivered = true then effect r s _ else s).calls callId = _
    rw [if_pos hr]
    show Function.update s.calls callId _ callId = _
    rw [Function.update_self, hstored]
    rfl
  · show savedField loaded.isSettled call.isSettled stored.isSettled = true
    rw [savedField, if_neg (by simp [hloaded, hcall])]
    exact hcall

theorem cautious_of_flagsBacked (h : (exec c r s).FlagsBacked) :
    Cautious ⟨s, c, r, exec c r s⟩ := by
  intro hr
  replace hr : r.delivered = true := hr
  cases c with
  | saveCall source callId loaded call =>
    intro _ hloaded hcall hsome
    have hback := h callId (flagged_save hr hloaded hcall hsome)
    have hexec : exec (.saveCall source callId loaded call) r s =
        effect r s (.saveCall source callId loaded call) := if_pos hr
    rw [hexec] at hback
    exact hback
  | rehydrate callId =>
    intro hnone hsome _ hflagged
    obtain ⟨call, hsome⟩ := Option.isSome_iff_exists.1 hsome
    have hexec : exec (.rehydrate callId) r s =
        (s.setStart (s.start.setSession callId (some call))).recordSession callId := by
      show (if r.delivered = true then effect r s _ else s) = _
      simp_all [effect]
    rw [hexec] at h
    refine (h callId hflagged).resolve_right fun hnever => ?_
    replace hnever : Function.update s.hadSession callId true callId = false := hnever
    simp [Function.update_self] at hnever
  | start id c =>
    cases c with
    | billing callId c =>
      intro hstores _ hflagged
      have hexec : exec (.start id (.billing callId c)) r s =
          effect r s (.start id (.billing callId c)) := if_pos hr
      rw [hexec] at h
      cases c with
      | persistSession | persistAll =>
        refine (h callId hflagged).resolve_right fun hnever => ?_
        replace hnever : Function.update s.hadSession callId true callId = false := hnever
        simp [Function.update_self] at hnever
      | _ => cases hstores
    | _ => trivial
  | _ => trivial

theorem backed_exec (hflags : s.FlagsBacked) (hcautious : Cautious ⟨s, c, r, exec c r s⟩)
    (h : s.Flagged callId) : (exec c r s).Backed callId := by
  rcases hflags callId h with hcommitted | hnever
  · exact .inl (committed_exec hcommitted)
  by_cases hhad : (exec c r s).hadSession callId = true
  · obtain hbefore | ⟨hr, ⟨rfl, hnone, hsome⟩ | ⟨id, c', rfl, hstores⟩⟩ := hadSession_exec hhad
    · simp [hnever] at hbefore
    · exact .inl (committed_exec (hcautious hr hnone hsome hnever h))
    · exact .inl (committed_exec (hcautious hr hstores hnever h))
  · exact .inr (Bool.eq_false_iff.2 hhad)

theorem backed_of_newFlag {callId' : String} (hallows : videoKnowledge.allows callId' c)
    (hneeds : videoKnowledge.needs c → s.committed callId' = true)
    (hcautious : Cautious ⟨s, c, r, exec c r s⟩) (hr : r.delivered = true)
    (h : (∃ source loaded call, c = .saveCall source callId loaded call ∧
        loaded.isSettled = false ∧ call.isSettled = true ∧ (s.calls callId).isSome = true) ∨
      (∃ call, c = .createCall callId call ∧ call.isSettled = true) ∨
      c = .setKey (.finalizeDone callId) ∨ c = .claimKey (.finalizeDone callId) ∨
      ∃ version, c = .settlement callId (.markCallSettled version)) :
    (exec c r s).Backed callId := by
  obtain ⟨source, loaded, call, rfl, hloaded, hcall, hsome⟩ | ⟨call, rfl, hcall⟩ | rfl | rfl |
    ⟨version, rfl⟩ := h
  · by_cases hsource : source = .finalizer
    · subst hsource
      obtain rfl : callId = callId' := hallows
      exact .inl (committed_exec (hneeds ⟨hloaded, hcall⟩))
    · have hexec : exec (.saveCall source callId loaded call) r s =
          effect r s (.saveCall source callId loaded call) := if_pos hr
      rw [hexec]
      exact hcautious hr hsource hloaded hcall hsome
  · simp [show call.isSettled = false from hallows] at hcall
  · obtain rfl : callId = callId' := hallows
    exact .inl (committed_exec (hneeds trivial))
  · exact hallows.elim
  · obtain rfl : callId = callId' := hallows
    exact .inl (committed_exec (hneeds rfl))

theorem committed_of_shows (hrecords : ∀ callId, (s.settlement callId).recordsSettled = true →
    s.committed callId = true) (hallows : videoKnowledge.allows callId c)
    (hshows : videoKnowledge.shows callId c r s = true) :
    (exec c r s).committed callId = true := by
  cases c with
  | settlement callId' c =>
    obtain rfl : callId' = callId := hallows
    rcases (Bool.or_eq_true _ _).mp hshows with hs | hs
    · exact committed_exec (hrecords callId' hs)
    · obtain ⟨hc, hr⟩ := (Bool.and_eq_true _ _).mp hs
      rw [Settlement.eq_commit_of_isCommit hc]
      exact committed_of_commit hr
  | _ => cases hshows

end

structure FlagsSound (s : VideoStore) : Prop where
  records : ∀ callId, (s.settlement callId).recordsSettled = true → s.committed callId = true
  flags : s.FlagsBacked

/-- **Every flag is backed** in the runs whose handlers are cautious, and in no others. -/
theorem flagsBacked_iff_cautious {cfg : VideoConfig} {s : VideoStore}
    (hunified : cfg.settlement.unifiedBillingFinalizerEnabled = true) (h₀ : FlagsSound s)
    (ms : List (Move Request VideoReply)) :
    (∀ e ∈ (runOf cfg s ms).log, e.after.FlagsBacked) ↔
      ∀ e ∈ (runOf cfg s ms).log, Cautious e := by
  constructor
  · intro h e he
    obtain ⟨t, c, r, t'⟩ := e
    obtain rfl : t' = exec c r t := Pool.log_sem s ms _ he
    exact cautious_of_flagsBacked (h _ he)
  · intro hcautious
    let J : List VideoEvent → VideoStore → Prop := fun l t =>
      FlagsSound t ∧ ∀ e ∈ l, e.after.FlagsBacked
    have hrun : J (runOf cfg s ms).log (runOf cfg s ms).store := by
      refine Pool.play_knowledge (fun callId t => t.committed callId = true) J Cautious
        (program_follows cfg hunified) ⟨h₀, fun _ he => nomatch he⟩
        (fun callId c r t => committed_exec)
        (fun l callId c r t hJ => committed_of_shows hJ.1.records) ?_ ms hcautious
      rintro l callId c r t ⟨hsound, hlog⟩ hallows hneeds he
      have hflags : (exec c r t).FlagsBacked := by
        intro callId' h
        obtain h | ⟨hr, hnew⟩ := flagged_exec h
        · exact backed_exec hsound.flags he h
        · exact backed_of_newFlag hallows hneeds he hr hnew
      have hrecords : ∀ callId', ((exec c r t).settlement callId').recordsSettled = true →
          (exec c r t).committed callId' = true := by
        intro callId' h
        obtain h | ⟨c', rfl, hr, hc | hc⟩ := recordsSettled_exec h
        · exact committed_exec (hsound.records callId' h)
        · obtain rfl : callId' = callId := hallows
          exact committed_exec (hneeds hc)
        · rw [Settlement.eq_commit_of_isCommit hc]
          exact committed_of_commit hr
      refine ⟨⟨hrecords, hflags⟩, fun e he => ?_⟩
      rcases mem_snoc.1 he with he | rfl
      · exact hlog e he
      · exact hflags
    exact hrun.2

/-! ### A sample run -/

theorem freshVideo_flagsSound : FlagsSound freshVideo where
  records callId h := nomatch h
  flags callId h := by
    rcases h with ⟨call, hcall, -⟩ | h
    · cases hcall
    · cases h

/-- `call.ended` of a call whose session is rebuilt and whose settlement has to be retried. -/
def sampleUnsettled : List (Move Request VideoReply) :=
  .spawn (.upsertCall "call") :: .spawn (.webhook "call" .ended sampleTokens "token") ::
    (steps 0 1 ++ List.replicate 60 (.step 1 { sampleAnswer with rehydrated := some sampleSession }))

theorem flagsBacked_sample :
    (∀ e ∈ (runOf sampleVideoConfig freshVideo sampleUnsettled).log, e.after.FlagsBacked) ↔
      ∀ e ∈ (runOf sampleVideoConfig freshVideo sampleUnsettled).log, Cautious e :=
  flagsBacked_iff_cautious rfl freshVideo_flagsSound sampleUnsettled

theorem not_flagsBacked_of_flag {log : List VideoEvent} {callId : String}
    (h : log.any (fun e => (e.after.calls callId).any (·.isSettled) && !e.after.committed callId &&
      e.after.hadSession callId) = true) : ¬ ∀ e ∈ log, e.after.FlagsBacked := by
  intro hbacked
  obtain ⟨e, he, hflag⟩ := List.any_eq_true.1 h
  simp only [Bool.and_eq_true, Bool.not_eq_true'] at hflag
  obtain ⟨⟨hsettled, hcommitted⟩, hhad⟩ := hflag
  obtain ⟨call, hcall, hcallSettled⟩ := (Option.any_eq_true _ _).1 hsettled
  rcases hbacked e he callId (.inl ⟨call, hcall, hcallSettled⟩) with h | h
  · simp [hcommitted] at h
  · simp [hhad] at h

/-- The handler saves the flag although the finalizer returned `pending_retry`. -/
theorem flag_without_settlement :
    ¬ ∀ e ∈ (runOf sampleVideoConfig freshVideo sampleUnsettled).log, e.after.FlagsBacked := by
  refine @not_flagsBacked_of_flag _ "call" ?_
  decide +kernel

end VibemeetBackend.Video
