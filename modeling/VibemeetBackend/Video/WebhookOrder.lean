import VibemeetBackend.Async.Served
import VibemeetBackend.Async.Trace
import VibemeetBackend.Video.Commands
import VibemeetBackend.Video.StatusAbsorbing

/-!
# The order of a call's webhooks

The webhooks of a call are delivered in any order.  Once all of them are handled and its settlement has
succeeded, the call should have let go of its creator, its session and its status.  A late webhook of
the beginning marks the creator busy, takes the flag back and starts billing without asking whether
the call is over.
-/

namespace VibemeetBackend.Video

open Async Flow Billing ActiveCall
open EndedCall (callpairKey)

abbrev Handled : Type := Request × List VideoReply

def handle (cfg : VideoConfig) (s : VideoStore) (x : Handled) : VideoStore :=
  ((program cfg x.1).exec exec x.2 s).1

/-- Every command takes effect and is answered, and the creator is known. -/
structure Served (uid : String) (r : VideoReply) : Prop where
  ok : r.ok = true
  creatorUid : r.creatorUid = some uid
  participants : ∃ p, r.participants = some p ∧ p.creatorUid = uid

def HandledWell (cfg : VideoConfig) (uid : String) (e : VideoStore × Handled) : Prop :=
  (∀ r ∈ e.2.2, Served uid r) ∧ ((program cfg e.2.1).exec exec e.2.2 e.1).2 = some ()

def VideoStore.HasCall (s : VideoStore) (callId : String) : Prop := (s.calls callId).isSome = true

def VideoStore.Marked (s : VideoStore) (callId : String) (phase : BusyPhase) : Prop :=
  s.HasCall callId ∧ s.keys (.busyPhase callId phase) = true

namespace Request

def webhookOf (callId : String) : Request → Option Webhook
  | .webhook id w _ _ => if id = callId then some w else none
  | _ => none

def CleansUp (callId uid : String) : Request → Prop
  | .deleteKeys id p => id = callId ∧ p.2 = uid
  | _ => False

def OfCall (callId uid : String) (q : Request) : Prop :=
  match q with
  | .webhook id .. | .settlement id _ => id = callId
  | _ => q.CleansUp callId uid

def Ends (callId : String) (q : Request) : Prop :=
  match q.webhookOf callId with
  | some (.sessionEnded _) | some .ended => True
  | _ => False

def StartsSession (callId : String) (q : Request) : Prop :=
  match q.webhookOf callId with
  | some (.sessionStarted _) => True
  | _ => False

/-- A webhook of the beginning that marks the creator busy or starts the session. -/
def Begins (callId : String) (s : VideoStore) (q : Request) : Prop :=
  match q.webhookOf callId with
  | some .ringing => ¬ s.Marked callId .ringing
  | some .accepted => ¬ s.Marked callId .accepted
  | some (.sessionStarted _) => True
  | _ => False

end Request

abbrev stepsOf (cfg : VideoConfig) (s : VideoStore) (order : List Handled) :
    List (VideoStore × Handled) := stepLog (handle cfg) s order

/-- The life of a call: each of its webhooks is handled to its end, in some order, with the steps of
its settlement anywhere, and the settlement is cleaned up. -/
structure Lifecycle (cfg : VideoConfig) (callId uid : String) (s : VideoStore)
    (order : List Handled) : Prop where
  ofCall : ∀ x ∈ order, x.1.OfCall callId uid
  handled : ∀ e ∈ stepsOf cfg s order, HandledWell cfg uid e
  ringing : ∃ x ∈ order, x.1.webhookOf callId = some .ringing
  accepted : ∃ x ∈ order, x.1.webhookOf callId = some .accepted
  sessionStarted : ∃ x ∈ order, ∃ d, x.1.webhookOf callId = some (.sessionStarted d)
  sessionEnded : ∃ x ∈ order, ∃ d, x.1.webhookOf callId = some (.sessionEnded d)
  ended : ∃ x ∈ order, x.1.webhookOf callId = some .ended
  cleanedUp : ∃ x ∈ order, x.1.CleansUp callId uid

structure Final (callId uid : String) (s : VideoStore) : Prop where
  slot : s.slot uid ≠ some callId
  session : ∀ c, s.session callId = some c → isNonTerminalLifecycle c.lifecycleState = false
  call : ∃ call, s.calls callId = some call ∧ call.status = .ended ∧ call.isSettled = true

/-- After the last webhook of the beginning comes an end that is not only logged, or the clean-up;
after the last `session_started` come an end and the clean-up, and no session is rebuilt after that. -/
structure Ordered (cfg : VideoConfig) (callId uid : String) (s : VideoStore)
    (order : List Handled) : Prop where
  slot : ∃ l x l', order = l ++ x :: l' ∧
    (x.1.Ends callId ∧ cfg.finalizerLogOnly = false ∨ x.1.CleansUp callId uid) ∧
    ∀ e ∈ stepsOf cfg (runFrom (handle cfg) s (l ++ [x])) l', ¬ e.2.1.Begins callId e.1
  session : ∃ l x l', order = l ++ x :: l' ∧ x.1.CleansUp callId uid ∧
    ∀ y ∈ l', ¬ y.1.StartsSession callId ∧ ∀ r ∈ y.2, r.rehydrated = none
  settled : ∃ l x l', order = l ++ x :: l' ∧ x.1.Ends callId ∧ ∀ y ∈ l', ¬ y.1.StartsSession callId

/-! ### What a command keeps -/

section store

variable {s : VideoStore} {c : VideoCmd} {r : VideoReply} {callId uid : String}

def VideoStore.EndedCall (s : VideoStore) (callId : String) : Prop :=
  s.statusOf callId = some .ended

def VideoStore.SettledCall (s : VideoStore) (callId : String) : Prop :=
  ∃ call, s.calls callId = some call ∧ call.isSettled = true

theorem hasCall_iff : s.HasCall callId ↔ ∃ status, s.statusOf callId = some status := by
  rw [VideoStore.HasCall, VideoStore.statusOf, ← Option.isSome_iff_exists, Option.isSome_map]

theorem hasCall_exec (h : s.HasCall callId) : (exec c r s).HasCall callId := by
  rw [hasCall_iff] at h ⊢
  obtain ⟨status, h⟩ := h
  obtain h' | ⟨_, _, call, _, _, _, h'⟩ := statusOf_exec (r := r) (c := c) h
  · exact ⟨status, h'⟩
  · exact ⟨call.status, h'⟩

theorem endedCall_exec (h : s.EndedCall callId)
    (hsave : ∀ source loaded call, c = .saveCall source callId loaded call →
      call.status = .ended ∨ call.status = loaded.status) : (exec c r s).EndedCall callId := by
  obtain h' | ⟨source, loaded, call, hc, -, hne, h'⟩ := statusOf_exec (r := r) (c := c) h
  · exact h'
  · rcases hsave source loaded call hc with hended | hsame
    · rw [hended] at h'
      exact h'
    · exact absurd hsame hne

variable {callId' : String}

theorem calls_insertCall {call d : CallDoc} (h : s.calls callId = some d) :
    (s.insertCall callId' call).calls callId = some d := by
  rw [VideoStore.insertCall]
  split
  · exact h
  · rename_i hnone
    show Function.update s.calls callId' (some call) callId = some d
    rw [Function.update_apply, if_neg]
    · exact h
    · rintro rfl
      exact hnone (by rw [h]; rfl)

theorem settledCall_exec (h : s.SettledCall callId)
    (hsave : ∀ source loaded call, c = .saveCall source callId loaded call →
      call.isSettled = true ∨ call.isSettled = loaded.isSettled) :
    (exec c r s).SettledCall callId := by
  obtain ⟨d, hd, hsettled⟩ := h
  have hset : ∀ callId' (f : CallDoc → CallDoc),
      (callId' = callId → (f d).isSettled = true) →
        (s.setCall callId' ((s.calls callId').map f)).SettledCall callId := by
    intro callId' f hf
    by_cases hid : callId' = callId
    · subst hid
      refine ⟨f d, ?_, hf rfl⟩
      show Function.update s.calls callId' _ callId' = _
      rw [Function.update_self, hd]
      rfl
    · refine ⟨d, ?_, hsettled⟩
      show Function.update s.calls callId' _ callId = some d
      rw [Function.update_of_ne (Ne.symm hid)]
      exact hd
  obtain hs | ⟨hr, hs⟩ | ⟨id, l, hs⟩ := exec_cases s c r
  · rw [hs]
    exact ⟨d, hd, hsettled⟩
  · rw [hs]
    cases c with
    | createCall callId' call | upsertCall callId' => exact ⟨d, calls_insertCall hd, hsettled⟩
    | saveCall source callId' loaded call =>
      refine hset callId' (loaded.save call) ?_
      rintro rfl
      show savedField loaded.isSettled call.isSettled d.isSettled = true
      grind [savedField]
    | settlement callId' c =>
      cases c with
      | markCallSettled version => exact hset callId' _ fun _ => rfl
      | _ => exact ⟨d, hd, hsettled⟩
    | rehydrate callId' =>
      rw [effect]
      split <;> exact ⟨d, hd, hsettled⟩
    | start callId' c =>
      cases c with
      | reserve id p =>
        rw [effect, startEffect]
        split <;> exact ⟨d, hd, hsettled⟩
      | billing id c => cases c <;> exact ⟨d, hd, hsettled⟩
      | _ => exact ⟨d, hd, hsettled⟩
    | _ => exact ⟨d, hd, hsettled⟩
  · rw [hs]
    exact ⟨d, hd, hsettled⟩

theorem slot_ends (h : s.slot uid ≠ some callId) (hc : Ends callId' c) :
    (exec c r s).slot uid ≠ some callId := by
  obtain hs | ⟨hr, hs⟩ | ⟨id, l, hs⟩ := exec_cases s c r
  · rw [hs]
    exact h
  · rw [hs]
    cases c with
    | delSlot source id uid' =>
      show (s.start.setSlot uid' none).slots uid ≠ some callId
      rw [ActiveCallStore.slots_setSlot]
      split
      · exact nofun
      · exact h
    | setSlot | start | upsertCall | expireKey | expireSlot =>
      rcases hc with hc | hc <;> exact hc.elim
    | createCall id call =>
      rw [effect, VideoStore.insertCall]
      split <;> exact h
    | rehydrate id =>
      rw [effect]
      split <;> exact h
    | settlement id c => cases c <;> exact h
    | _ => exact h
  · rw [hs]
    exact h

theorem session_commands (h : s.session callId = none) (hr : r.rehydrated = none)
    (hc : Ends callId' c ∨ Marks callId' c) : (exec c r s).session callId = none := by
  obtain hs | ⟨-, hs⟩ | ⟨id, l, hs⟩ := exec_cases s c r
  · rw [hs]
    exact h
  · rw [hs]
    cases c with
    | start | upsertCall | expireKey | expireSlot =>
      rcases hc with (hc | hc) | hc <;> exact hc.elim
    | createCall id call =>
      rw [effect, VideoStore.insertCall]
      split <;> exact h
    | rehydrate id =>
      rw [effect, hr]
      split
      · rename_i hnone
        cases hnone
      · exact h
    | settlement id c => cases c <;> exact h
    | _ => exact h
  · rw [hs]
    exact h

end store

variable {c : VideoCmd} {r : VideoReply} {I : VideoStore → Prop} {id : String}
  {G : VideoReply → Prop} {flow : VideoFlow Unit}

/-! ### What the webhooks keep -/

section keep

variable {cfg : VideoConfig} {s : VideoStore} {callId uid : String} {α : Type} {p : VideoFlow α}

theorem handle_of_ensures {q : Request} {rs : List VideoReply}
    (hprogram : program cfg q = flow.run >>= fun _ => .ret ())
    (hflow : flow.Ensures exec G (fun _ t => I t) (fun _ t => I t) s) (hrs : ∀ r ∈ rs, G r)
    (hreturn : ((program cfg q).exec exec rs s).2 = some ()) : I (handle cfg s (q, rs)) := by
  have h : (program cfg q).Ensures exec G (fun _ t => I t) s := by
    rw [hprogram]
    refine Prog.ensures_bind.2 (Prog.Ensures.mono hflow fun x t hx => ?_)
    cases x with
    | _ => exact hx
  exact Prog.exec_of_ensures h hrs hreturn

theorem ensures_ends (hp : IssuesOnly (Ends callId) p)
    (hI : ∀ c r t, Ends callId c → G r → I t → I (exec c r t)) (hs : I s) :
    p.Ensures exec G (fun _ t => I t) (fun _ t => I t) s :=
  ensures_of_issues (Prog.Issues.mono_inv hp fun _ _ => trivial) hI hs

/-! ### What the webhooks bring about -/

theorem exec_served (hr : Served uid r) (hc : ∀ id c', c ≠ .start id c') :
    exec c r s = effect r s c := by
  have hdelivered : r.delivered = true := ((Bool.and_eq_true _ _).mp hr.ok).1
  cases c with
  | start id c' => exact absurd rfl (hc id c')
  | _ => exact if_pos hdelivered

theorem served_call {ok : VideoReply → Bool} {err : String}
    {f : VideoReply × VideoStore → VideoFlow α} {Q : α → VideoStore → Prop}
    {E : String → VideoStore → Prop} (hok : ∀ r, VideoReply.ok r = true → ok r = true)
    (h : ∀ r, Served uid r → (f (r, s)).Ensures exec (Served uid) Q E (exec c r s)) :
    (call ok err c >>= f).Ensures exec (Served uid) Q E s :=
  ensures_call_bind (fun r hr => hok r hr.ok) h

theorem exec_query (r : VideoReply) (s : VideoStore) : exec .query r s = s := by
  show (if r.delivered = true then s else s) = s
  split <;> rfl

theorem exec_readSlot (uid : String) (r : VideoReply) (s : VideoStore) :
    exec (.readSlot uid) r s = s := by
  show (if r.delivered = true then s else s) = s
  split <;> rfl

def VideoStore.LetGo (callId uid : String) (s : VideoStore) : Prop := s.slot uid ≠ some callId

theorem letGo_ends (hp : IssuesOnly (Ends callId) p) (hs : s.LetGo callId uid) :
    p.Ensures exec (Served uid) (fun _ t => t.LetGo callId uid) (fun _ t => t.LetGo callId uid) s :=
  ensures_ends hp (fun _ _ _ hc _ ht => slot_ends ht hc) hs

theorem letGo_delSlot (hr : Served uid r) :
    (exec (.delSlot .stale callId uid) r s).LetGo callId uid := by
  rw [exec_served hr (by intro _ _ h; cases h)]
  show (s.start.setSlot uid none).slots uid ≠ some callId
  simp [ActiveCallStore.slots_setSlot]

theorem clearCreatorActiveCallSlotIfStale_letGo :
    (clearCreatorActiveCallSlotIfStale cfg callId uid (some callId)).Ensures exec (Served uid)
      (fun _ t => t.LetGo callId uid) (fun _ t => t.LetGo callId uid) s := by
  refine served_call (fun _ h => h) fun r₀ hr₀ => ?_
  rw [exec_readSlot]
  dsimp only
  split
  · rename_i hslot
    exact ensures_pure fun h => nomatch hslot.symm.trans h
  rename_i slotCallId hslot
  split
  · exact served_call (fun _ _ => rfl) fun r₁ hr₁ => ensures_pure (letGo_delSlot hr₁)
  · rename_i hne
    -- the slot names another call
    have hletGo : s.LetGo callId uid := fun h => hne (h.symm.trans hslot)
    refine letGo_ends (issuesOnly_ends callId (issues_bind
      (isCreatorActiveCallSlotLive_restores cfg _ uid) fun live => ?_)) hletGo
    simp [Restores, quiet]

theorem restoreAvailability_letGo :
    (restoreAvailability cfg callId uid).Ensures exec (Served uid)
      (fun _ t => t.LetGo callId uid) (fun _ t => t.LetGo callId uid) s := by
  obtain ⟨rest, hrestore, hrest⟩ := restoreAvailability_bind cfg callId uid
  rw [hrestore]
  refine served_call (fun _ h => h) fun r _ => ensures_bind ?_
  exact clearCreatorActiveCallSlotIfStale_letGo.mono
    (fun result t ht => letGo_ends (issuesOnly_ends callId (hrest _ result)) ht) fun _ _ he => he

theorem finalizeCreatorAvailabilityForCall_letGo :
    (finalizeCreatorAvailabilityForCall cfg callId).Ensures exec (Served uid)
      (fun _ t => t.LetGo callId uid) (fun _ t => t.LetGo callId uid) s := by
  refine ensures_tryCatch (Ensures.mono (E := fun _ t => t.LetGo callId uid) ?_
    (fun _ _ ha => ha) fun _ _ he => ensures_pure he)
  refine served_call (fun _ h => h) fun r hr => ?_
  dsimp only
  rw [hr.creatorUid]
  exact restoreAvailability_letGo

theorem restoreCreatorPresenceForEndedCall_letGo (hs : s.HasCall callId) :
    (restoreCreatorPresenceForEndedCall cfg callId).Ensures exec (Served uid)
      (fun _ t => t.LetGo callId uid) (fun _ t => t.LetGo callId uid) s := by
  refine served_call (fun _ h => h) fun r hr => ?_
  dsimp only
  rw [if_pos (show (s.calls callId).isSome = true from hs)]
  exact finalizeCreatorAvailabilityForCall_letGo

theorem finalizeLocked_letGo (hs : s.HasCall callId) (t : EndTokens) :
    (finalizeLocked cfg callId t).Ensures exec (Served uid)
      (fun _ t => t.LetGo callId uid) (fun _ t => t.LetGo callId uid) s := by
  refine served_call (fun _ h => h) fun r hr => ?_
  dsimp only
  split
  · rename_i call _
    obtain ⟨rest, hcall, hrest⟩ := finalizeCall_bind cfg callId t call
    rw [hcall]
    exact ensures_bind (finalizeCreatorAvailabilityForCall_letGo.mono
      (fun _ t ht => letGo_ends (hrest ()) ht) fun _ _ he => he)
  · rename_i hnone
    simp [VideoStore.HasCall, hnone] at hs

/-- **An end lets go of the creator** of a call with a record. -/
theorem finalizeCallEnd_letGo (hmode : cfg.finalizerLogOnly = false) (hs : s.HasCall callId)
    (t : EndTokens) :
    (finalizeCallEnd cfg callId t).Ensures exec (Served uid)
      (fun _ t => t.LetGo callId uid) (fun _ t => t.LetGo callId uid) s := by
  have hrestore : ∀ s' : VideoStore, s'.HasCall callId → (do
      let _ ← attempt (restoreCreatorPresenceForEndedCall cfg callId)
      pure () : VideoFlow Unit).Ensures exec (Served uid)
        (fun _ t => t.LetGo callId uid) (fun _ t => t.LetGo callId uid) s' := fun s' hs' =>
    ensures_bind (ensures_attempt ((restoreCreatorPresenceForEndedCall_letGo hs').mono
      (fun _ _ ht => ensures_pure ht) fun _ _ ht => ensures_pure ht))
  rw [finalizeCallEnd, hmode, if_neg Bool.false_ne_true]
  refine served_call (fun _ h => h) fun r hr => ?_
  rw [exec_query]
  dsimp only
  split
  · exact hrestore s hs
  refine served_call (fun _ h => h) fun r hr => ?_
  have hs' := hasCall_exec (c := .claimKey (.finalizeLock callId)) (r := r) hs
  split
  · exact hrestore _ hs'
  · have hrelease : ∀ (result : Except String Unit) (t' : VideoStore), t'.LetGo callId uid → (do
        let _ ← quiet (.delKey (.finalizeLock callId))
        ExceptT.mk (pure result) : VideoFlow Unit).Ensures exec (Served uid)
          (fun _ t => t.LetGo callId uid) (fun _ t => t.LetGo callId uid) t' := fun result t' ht' =>
      letGo_ends (issuesOnly_call (.inr rfl) fun _ _ => by cases result <;> trivial) ht'
    exact ensures_bind (ensures_attempt ((finalizeLocked_letGo hs' t).mono
      (fun _ t' ht' => hrelease _ t' ht') fun _ t' ht' => hrelease _ t' ht'))

theorem calls_saveCall (hr : Served uid r) {source : SaveSource} {call saved : CallDoc}
    (h : s.calls callId = some call) :
    (exec (.saveCall source callId call saved) r s).calls callId = some saved := by
  rw [exec_served hr (by intro _ _ h; cases h)]
  show Function.update s.calls callId ((s.calls callId).map (call.save saved)) callId = some saved
  rw [Function.update_self, h, Option.map_some, CallDoc.save_self]

theorem markEnded_finishes {call : CallDoc} (h : s.calls callId = some call) :
    (markEnded callId call).Ensures exec (Served uid)
      (fun _ t => t.EndedCall callId ∧ t.SettledCall callId) (fun _ _ => False) s := by
  refine ensures_bind (served_call (fun _ _ => rfl) fun r₁ _ => ensures_pure ?_)
  rw [exec_query]
  refine served_call (fun _ h => h) fun r₂ hr₂ => ensures_pure ?_
  let saved : CallDoc := { transitionCallStatus r₁.now .ended call with isSettled := true }
  have hsaved : (exec (.saveCall .callEnded callId call saved) r₂ s).calls callId = some saved :=
    calls_saveCall hr₂ h
  refine ⟨?_, _, hsaved, rfl⟩
  rw [VideoStore.EndedCall, VideoStore.statusOf, hsaved]
  exact congrArg some (transitionCallStatus_status r₁.now .ended call)

theorem endCall_finishes (s : VideoStore) :
    (do
      let (_, s) ← run .query
      match s.calls callId with
      | some call => markEnded callId call
      | none => do
        let (r, _) ← run .query
        match r.participants with
        | none => pure ()
        | some _ => do
          let (r, _) ← run .query
          createCall callId (newCall .accepted r.price)
          markEnded callId (newCall .accepted r.price) : VideoFlow Unit).Ensures exec (Served uid)
      (fun _ t => t.EndedCall callId ∧ t.SettledCall callId) (fun _ _ => False) s := by
  refine served_call (fun _ h => h) fun r₁ _ => ?_
  rw [exec_query]
  dsimp only
  split
  · rename_i call hcall
    exact markEnded_finishes hcall
  · rename_i hnone
    refine served_call (fun _ h => h) fun r₂ hr₂ => ?_
    rw [exec_query]
    obtain ⟨p, hp, -⟩ := hr₂.participants
    rw [hp]
    refine served_call (fun _ h => h) fun r₃ _ => ?_
    rw [exec_query]
    refine ensures_bind (served_call (fun _ h => h) fun r₄ hr₄ => ?_)
    dsimp only
    rw [if_neg (by simp [hnone])]
    refine ensures_pure (markEnded_finishes ?_)
    rw [exec_served hr₄ (by intro _ _ h; cases h), effect, VideoStore.insertCall,
      if_neg (by simp [hnone])]
    exact Function.update_self callId _ s.calls

/-- **`handleCallEnded`** ends and settles the call, whatever it finds. -/
theorem handleCallEnded_finishes (t : EndTokens) :
    (handleCallEnded cfg callId t).Ensures exec (Served uid)
      (fun _ t => t.EndedCall callId ∧ t.SettledCall callId) (fun _ _ => False) s :=
  ensures_bind (ensures_attempt ((ensures_any _).mono
    (fun _ s' _ => endCall_finishes s') fun _ s' _ => endCall_finishes s'))

theorem settleSession_settles (hs : s.HasCall callId) (endedAt : Option ℤ) :
    (do
      let (_, s) ← run .query
      match s.calls callId with
      | none => pure ()
      | some call =>
        if call.isSettled = true then pure ()
        else do
          let now ← dateNow
          let _ ← run (.saveCall .sessionEnded callId call (endSession now endedAt call))
          pure () : VideoFlow Unit).Ensures exec (Served uid)
      (fun _ t => t.SettledCall callId) (fun _ _ => False) s := by
  refine served_call (fun _ h => h) fun r₁ _ => ?_
  rw [exec_query]
  dsimp only
  split
  · rename_i hnone
    simp [VideoStore.HasCall, hnone] at hs
  · rename_i call hcall
    split
    · rename_i hsettled
      exact ensures_pure ⟨call, hcall, hsettled⟩
    · refine ensures_bind (served_call (fun _ _ => rfl) fun r₂ _ => ensures_pure ?_)
      rw [exec_query]
      exact served_call (fun _ h => h) fun r₃ hr₃ => ensures_pure
        ⟨_, calls_saveCall hr₃ hcall, rfl⟩

/-- **`handleSessionEnded`** settles a call with a record. -/
theorem handleSessionEnded_settles (hs : s.HasCall callId) (endedAt : Option ℤ) (t : EndTokens) :
    (handleSessionEnded cfg callId endedAt t).Ensures exec (Served uid)
      (fun _ t => t.SettledCall callId) (fun _ _ => False) s := by
  have hkeep := ensures_ends (G := Served uid) (I := fun s' => s'.HasCall callId)
    (finalizeCallEnd_ends cfg callId t) (fun _ _ _ _ _ ht => hasCall_exec ht) hs
  exact ensures_bind (ensures_attempt (hkeep.mono
    (fun _ s' hs' => settleSession_settles hs' endedAt)
    fun _ s' hs' => settleSession_settles hs' endedAt))

/-- **A webhook of the end lets go of the creator** of a call with a record. -/
theorem endsFirst_letGo (hmode : cfg.finalizerLogOnly = false) (hs : s.HasCall callId)
    {t : EndTokens} {p : VideoFlow Unit} (hp : EndsFirst cfg callId t p) :
    p.Ensures exec (Served uid) (fun _ t => t.LetGo callId uid) (fun _ t => t.LetGo callId uid) s := by
  obtain ⟨rest, rfl, hrest⟩ := hp
  exact ensures_bind (ensures_attempt ((finalizeCallEnd_letGo hmode hs t).mono
    (fun _ t' ht' => letGo_ends (hrest _) ht') fun _ t' ht' => letGo_ends (hrest _) ht'))

theorem ensureCallRecordExists_hasCall :
    (ensureCallRecordExists callId).Ensures exec (Served uid)
      (fun _ t => t.HasCall callId) (fun _ t => t.HasCall callId) s := by
  refine served_call (fun _ h => h) fun r₁ _ => ?_
  rw [exec_query]
  dsimp only
  split
  · rename_i hcall
    exact ensures_pure hcall
  · rename_i hnone
    refine served_call (fun _ h => h) fun r₂ hr₂ => ?_
    rw [exec_query]
    obtain ⟨p, hp, -⟩ := hr₂.participants
    rw [hp]
    have hmark : ∀ s' : VideoStore, s'.HasCall callId →
        (markCreatorBusyForCall callId p.creatorUid .ringing).Ensures exec (Served uid)
          (fun _ t => t.HasCall callId) (fun _ t => t.HasCall callId) s' := fun s' hs' =>
      ensures_of_issues (P := fun _ => True)
        (Prog.issues_of_forall (fun _ => trivial) _) (fun _ _ _ _ _ ht => hasCall_exec ht) hs'
    have hcreated : ∀ r₃ : VideoReply, Served uid r₃ → ∀ call,
        (exec (.createCall callId call) r₃ s).HasCall callId := by
      intro r₃ hr₃ call
      rw [exec_served hr₃ (by intro _ _ h; cases h), effect, VideoStore.insertCall, if_neg hnone]
      show (Function.update s.calls callId (some call) callId).isSome = true
      rw [Function.update_self]
      rfl
    refine ensures_bind (ensures_attempt (served_call (fun _ h => h) fun r₃ hr₃ => ?_))
    rw [exec_query]
    refine served_call (fun _ h => h) fun r₄ hr₄ => ?_
    dsimp only
    rw [if_neg hnone]
    exact hmark _ (hcreated r₄ hr₄ _)

theorem handleSessionStarted_hasCall (startedAt : Option ℤ) (token : String) :
    (handleSessionStarted cfg callId startedAt token).Ensures exec (Served uid)
      (fun _ t => t.HasCall callId) (fun _ t => t.HasCall callId) s := by
  obtain ⟨rest, hrest⟩ : ∃ rest, handleSessionStarted cfg callId startedAt token =
      (ensureCallRecordExists callId >>= rest) := ⟨_, rfl⟩
  refine ensures_bind (ensureCallRecordExists_hasCall.mono (fun x t ht => ?_) fun _ _ ht => ht)
  exact ensures_of_issues (P := fun _ => True)
    (Prog.issues_of_forall (fun _ => trivial) _) (fun _ _ _ _ _ ht' => hasCall_exec ht') ht

/-! ### The clean-up -/

theorem onStart_run_bind {c : ActiveCallCmd}
    {f : ActiveCallReply × ActiveCallStore → ActiveCallFlow α} :
    onStart callId (ActiveCall.run c >>= f) =
      (run (.start callId c) >>= fun x => onStart callId (f (x.1.toActive, x.2.start))) := by
  show Prog.act _ _ = Prog.act _ _
  congr 1
  funext r s
  show Prog.focus _ _ _ (ExceptT.bindCont f (if ActiveCallReply.ok r.toActive then _ else _)) =
    ExceptT.bindCont _ (if VideoReply.ok r then _ else _)
  rw [show ActiveCallReply.ok r.toActive = VideoReply.ok r from rfl]
  split <;> rfl

def CleanUp : VideoCmd → Prop
  | .setKey _ | .start _ (.delSession _) | .start _ (.releaseSlot ..) | .start _ (.releasePair ..) =>
    True
  | _ => False

/-- `deleteBillingSessionRedisKeys` after the terminal key is set. -/
def deleteKeys (callId : String) (p : Parties) : VideoFlow Unit := do
  let _ ← run (.setKey (.terminal callId))
  onStart callId (deleteBillingSessionRedisKeys callId p)

theorem deleteKeys_cleanUp (p : Parties) : IssuesOnly CleanUp (deleteKeys callId p) := by
  refine issuesOnly_call trivial fun _ _ => ?_
  rw [deleteBillingSessionRedisKeys, onStart_run_bind]
  refine issuesOnly_call trivial fun _ _ => ?_
  rw [onStart_run_bind]
  refine issuesOnly_call trivial fun _ _ => ?_
  rw [onStart_run_bind]
  refine issuesOnly_call trivial fun _ _ => ?_
  rw [onStart_run_bind]
  exact issuesOnly_call trivial fun _ _ => issues_pure ()

theorem CleanUp.not_save (hc : CleanUp c) (source : SaveSource) (loaded call : CallDoc) :
    c ≠ .saveCall source callId loaded call := by
  rintro rfl
  exact hc

theorem exec_start_served (hr : Served uid r) {c : ActiveCallCmd} (hc : CleanUp (.start callId c)) :
    exec (.start callId c) r s = s.setStart (ActiveCall.effect r.toActive s.start c) := by
  have hdelivered : r.delivered = true := ((Bool.and_eq_true _ _).mp hr.ok).1
  cases c with
  | delSession | releaseSlot | releasePair => exact if_pos hdelivered
  | _ => exact hc.elim

theorem letGo_releaseSlot (hr : Served uid r) (uid' : String)
    (h : uid' = uid ∨ s.LetGo callId uid) :
    (exec (.start callId (.releaseSlot uid' callId)) r s).LetGo callId uid := by
  rw [exec_start_served (c := .releaseSlot uid' callId) hr trivial, ActiveCall.effect]
  split
  · show (s.start.setSlot uid' none).slots uid ≠ some callId
    rw [ActiveCallStore.slots_setSlot]
    split
    · rintro ⟨⟩
    · rename_i hne
      exact h.resolve_left (Ne.symm hne)
  · rename_i hne
    rcases h with rfl | h
    · exact hne
    · exact h

/-- **The clean-up** deletes the session and lets go of the creator. -/
theorem deleteKeys_cleans {p : Parties} (hp : p.2 = uid) :
    (deleteKeys callId p).Ensures exec (Served uid)
      (fun _ t => t.session callId = none ∧ t.LetGo callId uid) (fun _ _ => False) s := by
  refine served_call (fun _ h => h) fun r₁ _ => ?_
  generalize exec (.setKey (.terminal callId)) r₁ s = s₁
  rw [deleteBillingSessionRedisKeys, onStart_run_bind]
  refine served_call (fun _ h => h) fun r₂ hr₂ => ?_
  have hsession : (exec (.start callId (.delSession callId)) r₂ s₁).session callId = none := by
    rw [exec_start_served (c := .delSession callId) hr₂ trivial]
    show (Function.update s₁.start.billing callId _ callId).session = none
    rw [Function.update_self]
  generalize exec (.start callId (.delSession callId)) r₂ s₁ = s₂ at hsession
  rw [onStart_run_bind]
  refine served_call (fun _ h => h) fun r₃ hr₃ => ?_
  have hsession₃ : (exec (.start callId (.releaseSlot p.1 callId)) r₃ s₂).session callId = none := by
    rw [exec_start_served (c := .releaseSlot p.1 callId) hr₃ trivial, ActiveCall.effect]
    split <;> exact hsession
  generalize exec (.start callId (.releaseSlot p.1 callId)) r₃ s₂ = s₃ at hsession₃
  rw [onStart_run_bind]
  refine served_call (fun _ h => h) fun r₄ hr₄ => ?_
  have hsession₄ : (exec (.start callId (.releaseSlot p.2 callId)) r₄ s₃).session callId = none := by
    rw [exec_start_served (c := .releaseSlot p.2 callId) hr₄ trivial, ActiveCall.effect]
    split <;> exact hsession₃
  have hletGo : (exec (.start callId (.releaseSlot p.2 callId)) r₄ s₃).LetGo callId uid :=
    letGo_releaseSlot hr₄ p.2 (.inl hp)
  generalize exec (.start callId (.releaseSlot p.2 callId)) r₄ s₃ = s₄ at hsession₄ hletGo
  rw [onStart_run_bind]
  refine served_call (fun _ h => h) fun r₅ hr₅ => ensures_pure ?_
  rw [exec_start_served (c := .releasePair (callpairKey p.1 p.2) callId) hr₅ trivial, ActiveCall.effect]
  split
  · exact ⟨hsession₄, hletGo⟩
  · exact ⟨hsession₄, hletGo⟩

/-! ### The webhooks of the beginning -/

def KeepsEnded (callId : String) (c : VideoCmd) : Prop :=
  ∀ source loaded call, c = .saveCall source callId loaded call →
    call.status = .ended ∨ call.status = loaded.status

theorem Marks.keepsEnded (hc : Marks id c) : KeepsEnded callId c := by
  rintro source loaded call rfl
  exact hc.elim

theorem Starts.keepsEnded (hc : Starts id c) : KeepsEnded callId c := by
  rintro source loaded call rfl
  obtain ⟨c', h⟩ := hc
  cases h

theorem Ends.keepsEnded (hc : Ends id c) : KeepsEnded callId c := by
  rintro source loaded call rfl
  rcases hc with hc | ⟨-, hended, -⟩
  · exact hc.elim
  · exact .inl hended

theorem keepsEnded_query : KeepsEnded callId .query := by
  intro _ _ _ h
  cases h

/-- **`handleSessionStarted`** leaves an ended call ended. -/
theorem handleSessionStarted_keepsEnded (startedAt : Option ℤ) (token : String) :
    Issues (fun s : VideoStore => s.EndedCall callId) (KeepsEnded callId)
      (handleSessionStarted cfg callId startedAt token) := by
  have hmarks : ∀ {β : Type} {p : VideoFlow β}, IssuesOnly (Marks callId) p →
      Issues (fun s : VideoStore => s.EndedCall callId) (KeepsEnded callId) p := fun hp =>
    Prog.Issues.mono_inv (Issues.mono hp fun _ => Marks.keepsEnded) fun _ _ => trivial
  refine issues_bind (hmarks (ensureCallRecordExists_marks callId)) fun _ => ?_
  refine issues_call_bind keepsEnded_query fun _ s hs => ?_
  dsimp only
  split
  · exact hmarks (markSessionStarted_marks callId)
  rename_i call hcall
  refine issues_call_bind keepsEnded_query fun _ s _ => ?_
  split
  · exact hmarks (markSessionStarted_marks callId)
  refine issues_call_bind keepsEnded_query fun r _ _ =>
    issues_call_bind ?_ fun _ _ _ => ?_
  · -- the loaded call is ended, so it is not accepted again
    intro source loaded saved h
    cases h
    rw [VideoStore.EndedCall, VideoStore.statusOf, hcall] at hs
    have hended : call.status = .ended := Option.some.inj hs
    exact .inl (by rw [startCall_status, hended]; rfl)
  · refine Prog.Issues.mono_inv (Issues.mono (startBillingOfCall_commands cfg callId token)
      fun _ hc => ?_) fun _ _ => trivial
    exact hc.elim Marks.keepsEnded Starts.keepsEnded

abbrev IssuesMarked (callId : String) (phase : BusyPhase) {α : Type} (p : VideoFlow α) : Prop :=
  Issues (fun s : VideoStore => s.Marked callId phase) (fun c => Ends callId c ∨ Claims c) p

theorem ensureCallRecordExists_marked (phase : BusyPhase) :
    IssuesMarked callId phase (ensureCallRecordExists callId) := by
  refine issues_call_bind (.inr trivial) fun _ s hs => ?_
  simp [show (s.calls callId).isSome = true from hs.1]

theorem markCreatorBusyForCall_marked (uid : String) (phase : BusyPhase) :
    IssuesMarked callId phase (markCreatorBusyForCall callId uid phase) := by
  refine issues_tryCatch (issues_call_bind (.inr trivial) fun _ s hs => ?_)
    fun _ => issues_pure ()
  simp [hs.2]

/-- **A repeated `ringing`** marks nobody busy. -/
theorem handleCallRinging_marked (t : EndTokens) :
    IssuesMarked callId .ringing (handleCallRinging cfg callId t) := by
  refine issues_bind (ensureCallRecordExists_marked .ringing) fun _ => ?_
  refine issues_bind (Prog.Issues.mono_inv
    (rejectOverlappingIncomingCallIfNeeded_commands cfg callId t) fun _ _ => trivial)
    fun rejected => ?_
  split
  · exact issues_pure ()
  refine issues_call_bind (.inr trivial) fun r _ _ => ?_
  dsimp only
  split
  · exact issues_pure ()
  refine issues_call_bind (.inr trivial) fun r _ _ => ?_
  split
  · exact issues_call_bind (.inr trivial) fun _ _ _ => issues_pure ()
  · exact markCreatorBusyForCall_marked _ .ringing

/-- **A repeated `accepted`** marks nobody busy. -/
theorem handleCallAccepted_marked :
    IssuesMarked callId .accepted (handleCallAccepted callId) := by
  refine issues_bind (ensureCallRecordExists_marked .accepted) fun _ => ?_
  refine issues_call_bind (.inr trivial) fun r _ _ => ?_
  dsimp only
  split
  · exact issues_pure ()
  · exact markCreatorBusyForCall_marked _ .accepted

theorem keys_commands {phase : BusyPhase} (hc : Ends id c ∨ Claims c)
    (hs : s.keys (.busyPhase callId phase) = true) :
    (exec c r s).keys (.busyPhase callId phase) = true := by
  have hset : ∀ k v, (v = true ∨ k ≠ .busyPhase callId phase) →
      (s.setKey k v).keys (.busyPhase callId phase) = true := by
    intro k v hk
    show Function.update s.keys k v (.busyPhase callId phase) = true
    grind
  obtain h | ⟨-, h⟩ | ⟨id, l, h⟩ := exec_cases s c r
  · rw [h]
    exact hs
  · rw [h]
    cases c with
    | setKey k | claimKey k => exact hset k true (.inl rfl)
    | delKey k =>
      refine hset k false (.inr ?_)
      intro hk
      subst hk
      rcases hc with (hc | hc) | hc <;> exact hc.elim
    | expireKey k =>
      rcases hc with (hc | hc) | hc <;> exact hc.elim
    | createCall id call | upsertCall id =>
      rw [effect, VideoStore.insertCall]
      split <;> exact hs
    | rehydrate id =>
      rw [effect]
      split <;> exact hs
    | settlement id c => cases c <;> exact hs
    | start id c =>
      rcases hc with (hc | hc) | hc <;> exact hc.elim
    | _ => exact hs
  · rw [h]
    exact hs

theorem slot_commands (hc : Ends id c ∨ Claims c) (hs : s.LetGo callId uid) :
    (exec c r s).LetGo callId uid := by
  rcases hc with hc | hc
  · exact slot_ends hs hc
  · have hslot : (exec c r s).start = s.start := by
      obtain h | ⟨-, h⟩ | ⟨id, l, h⟩ := exec_cases s c r
      · rw [h]
      · rw [h]
        cases c with
        | query | claimKey => rfl
        | _ => exact hc.elim
      · cases c with
        | query | claimKey =>
          show (if r.delivered = true then _ else s).start = s.start
          split <;> rfl
        | _ => exact hc.elim
    rw [VideoStore.LetGo, VideoStore.slot, hslot]
    exact hs

/-- **A webhook of a marked phase** leaves the phase marked and the creator let go. -/
theorem marked_letGo {p : VideoFlow Unit} {phase : BusyPhase} (hp : IssuesMarked callId phase p)
    (hs : s.Marked callId phase ∧ s.LetGo callId uid) :
    p.Ensures exec (Served uid) (fun _ t => t.Marked callId phase ∧ t.LetGo callId uid)
      (fun _ t => t.Marked callId phase ∧ t.LetGo callId uid) s :=
  ensures_of_issues (Prog.Issues.mono_inv hp fun _ ht => ht.1)
    (fun _ _ _ hc _ ht =>
      ⟨⟨hasCall_exec ht.1.1, keys_commands hc ht.1.2⟩, slot_commands hc ht.2⟩) hs

end keep

/-! ### Requests -/

section requests

variable {cfg : VideoConfig} {callId uid : String} {s : VideoStore} {q : Request}
  {rs : List VideoReply}

theorem ofCall_cases (h : q.OfCall callId uid) :
    (∃ w t token, q = .webhook callId w t token) ∨ (∃ q', q = .settlement callId q') ∨
      ∃ p : Parties, p.2 = uid ∧ q = .deleteKeys callId p := by
  cases q with
  | webhook id w t token =>
    obtain rfl : id = callId := h
    exact .inl ⟨w, t, token, rfl⟩
  | settlement id q' =>
    obtain rfl : id = callId := h
    exact .inr (.inl ⟨q', rfl⟩)
  | deleteKeys id p =>
    obtain ⟨rfl, hp⟩ := h
    exact .inr (.inr ⟨p, hp, rfl⟩)
  | _ => exact h.elim

variable {J : VideoStore → Prop} {P : VideoCmd → Prop}

theorem handle_keeps (hp : Prog.Issues J P (program cfg q)) (hJ : ∀ t, I t → J t)
    (hI : ∀ c r t, P c → G r → I t → I (exec c r t)) (hG : ∀ r ∈ rs, G r)
    (hreturn : ((program cfg q).exec exec rs s).2 = some ()) (hs : I s) :
    I (handle cfg s (q, rs)) :=
  Prog.exec_of_ensures (Q := fun _ t => I t)
    (Prog.ensures_of_issues (Prog.Issues.mono_inv hp hJ) hI hs) hG hreturn

theorem program_issues (hp : Issues J P flow) :
    Prog.Issues J P (flow.run >>= fun _ => .ret ()) :=
  Prog.issues_bind hp fun _ => trivial

theorem webhookOf_webhook (w : Webhook) (t : EndTokens) (token : String) :
    (Request.webhook callId w t token).webhookOf callId = some w := if_pos rfl

theorem ofCall_issues (h : q.OfCall callId uid) (hends : ∀ c, Ends callId c → P c)
    (hmarks : ∀ c, Marks callId c → P c) (hclean : ∀ c, CleanUp c → P c)
    (hstarts : ∀ startedAt token, q.StartsSession callId →
      Issues J P (handleSessionStarted cfg callId startedAt token)) :
    Prog.Issues J P (program cfg q) := by
  have hany : ∀ {β : Type} {p : VideoFlow β} {P' : VideoCmd → Prop}, IssuesOnly P' p →
      (∀ c, P' c → P c) → Issues J P p := fun hp hP =>
    Prog.Issues.mono_inv (Issues.mono hp hP) fun _ _ => trivial
  obtain ⟨w, t, token, rfl⟩ | ⟨q', rfl⟩ | ⟨p, -, rfl⟩ := ofCall_cases h
  · refine program_issues ?_
    cases w with
    | ringing =>
      exact hany (handleCallRinging_commands cfg callId t) fun c hc => hc.elim (hends c) (hmarks c)
    | accepted => exact hany (handleCallAccepted_marks callId) hmarks
    | sessionStarted startedAt =>
      simp_all [Request.StartsSession, webhookOf_webhook, routeEvent]
    | sessionEnded endedAt =>
      exact hany (handleSessionEnded_endsFirst cfg callId endedAt t).ends hends
    | ended => exact hany (handleCallEnded_endsFirst cfg callId t).ends hends
  · exact program_issues (hany (onSettlement_ends callId _) hends)
  · exact program_issues (hany (deleteKeys_cleanUp p) hclean)

theorem hasCall_handle (hwell : HandledWell cfg uid (s, q, rs)) (hs : s.HasCall callId) :
    (handle cfg s (q, rs)).HasCall callId :=
  handle_keeps (I := fun t => t.HasCall callId) (J := fun _ => True) (P := fun _ => True)
    (Prog.issues_of_forall (fun _ => trivial) _) (fun _ _ => trivial) (fun _ _ _ _ _ ht => hasCall_exec ht) hwell.1 hwell.2 hs

/-- **An ended call stays ended** over every request of the call. -/
theorem endedCall_handle (hof : q.OfCall callId uid) (hwell : HandledWell cfg uid (s, q, rs))
    (hs : s.EndedCall callId) : (handle cfg s (q, rs)).EndedCall callId := by
  have hissues : Prog.Issues (fun s : VideoStore => s.EndedCall callId) (KeepsEnded callId)
      (program cfg q) := ofCall_issues hof (fun _ => Ends.keepsEnded) (fun _ => Marks.keepsEnded)
    (fun c hc source loaded call h => absurd h (hc.not_save source loaded call))
    fun startedAt token _ => handleSessionStarted_keepsEnded startedAt token
  exact handle_keeps hissues (fun _ => id) (fun c r t hc _ ht => endedCall_exec ht hc)
    hwell.1 hwell.2 hs

/-- A command that does not take the flag back. -/
def KeepsSettled (callId : String) (c : VideoCmd) : Prop :=
  ∀ source loaded call, c = .saveCall source callId loaded call →
    call.isSettled = true ∨ call.isSettled = loaded.isSettled

theorem Marks.not_save (hc : Marks id c) (source : SaveSource) (loaded call : CallDoc) :
    c ≠ .saveCall source callId loaded call := by
  rintro rfl
  exact hc

theorem Ends.keepsSettled (hc : Ends id c) : KeepsSettled callId c := by
  rintro source loaded call rfl
  rcases hc with hc | ⟨-, -, hsettled⟩
  · exact hc.elim
  · exact hsettled

/-- **A settled call stays settled** over every request of the call but `session_started`. -/
theorem settledCall_handle (hof : q.OfCall callId uid) (hstart : ¬ q.StartsSession callId)
    (hwell : HandledWell cfg uid (s, q, rs)) (hs : s.SettledCall callId) :
    (handle cfg s (q, rs)).SettledCall callId := by
  have hissues : Prog.Issues (fun _ => True) (KeepsSettled callId) (program cfg q) := ofCall_issues hof
    (fun _ => Ends.keepsSettled)
    (fun c hc source loaded call h => absurd h (hc.not_save source loaded call))
    (fun c hc source loaded call h => absurd h (hc.not_save source loaded call))
    fun _ _ h => absurd h hstart
  exact handle_keeps (I := fun t => t.SettledCall callId) hissues (fun _ _ => trivial)
    (fun c r t hc _ ht => settledCall_exec ht hc) hwell.1 hwell.2 hs

theorem session_cleanUp (hc : CleanUp c) (h : s.session callId = none) :
    (exec c r s).session callId = none := by
  obtain hs | ⟨-, hs⟩ | ⟨id, l, hs⟩ := exec_cases s c r
  · rw [hs]
    exact h
  · rw [hs]
    cases c with
    | setKey => exact h
    | start id c =>
      cases c with
      | delSession id' =>
        show (Function.update s.start.billing id' _ callId).session = none
        rw [Function.update_apply]
        split
        · rfl
        · exact h
      | releaseSlot | releasePair =>
        rw [effect, ActiveCall.effect]
        split <;> exact h
      | _ => exact hc.elim
    | _ => exact hc.elim
  · rw [hs]
    exact h

/-- **A call without a session stays so** over every request of the call but `session_started`. -/
theorem session_handle (hof : q.OfCall callId uid) (hstart : ¬ q.StartsSession callId)
    (hwell : HandledWell cfg uid (s, q, rs)) (hrebuilt : ∀ r ∈ rs, r.rehydrated = none)
    (hs : s.session callId = none) : (handle cfg s (q, rs)).session callId = none := by
  have hissues : Prog.Issues (fun _ => True)
      (fun c => (Ends callId c ∨ Marks callId c) ∨ CleanUp c) (program cfg q) := ofCall_issues hof
    (fun _ hc => .inl (.inl hc)) (fun _ hc => .inl (.inr hc)) (fun _ hc => .inr hc)
    fun _ _ h => absurd h hstart
  exact handle_keeps (I := fun t => t.session callId = none) hissues (fun _ _ => trivial)
    (fun c r t hc hr ht => hc.elim (session_commands ht hr) fun hc => session_cleanUp hc ht)
    hrebuilt hwell.2 hs

theorem letGo_cleanUp (hc : CleanUp c) (h : s.LetGo callId uid) :
    (exec c r s).LetGo callId uid := by
  obtain hs | ⟨-, hs⟩ | ⟨id, l, hs⟩ := exec_cases s c r
  · rw [hs]
    exact h
  · rw [hs]
    cases c with
    | setKey => exact h
    | start id c =>
      cases c with
      | delSession => exact h
      | releaseSlot uid' id' =>
        rw [effect, ActiveCall.effect]
        split
        · show (s.start.setSlot uid' none).slots uid ≠ some callId
          rw [ActiveCallStore.slots_setSlot]
          split
          · rintro ⟨⟩
          · exact h
        · exact h
      | releasePair =>
        rw [effect, ActiveCall.effect]
        split <;> exact h
      | _ => exact hc.elim
    | _ => exact hc.elim
  · rw [hs]
    exact h

/-- **A call that let go of its creator** does so after every request but those that begin it. -/
theorem letGo_handle (hof : q.OfCall callId uid) (hbegins : ¬ q.Begins callId s)
    (hwell : HandledWell cfg uid (s, q, rs)) (hs : s.LetGo callId uid) :
    (handle cfg s (q, rs)).LetGo callId uid := by
  have hends : ∀ {flow : VideoFlow Unit}, IssuesOnly (Ends callId) flow →
      program cfg q = (flow.run >>= fun _ => .ret ()) → (handle cfg s (q, rs)).LetGo callId uid := by
    intro flow hflow hprogram
    refine handle_keeps (J := fun _ => True) (P := Ends callId) ?_ (fun _ _ => trivial)
      (fun c r t hc _ ht => slot_ends ht hc) hwell.1 hwell.2 hs
    rw [hprogram]
    exact program_issues hflow
  have hmarked : ∀ {flow : VideoFlow Unit} {phase : BusyPhase}, IssuesMarked callId phase flow →
      s.Marked callId phase → program cfg q = (flow.run >>= fun _ => .ret ()) →
        (handle cfg s (q, rs)).LetGo callId uid := by
    intro flow phase hflow hphase hprogram
    exact (handle_of_ensures (I := fun t => t.Marked callId phase ∧ t.LetGo callId uid) hprogram
      (marked_letGo hflow ⟨hphase, hs⟩) hwell.1 hwell.2).2
  obtain ⟨w, t, token, rfl⟩ | ⟨q', rfl⟩ | ⟨p, -, rfl⟩ := ofCall_cases hof
  · rw [Request.Begins, webhookOf_webhook] at hbegins
    cases w with
    | ringing => exact hmarked (handleCallRinging_marked t) (not_not.1 hbegins) rfl
    | accepted => exact hmarked handleCallAccepted_marked (not_not.1 hbegins) rfl
    | sessionStarted => exact absurd trivial hbegins
    | sessionEnded endedAt => exact hends (handleSessionEnded_endsFirst cfg callId endedAt t).ends rfl
    | ended => exact hends (handleCallEnded_endsFirst cfg callId t).ends rfl
  · exact hends (onSettlement_ends callId _) rfl
  · exact handle_keeps (J := fun _ => True) (P := CleanUp) (program_issues (deleteKeys_cleanUp p))
      (fun _ _ => trivial) (fun c r t hc _ ht => letGo_cleanUp hc ht) hwell.1 hwell.2 hs

theorem eq_webhook {w : Webhook} (h : q.webhookOf callId = some w) :
    ∃ t token, q = .webhook callId w t token := by
  cases q with
  | webhook id w' t token =>
    rw [Request.webhookOf] at h
    split at h
    · rename_i hid
      obtain rfl : w' = w := Option.some.inj h
      exact ⟨t, token, by rw [hid]⟩
    · cases h
  | _ => cases h

theorem startsSession_hasCall (hstart : q.StartsSession callId)
    (hwell : HandledWell cfg uid (s, q, rs)) : (handle cfg s (q, rs)).HasCall callId := by
  rw [Request.StartsSession] at hstart
  split at hstart
  · rename_i startedAt hw
    obtain ⟨t, token, rfl⟩ := eq_webhook hw
    exact handle_of_ensures (I := fun t => t.HasCall callId) rfl
      (handleSessionStarted_hasCall startedAt token) hwell.1 hwell.2
  · exact hstart.elim

theorem handle_of_returns (hprogram : program cfg q = flow.run >>= fun _ => .ret ())
    (hflow : flow.Ensures exec (Served uid) (fun _ t => I t) (fun _ _ => False) s)
    (hwell : HandledWell cfg uid (s, q, rs)) : I (handle cfg s (q, rs)) :=
  handle_of_ensures hprogram (hflow.mono (fun _ _ ht => ht) fun _ _ hfalse => hfalse.elim)
    hwell.1 hwell.2

/-- **`ended`** ends and settles the call. -/
theorem ended_finishes (hended : q.webhookOf callId = some .ended)
    (hwell : HandledWell cfg uid (s, q, rs)) :
    (handle cfg s (q, rs)).EndedCall callId ∧ (handle cfg s (q, rs)).SettledCall callId := by
  obtain ⟨t, token, rfl⟩ := eq_webhook hended
  exact handle_of_returns (I := fun t => t.EndedCall callId ∧ t.SettledCall callId) rfl
    (handleCallEnded_finishes t) hwell

/-- **A webhook of the end** settles a call with a record. -/
theorem ends_settles (hends : q.Ends callId) (hcall : s.HasCall callId)
    (hwell : HandledWell cfg uid (s, q, rs)) : (handle cfg s (q, rs)).SettledCall callId := by
  rw [Request.Ends] at hends
  split at hends
  · rename_i endedAt hw
    obtain ⟨t, token, rfl⟩ := eq_webhook hw
    exact handle_of_returns (I := fun t => t.SettledCall callId) rfl
      (handleSessionEnded_settles hcall endedAt t) hwell
  · rename_i hw
    exact (ended_finishes hw hwell).2
  · exact hends.elim

/-- **A webhook of the end** lets go of the creator of a call with a record. -/
theorem ends_letsGo (hmode : cfg.finalizerLogOnly = false) (hends : q.Ends callId)
    (hcall : s.HasCall callId) (hwell : HandledWell cfg uid (s, q, rs)) :
    (handle cfg s (q, rs)).LetGo callId uid := by
  rw [Request.Ends] at hends
  split at hends
  · rename_i endedAt hw
    obtain ⟨t, token, rfl⟩ := eq_webhook hw
    exact handle_of_ensures (I := fun t => t.LetGo callId uid) rfl
      (endsFirst_letGo hmode hcall (handleSessionEnded_endsFirst cfg callId endedAt t))
      hwell.1 hwell.2
  · rename_i hw
    obtain ⟨t, token, rfl⟩ := eq_webhook hw
    exact handle_of_ensures (I := fun t => t.LetGo callId uid) rfl
      (endsFirst_letGo hmode hcall (handleCallEnded_endsFirst cfg callId t)) hwell.1 hwell.2
  · exact hends.elim

/-- **The clean-up** leaves no session and no slot of the call. -/
theorem cleansUp_cleans (hclean : q.CleansUp callId uid) (hwell : HandledWell cfg uid (s, q, rs)) :
    (handle cfg s (q, rs)).session callId = none ∧ (handle cfg s (q, rs)).LetGo callId uid := by
  cases q with
  | deleteKeys id p =>
    obtain ⟨rfl, hp⟩ := hclean
    exact handle_of_returns (I := fun t => t.session id = none ∧ t.LetGo id uid) rfl
      (deleteKeys_cleans hp) hwell
  | _ => exact hclean.elim

end requests

/-! ### Orders -/

section orders

variable {cfg : VideoConfig} {callId uid : String} {s : VideoStore} {order l l' : List Handled}
  {x : Handled}

theorem Request.StartsSession.not_ends {q : Request} (h : q.StartsSession callId) :
    ¬ (q.Ends callId ∨ q.CleansUp callId uid) := by
  rw [Request.StartsSession] at h
  split at h
  · rename_i startedAt hw
    obtain ⟨t, token, rfl⟩ := eq_webhook hw
    intro hends
    rw [Request.Ends, webhookOf_webhook] at hends
    exact hends.elim id id
  · exact h.elim

theorem Request.StartsSession.begins {q : Request} (h : q.StartsSession callId) :
    q.Begins callId s := by
  grind [Request.StartsSession, Request.Begins]

theorem Lifecycle.hasCall (hlife : Lifecycle cfg callId uid s (l ++ x :: l'))
    (hx : x.1.Ends callId ∨ x.1.CleansUp callId uid) (hl' : ∀ y ∈ l', ¬ y.1.StartsSession callId) :
    (runFrom (handle cfg) s l).HasCall callId := by
  obtain ⟨y, hy, startedAt, hw⟩ := hlife.sessionStarted
  have hstart : y.1.StartsSession callId := by
    rw [Request.StartsSession, hw]
    trivial
  have hmem : y ∈ l := by
    rcases List.mem_append.1 hy with h | h
    · exact h
    · rcases List.mem_cons.1 h with rfl | h
      · exact absurd hx hstart.not_ends
      · exact absurd hstart (hl' y h)
  obtain ⟨l₁, l₂, rfl⟩ := List.append_of_mem hmem
  have hhandled := hlife.handled
  rw [stepsOf, stepLog_append] at hhandled
  obtain ⟨hfirst, hrest⟩ :=
    forall_stepLog_split fun e he => hhandled e (List.mem_append_left _ he)
  exact runFrom_after (I := fun t => t.HasCall callId) (G := HandledWell cfg uid)
    (startsSession_hasCall hstart hfirst) (fun _ _ ht hwell => hasCall_handle hwell ht) hrest

theorem Lifecycle.holds (hlife : Lifecycle cfg callId uid s (l ++ x :: l'))
    {G : VideoStore × Handled → Prop}
    (hx : HandledWell cfg uid (runFrom (handle cfg) s l, x) →
      I (handle cfg (runFrom (handle cfg) s l) x))
    (hstep : ∀ s y, I s → y.1.OfCall callId uid → HandledWell cfg uid (s, y) → G (s, y) →
      I (handle cfg s y)) (hG : ∀ e ∈ stepsOf cfg (runFrom (handle cfg) s (l ++ [x])) l', G e) :
    I (runFrom (handle cfg) s (l ++ x :: l')) := by
  obtain ⟨hwell, hlater⟩ := forall_stepLog_split hlife.handled
  have hof : ∀ y ∈ l', y.1.OfCall callId uid := fun y hy =>
    hlife.ofCall y (List.mem_append_right _ (List.mem_cons_of_mem _ hy))
  rw [runFrom_append, runFrom_cons, runFrom_nil] at hG
  exact runFrom_after (G := fun e => e.2.1.OfCall callId uid ∧ HandledWell cfg uid e ∧ G e) (hx hwell)
    (fun s y hs h => hstep s y hs h.1 h.2.1 h.2.2)
    fun e he => ⟨hof e.2 (mem_of_mem_stepLog he), hlater e he, hG e he⟩

/-- An end after the last `session_started` settles the call for good. -/
theorem Lifecycle.settled (hlife : Lifecycle cfg callId uid s (l ++ x :: l'))
    (hx : x.1.Ends callId)
    (hl' : ∀ y ∈ l', ¬ y.1.StartsSession callId) :
    (runFrom (handle cfg) s (l ++ x :: l')).SettledCall callId :=
  hlife.holds (I := fun t => t.SettledCall callId) (G := fun e => ¬ e.2.1.StartsSession callId)
    (fun hwell => ends_settles hx (hlife.hasCall (.inl hx) hl') hwell)
    (fun _ _ ht hof hwell hstart => settledCall_handle hof hstart hwell ht)
    fun e he => hl' e.2 (mem_of_mem_stepLog he)

theorem Lifecycle.endedCall (hlife : Lifecycle cfg callId uid s order) :
    (runFrom (handle cfg) s order).EndedCall callId := by
  obtain ⟨x, hx, hw⟩ := hlife.ended
  obtain ⟨l, l', rfl⟩ := List.append_of_mem hx
  exact hlife.holds (I := fun t => t.EndedCall callId) (G := fun _ => True)
    (fun hwell => (ended_finishes hw hwell).1)
    (fun _ _ ht hof hwell _ => endedCall_handle hof hwell ht) fun _ _ => trivial

theorem Lifecycle.sessionGone (hlife : Lifecycle cfg callId uid s (l ++ x :: l'))
    (hx : x.1.CleansUp callId uid)
    (hl' : ∀ y ∈ l', ¬ y.1.StartsSession callId ∧ ∀ r ∈ y.2, r.rehydrated = none) :
    (runFrom (handle cfg) s (l ++ x :: l')).session callId = none :=
  hlife.holds (I := fun t => t.session callId = none)
    (G := fun e => ¬ e.2.1.StartsSession callId ∧ ∀ r ∈ e.2.2, r.rehydrated = none)
    (fun hwell => (cleansUp_cleans hx hwell).1)
    (fun _ _ ht hof hwell h => session_handle hof h.1 hwell h.2 ht)
    fun e he => hl' e.2 (mem_of_mem_stepLog he)

theorem Lifecycle.letGo (hlife : Lifecycle cfg callId uid s (l ++ x :: l'))
    (hx : x.1.Ends callId ∧ cfg.finalizerLogOnly = false ∨ x.1.CleansUp callId uid)
    (hl' : ∀ e ∈ stepsOf cfg (runFrom (handle cfg) s (l ++ [x])) l', ¬ e.2.1.Begins callId e.1) :
    (runFrom (handle cfg) s (l ++ x :: l')).LetGo callId uid := by
  have hstarts : ∀ y ∈ l', ¬ y.1.StartsSession callId := by
    intro y hy hstart
    obtain ⟨s', hs'⟩ := exists_mem_stepLog hy
    exact hl' _ hs' hstart.begins
  refine hlife.holds (I := fun t => t.LetGo callId uid) (G := fun e => ¬ e.2.1.Begins callId e.1)
    (fun hwell => ?_) (fun _ _ ht hof hwell hbegins => letGo_handle hof hbegins hwell ht) hl'
  rcases hx with ⟨hx, hmode⟩ | hx
  · exact ends_letsGo hmode hx (hlife.hasCall (.inl hx) hstarts) hwell
  · exact (cleansUp_cleans hx hwell).2

/-- **The final state of a call** does not depend on the order of its webhooks, among the orders in
which nothing that an end or the clean-up undoes comes after them. -/
theorem final_of_ordered (hlife : Lifecycle cfg callId uid s order)
    (hordered : Ordered cfg callId uid s order) :
    Final callId uid (runFrom (handle cfg) s order) := by
  obtain ⟨l₁, x₁, l₁', rfl, hx₁, hslot⟩ := hordered.slot
  have hended := hlife.endedCall
  have hletGo := hlife.letGo hx₁ hslot
  obtain ⟨l₂, x₂, l₂', horder₂, hx₂, hsession⟩ := hordered.session
  obtain ⟨l₃, x₃, l₃', horder₃, hx₃, hsettled⟩ := hordered.settled
  have hgone : (runFrom (handle cfg) s (l₁ ++ x₁ :: l₁')).session callId = none := by
    rw [horder₂] at hlife ⊢
    exact hlife.sessionGone hx₂ hsession
  obtain ⟨call, hcall, hflag⟩ :
      (runFrom (handle cfg) s (l₁ ++ x₁ :: l₁')).SettledCall callId := by
    rw [horder₃] at hlife ⊢
    exact hlife.settled hx₃ hsettled
  refine ⟨hletGo, fun c hc => ?_, call, hcall, ?_, hflag⟩
  · simp [hgone] at hc
  · rw [VideoStore.EndedCall, VideoStore.statusOf, hcall] at hended
    exact Option.some.inj hended

end orders

/-! ### Sample orders -/

def settledAnswer : VideoReply :=
  { sampleAnswer with
    view := { (Settlement.sampleAnswer 1000).view with transient := false } }

def served (qs : List Request) : List Handled := qs.map fun q => (q, List.replicate 90 settledAnswer)

theorem settledAnswer_served : Served "creator-uid" settledAnswer := ⟨rfl, rfl, _, rfl, rfl⟩

theorem handledWell_served {s : VideoStore} {qs : List Request}
    (h : (stepsOf sampleVideoConfig s (served qs)).all
      (fun e => ((program sampleVideoConfig e.2.1).exec exec e.2.2 e.1).2 == some ()) = true) :
    ∀ e ∈ stepsOf sampleVideoConfig s (served qs), HandledWell sampleVideoConfig "creator-uid" e := by
  intro e he
  obtain ⟨q, -, hq⟩ := List.mem_map.1 (mem_of_mem_stepLog he)
  constructor
  · intro r hr
    rw [← hq] at hr
    obtain rfl := List.eq_of_mem_replicate hr
    exact settledAnswer_served
  · exact beq_iff_eq.1 (List.all_eq_true.1 h e he)

abbrev sampleWebhook (w : Webhook) : Request := .webhook "call" w sampleTokens "token"

abbrev sampleCleanUp : Request := .deleteKeys "call" ("user-uid", "creator-uid")

def sampleLife : List Request :=
  [sampleWebhook .ringing, sampleWebhook .accepted, sampleWebhook (.sessionStarted none),
    sampleWebhook (.sessionEnded none), sampleWebhook .ended, sampleCleanUp]

theorem lifecycle_of_perm {qs : List Request} (hperm : qs.Perm sampleLife)
    (h : (stepsOf sampleVideoConfig freshVideo (served qs)).all
      (fun e => ((program sampleVideoConfig e.2.1).exec exec e.2.2 e.1).2 == some ()) = true) :
    Lifecycle sampleVideoConfig "call" "creator-uid" freshVideo (served qs) := by
  have hmem : ∀ q ∈ sampleLife, ∃ x ∈ served qs, x.1 = q := fun q hq =>
    ⟨_, List.mem_map_of_mem (hperm.mem_iff.2 hq), rfl⟩
  have hwebhook : ∀ w, sampleWebhook w ∈ sampleLife →
      ∃ x ∈ served qs, x.1.webhookOf "call" = some w := by
    intro w hw
    obtain ⟨x, hx, hq⟩ := hmem _ hw
    exact ⟨x, hx, by rw [hq]; rfl⟩
  refine ⟨?_, handledWell_served h, hwebhook _ ?_, hwebhook _ ?_, ?_, ?_, hwebhook _ ?_, ?_⟩
  · intro x hx
    obtain ⟨q, hq, rfl⟩ := List.mem_map.1 hx
    have hof : ∀ q ∈ sampleLife, q.OfCall "call" "creator-uid" := by
      intro q hq
      simp only [sampleLife, List.mem_cons, List.not_mem_nil, or_false] at hq
      rcases hq with rfl | rfl | rfl | rfl | rfl | rfl
      · rfl
      · rfl
      · rfl
      · rfl
      · rfl
      · exact ⟨rfl, rfl⟩
    exact hof q (hperm.mem_iff.1 hq)
  · simp [sampleLife]
  · simp [sampleLife]
  · obtain ⟨x, hx, hw⟩ := hwebhook (.sessionStarted none) (by simp [sampleLife])
    exact ⟨x, hx, none, hw⟩
  · obtain ⟨x, hx, hw⟩ := hwebhook (.sessionEnded none) (by simp [sampleLife])
    exact ⟨x, hx, none, hw⟩
  · simp [sampleLife]
  · obtain ⟨x, hx, hq⟩ := hmem sampleCleanUp (by simp [sampleLife])
    refine ⟨x, hx, ?_⟩
    rw [hq]
    exact ⟨rfl, rfl⟩

theorem ordered_sample :
    Ordered sampleVideoConfig "call" "creator-uid" freshVideo (served sampleLife) where
  slot := by
    refine ⟨served (sampleLife.take 3), _, served (sampleLife.drop 4), rfl, .inl ⟨trivial, rfl⟩, ?_⟩
    intro e he
    have hmem := mem_of_mem_stepLog he
    simp only [served, sampleLife, List.drop, List.map_cons, List.map_nil, List.mem_cons,
      List.not_mem_nil, or_false] at hmem
    rcases hmem with hq | hq
    · rw [hq]
      exact id
    · rw [hq]
      exact id
  session := ⟨served (sampleLife.take 5), _, [], rfl, ⟨rfl, rfl⟩, fun _ h => nomatch h⟩
  settled := by
    refine ⟨served (sampleLife.take 4), _, served (sampleLife.drop 5), rfl, trivial, ?_⟩
    intro y hy
    simp only [served, sampleLife, List.drop, List.map_cons, List.map_nil, List.mem_cons,
      List.not_mem_nil, or_false] at hy
    rw [hy]
    exact id

theorem final_sample : Final "call" "creator-uid"
    (runFrom (handle sampleVideoConfig) freshVideo (served sampleLife)) :=
  final_of_ordered (lifecycle_of_perm (List.Perm.refl _) (by decide +kernel)) ordered_sample

/-- `accepted` is handled last. -/
def sampleLateAccepted : List Request :=
  sampleWebhook .ringing :: ([sampleWebhook (.sessionStarted none),
    sampleWebhook (.sessionEnded none), sampleWebhook .ended, sampleCleanUp] ++
      [sampleWebhook .accepted])

/-- `session_started` is handled last. -/
def sampleLateStart : List Request :=
  sampleWebhook .ringing :: sampleWebhook .accepted :: ([sampleWebhook (.sessionEnded none),
    sampleWebhook .ended, sampleCleanUp] ++ [sampleWebhook (.sessionStarted none)])

/-- **A late webhook undoes the end** of a settled call: `accepted` marks the creator busy, and
`session_started` takes the flag back and starts a session. -/
theorem late_webhooks :
    (Lifecycle sampleVideoConfig "call" "creator-uid" freshVideo (served sampleLateAccepted) ∧
      (runFrom (handle sampleVideoConfig) freshVideo (served sampleLateAccepted)).committed "call" =
        true ∧
      ¬ Final "call" "creator-uid"
        (runFrom (handle sampleVideoConfig) freshVideo (served sampleLateAccepted))) ∧
    (Lifecycle sampleVideoConfig "call" "creator-uid" freshVideo (served sampleLateStart) ∧
      (runFrom (handle sampleVideoConfig) freshVideo (served sampleLateStart)).committed "call" =
        true ∧
      ¬ Final "call" "creator-uid"
        (runFrom (handle sampleVideoConfig) freshVideo (served sampleLateStart))) := by
  constructor
  · refine ⟨lifecycle_of_perm (List.Perm.cons _ List.perm_append_comm) (by decide +kernel),
      by decide +kernel, fun hfinal => hfinal.slot ?_⟩
    decide +kernel
  · refine ⟨lifecycle_of_perm (List.Perm.cons _ (List.Perm.cons _ List.perm_append_comm))
      (by decide +kernel), by decide +kernel, fun hfinal => ?_⟩
    obtain ⟨call, hcall, -, hsettled⟩ := hfinal.call
    have hflag : ((runFrom (handle sampleVideoConfig) freshVideo (served sampleLateStart)).calls
        "call").all (fun call => call.isSettled) = false := by
      decide +kernel
    simp [hcall, Option.all_some, hsettled] at hflag

end VibemeetBackend.Video
