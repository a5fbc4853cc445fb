import VibemeetBackend.ActiveCall.Deletions
import VibemeetBackend.Video.StatusAbsorbing

/-!
# Slots of live calls

An event of one call should leave the slot of another call that `isCreatorActiveCallSlotLive` takes
for live.  The slot module looks before it deletes, but what it saw may have changed by then; the
overlap check deletes a slot whose call has no session, a start recovers what it takes for an orphan,
and marking a creator busy overwrites whatever is there.
-/

namespace VibemeetBackend.Video

open Async Flow Billing ActiveCall
open EndedCall (isStaleHolder sessionAgeMs)

def VideoCmd.isEvent : VideoCmd → Bool
  | .expireKey _ | .expireSlot _ | .delSlot .deadLetter .. => false
  | _ => true

def VideoCmd.writer : VideoCmd → Option String
  | .setSlot callId _ | .delSlot _ callId _ | .start callId _ => some callId
  | _ => none

/-- An event never overwrites or deletes the slot of another call that is live at that moment. -/
def NoSteal (cfg : VideoConfig) (e : VideoEvent) : Prop :=
  e.cmd.isEvent = true → ∀ uid other, e.before.slot uid = some other → e.cmd.writer ≠ some other →
    e.before.slotLive cfg e.ans.now other uid = true → e.after.slot uid = some other

/-! ### What a program has read -/

/-- What a program has read since it last looked at a slot, or wrote anything but a deletion of its
own slots. -/
abbrev Window : Type := List (VideoReply × VideoStore)

namespace Window

def next (w : Window) (c : VideoCmd) (r : VideoReply) (s : VideoStore) : Window :=
  match c with
  | .readSlot _ => [(r, s)]
  | .query => w ++ [(r, s)]
  | .start _ c =>
    match c with
    | .query => w ++ [(r, s)]
    | .delSlot _ => w
    | _ => []
  | _ => []

def starts (w : Window) : Reads := w.map fun x => (x.1.toActive, x.2.start)

theorem starts_next (w : Window) (callId : String) (c : ActiveCallCmd) (r : VideoReply)
    (s : VideoStore) :
    (w.next (.start callId c) r s).starts = w.starts.next c r.toActive s.start := by
  cases c with
  | query => exact List.map_append
  | _ => rfl

end Window

structure SameSlot (uid : String) (s t : VideoStore) : Prop where
  slot : s.slot uid = t.slot uid
  expiresAt : s.slotExpiresAt uid = t.slotExpiresAt uid
  keys : ∀ id, t.slot uid = some id → s.keys (.ending id) = t.keys (.ending id) ∧
    s.keys (.pendingEnd id) = t.keys (.pendingEnd id) ∧
    s.keys (.terminal id) = t.keys (.terminal id) ∧
    s.keys (.snapshot id uid) = t.keys (.snapshot id uid)
  session : ∀ id, t.slot uid = some id → s.session id = t.session id
  inProgress : ∀ id, t.slot uid = some id →
    (s.calls id).map CallDoc.inProgress = (t.calls id).map CallDoc.inProgress

/-- Everything that was read was answered, and still stands at a later time. -/
structure Stands (w : Window) (uid : String) (t : VideoStore) (now : ℤ) : Prop where
  answered : ∀ x ∈ w, x.1.ok = true
  earlier : ∀ x ∈ w, x.1.now ≤ now
  same : ∀ x ∈ w, SameSlot uid x.2 t

def FoundStale (cfg : VideoConfig) (callId uid : String) (w : Window) : Prop :=
  ∀ t now, Stands w uid t now → ∀ other, t.slot uid = some other → other ≠ callId →
    t.slotLive cfg now other uid = false

def FoundWithoutSession (callId uid : String) (w : Window) : Prop :=
  ∀ t now, Stands w uid t now → ∀ other, t.slot uid = some other → other ≠ callId →
    t.session other = none

def Founded (cfg : VideoConfig) (w : Window) : VideoCmd → Prop
  | .delSlot .stale callId uid => FoundStale cfg callId uid w
  | .delSlot .conflict callId uid => FoundWithoutSession callId uid w
  | .start callId c => Justified callId w.starts c
  | _ => True

/-- A deletion finds what it rests on; what the overlap check and the recovery of a start delete, and
what a busy mark overwrites, is not live. -/
def Careful (cfg : VideoConfig) (x : Window × VideoEvent) : Prop :=
  let e := x.2
  let dead := fun uid other => e.before.slotLive cfg e.ans.now other uid = false
  e.ans.delivered = true →
    match e.cmd with
    | .setSlot callId uid =>
      ∀ other, e.before.slot uid = some other → other ≠ callId → dead uid other
    | .delSlot .stale _ uid | .start _ (.delSlot uid) => Stands x.1 uid e.before e.ans.now
    | .delSlot .conflict callId uid =>
      Stands x.1 uid e.before e.ans.now ∧ ∀ other, e.before.slot uid = some other →
        other ≠ callId → e.before.session other = none → dead uid other
    | .start callId (.recoverSlot uid) =>
      Stands x.1 uid e.before e.ans.now ∧ ∀ other, e.before.slot uid = some other →
        other ≠ callId → isStaleHolder e.ans.now (e.before.session other) = true → dead uid other
    | _ => True

/-! ### When a slot is not live -/

section live

variable {cfg : VideoConfig} {w : Window} {uid slotCallId : String} {t : VideoStore} {now : ℤ}
  {r : VideoReply} {s : VideoStore}

theorem slotLive_of_flag (h : t.keys (.ending slotCallId) = true ∨
    t.keys (.pendingEnd slotCallId) = true ∨ t.keys (.terminal slotCallId) = true) :
    t.slotLive cfg now slotCallId uid = false := by
  rw [VideoStore.slotLive]
  rcases h with h | h | h <;> rw [h] <;> simp

theorem slotLive_of_session {c : CallSession} (hsession : t.session slotCallId = some c)
    (hlive : sessionLive uid c = false) : t.slotLive cfg now slotCallId uid = false := by
  rw [VideoStore.slotLive, hsession]
  exact Bool.and_eq_false_imp.2 fun _ => hlive

theorem slotLive_of_record (hsession : t.session slotCallId = none)
    (hcall : (t.calls slotCallId).map CallDoc.inProgress = some false) :
    t.slotLive cfg now slotCallId uid = false := by
  obtain ⟨call, hcall, hdone⟩ := Option.map_eq_some_iff.1 hcall
  rw [VideoStore.slotLive, hsession, hcall]
  exact Bool.and_eq_false_imp.2 fun _ => hdone

theorem withinRingingGrace_antitone {ttl ttl' : ℤ} (h : ttl' ≤ ttl)
    (hlate : withinRingingGrace cfg ttl = false) : withinRingingGrace cfg ttl' = false := by
  rw [withinRingingGrace, decide_eq_false_iff_not] at hlate ⊢
  omega

theorem slotTtl_antitone (hsame : SameSlot uid s t) (hnow : r.now ≤ now) :
    t.slotTtl now uid ≤ s.slotTtl r.now uid := by
  rw [VideoStore.slotTtl, VideoStore.slotTtl, hsame.slot, hsame.expiresAt]
  split
  · apply Int.ediv_le_ediv (by decide)
    omega
  · exact le_refl _

theorem slotLive_of_age (hsession : t.session slotCallId = none)
    (hcall : (t.calls slotCallId).map CallDoc.inProgress = none)
    (hsnapshot : t.keys (.snapshot slotCallId uid) = false)
    (hlate : withinRingingGrace cfg (t.slotTtl now uid) = false) :
    t.slotLive cfg now slotCallId uid = false := by
  rw [VideoStore.slotLive, hsession, Option.map_eq_none_iff.1 hcall, hsnapshot, hlate]
  simp

end live

/-! ### The check of a slot -/

/-- The protocol: every deletion of a slot is founded. -/
noncomputable abbrev slotWatch (cfg : VideoConfig) :
    Window → VideoCmd → VideoReply → VideoStore → Option Window :=
  guarded (Founded cfg) Window.next

section check

variable (cfg : VideoConfig) {α : Type} {w : Window}

variable {f : VideoReply × VideoStore → VideoFlow α}

theorem follows_query {ok : VideoReply → Bool} {err : String} {Q : α → Window → Prop}
    (hf : ∀ r s, Follows (slotWatch cfg) (w ++ [(r, s)]) (f (r, s)) Q fun _ _ => True) :
    Follows (slotWatch cfg) w (call ok err .query >>= f) Q fun _ _ => True :=
  follows_guarded_bind trivial (fun _ _ => trivial) fun r s _ => hf r s

theorem follows_readKey {k : VideoKey} {f : Bool → VideoFlow α} {Q : α → Window → Prop}
    (hf : ∀ r s, Follows (slotWatch cfg) (w ++ [(r, s)]) (f (r.ok && s.keys k)) Q
      fun _ _ => True) :
    Follows (slotWatch cfg) w (readKey k >>= f) Q fun _ _ => True :=
  follows_bind (follows_query cfg fun r s => hf r s)

/-- A check that was made after `w` was read: as long as what is read by `w'` stands, a slot of the
call is not live. -/
structure DeadBy (slotCallId uid : String) (w w' : Window) : Prop where
  reads : ∀ x ∈ w, x ∈ w'
  dead : ∀ t now, Stands w' uid t now → t.slot uid = some slotCallId →
    t.slotLive cfg now slotCallId uid = false

variable (slotCallId uid : String)

theorem slotLiveByRecord_founded
    (hsession : ∃ x ∈ w, x.1.ok = true → x.2.session slotCallId = none) :
    Follows (slotWatch cfg) w (slotLiveByRecord cfg slotCallId uid)
      (fun live w' => live = false → DeadBy cfg slotCallId uid w w') fun _ _ => True := by
  obtain ⟨x₀, hx₀, hnone⟩ := hsession
  refine follows_tryCatch ?_
  refine Follows.mono (E := fun _ _ => True) ?_ (fun _ _ ha => ha) ?_
  swap
  · exact fun _ _ _ h => absurd h Bool.false_ne_true.symm
  refine follows_query cfg fun r₁ s₁ => ?_
  have hx₀' : x₀ ∈ w ++ [(r₁, s₁)] := List.mem_append_left _ hx₀
  have hx₁ : (r₁, s₁) ∈ w ++ [(r₁, s₁)] := List.mem_concat_self
  dsimp only
  split
  · rename_i call hcall
    refine fun hdone => ⟨fun x hx => List.mem_append_left _ hx, fun t now hstands hslot => ?_⟩
    refine slotLive_of_record ?_ ?_
    · rw [← (hstands.same _ hx₀').session slotCallId hslot]
      exact hnone (hstands.answered _ hx₀')
    · rw [← (hstands.same _ hx₁).inProgress slotCallId hslot]
      show (s₁.calls slotCallId).map CallDoc.inProgress = some false
      rw [hcall]
      exact congrArg some hdone
  · rename_i hcall
    refine follows_query cfg fun r₂ s₂ => follows_readKey cfg fun r₃ s₃ => ?_
    split
    · exact fun h => absurd h Bool.false_ne_true.symm
    rename_i hsnapshot
    refine fun hlate => ⟨fun x hx => by simp [hx], fun t now hstands hslot => ?_⟩
    have hx₂ : (r₂, s₂) ∈ w ++ [(r₁, s₁)] ++ [(r₂, s₂)] ++ [(r₃, s₃)] := by simp
    have hx₃ : (r₃, s₃) ∈ w ++ [(r₁, s₁)] ++ [(r₂, s₂)] ++ [(r₃, s₃)] := by simp
    replace hx₀' : x₀ ∈ w ++ [(r₁, s₁)] ++ [(r₂, s₂)] ++ [(r₃, s₃)] := by simp [hx₀]
    replace hx₁ : (r₁, s₁) ∈ w ++ [(r₁, s₁)] ++ [(r₂, s₂)] ++ [(r₃, s₃)] := by simp
    have hok₂ : r₂.ok = true := hstands.answered _ hx₂
    have hok₃ : r₃.ok = true := hstands.answered _ hx₃
    refine slotLive_of_age ?_ ?_ ?_ ?_
    · rw [← (hstands.same _ hx₀').session slotCallId hslot]
      exact hnone (hstands.answered _ hx₀')
    · rw [← (hstands.same _ hx₁).inProgress slotCallId hslot]
      show (s₁.calls slotCallId).map CallDoc.inProgress = none
      rw [hcall]
      rfl
    · simpa [← ((hstands.same _ hx₃).keys slotCallId hslot).2.2.2,
        hok₃] using Bool.eq_false_iff.2 hsnapshot
    · rw [hok₂, if_pos rfl] at hlate
      exact withinRingingGrace_antitone
        (slotTtl_antitone (hstands.same _ hx₂) (hstands.earlier _ hx₂)) hlate

/-- **A slot that `isCreatorActiveCallSlotLive` takes for dead is dead**, as long as what it read
stands. -/
theorem isCreatorActiveCallSlotLive_founded :
    Follows (slotWatch cfg) w (isCreatorActiveCallSlotLive cfg slotCallId uid)
      (fun live w' => live = false → DeadBy cfg slotCallId uid w w') fun _ _ => True := by
  refine follows_readKey cfg fun r₁ s₁ => follows_readKey cfg fun r₂ s₂ => ?_
  split
  · rename_i hflag
    refine fun _ => ⟨fun x hx => by simp [hx], fun t now hstands hslot => ?_⟩
    have hx₁ := (hstands.same (r₁, s₁) (by simp)).keys slotCallId hslot
    have hx₂ := (hstands.same (r₂, s₂) (by simp)).keys slotCallId hslot
    simp only [Bool.or_eq_true, Bool.and_eq_true] at hflag
    refine slotLive_of_flag ?_
    rcases hflag with hflag | hflag
    · exact .inl (hx₁.1 ▸ hflag.2)
    · exact .inr (.inl (hx₂.2.1 ▸ hflag.2))
  refine follows_readKey cfg fun r₃ s₃ => ?_
  split
  · rename_i hflag
    refine fun _ => ⟨fun x hx => by simp [hx], fun t now hstands hslot => ?_⟩
    have hx₃ := (hstands.same (r₃, s₃) (by simp)).keys slotCallId hslot
    rw [Bool.and_eq_true] at hflag
    exact slotLive_of_flag (.inr (.inr (hx₃.2.2.1 ▸ hflag.2)))
  refine follows_query cfg fun r₄ s₄ => ?_
  dsimp only
  split
  · rename_i c hsession
    refine fun hlive => ⟨fun x hx => by simp [hx], fun t now hstands hslot => ?_⟩
    have hx₄ : (r₄, s₄) ∈ w ++ [(r₁, s₁)] ++ [(r₂, s₂)] ++ [(r₃, s₃)] ++ [(r₄, s₄)] := by simp
    rw [if_pos (hstands.answered _ hx₄)] at hsession
    refine slotLive_of_session ?_ hlive
    rw [← (hstands.same _ hx₄).session slotCallId hslot]
    exact hsession
  · rename_i hsession
    have hnone : r₄.ok = true → s₄.session slotCallId = none := by
      intro hok
      simpa [hok] using hsession
    refine (slotLiveByRecord_founded cfg slotCallId uid ⟨(r₄, s₄), by simp, hnone⟩).mono
      (fun live w' h hlive => ?_) fun _ _ _ => trivial
    obtain ⟨hreads, hdead⟩ := h hlive
    exact ⟨fun x hx => hreads x (by simp [hx]), hdead⟩

theorem follows_delSlot {callId : String} (hstale : FoundStale cfg callId uid w)
    (hf : ∀ r s, Anytime (slotWatch cfg) (f (r, s))) :
    Follows (slotWatch cfg) w (quiet (.delSlot .stale callId uid) >>= f) (fun _ _ => True)
      fun _ _ => True :=
  follows_guarded_bind hstale (fun _ _ => trivial) fun r s _ => hf r s []

/-- Every deletion of a slot is founded, whatever was read before. -/
abbrev IsFounded (p : VideoFlow α) : Prop := Anytime (slotWatch cfg) p

variable (callId : String)

theorem clearCreatorActiveCallSlotIfStale_founded {endingCallId : Option String}
    (hending : ∀ id, endingCallId = some id → id = callId) :
    IsFounded cfg (clearCreatorActiveCallSlotIfStale cfg callId uid endingCallId) := by
  intro w
  refine follows_guarded_bind trivial (fun _ _ => trivial) fun r₀ s₀ _ => ?_
  dsimp only
  split
  · exact anytime_pure _ _
  rename_i slotCallId hslot
  have hread : ∀ {w' : Window} {t : VideoStore} {now : ℤ}, (r₀, s₀) ∈ w' → Stands w' uid t now →
      t.slot uid = some slotCallId := fun hmem hstands => (hstands.same _ hmem).slot ▸ hslot
  split
  · rename_i hown
    refine follows_delSlot cfg uid (fun t now hstands other hother hne => ?_) fun _ _ =>
      anytime_pure _
    have hid : some other = some slotCallId := hother ▸ hread List.mem_cons_self hstands
    exact absurd ((Option.some.inj hid).trans (hending _ hown)) hne
  · refine follows_bind ((isCreatorActiveCallSlotLive_founded cfg slotCallId uid).mono
      (fun live w' hcheck => ?_) fun _ _ _ => trivial)
    split
    · exact anytime_pure _ _
    · rename_i hlive
      obtain ⟨hreads, hdead⟩ := hcheck (Bool.eq_false_iff.2 hlive)
      refine follows_delSlot cfg uid (fun t now hstands other hother _ => ?_) fun _ _ =>
        anytime_pure _
      have hslot' := hread (hreads _ List.mem_cons_self) hstands
      obtain rfl := Option.some.inj (hother ▸ hslot')
      exact hdead t now hstands hslot'

theorem founded_call {ok : VideoReply → Bool} {err : String} {c : VideoCmd}
    (hc : ∀ w, Founded cfg w c) (hf : ∀ r s, IsFounded cfg (f (r, s))) :
    IsFounded cfg (call ok err c >>= f) :=
  anytime_call_bind (fun w _ _ => ⟨_, guarded_of (hc w)⟩) hf

theorem transitionCreatorPresence_founded :
    IsFounded cfg (transitionCreatorPresence cfg callId uid) :=
  founded_call cfg (fun _ => trivial) fun _ _ =>
    anytime_bind (clearCreatorActiveCallSlotIfStale_founded cfg uid callId nofun) fun _ =>
      founded_call cfg (fun _ => trivial) fun _ _ => anytime_pure ()

theorem markCreatorBusyForCall_founded (phase : BusyPhase) :
    IsFounded cfg (markCreatorBusyForCall callId uid phase) := by
  refine anytime_tryCatch (founded_call cfg (fun _ => trivial) fun _ s => ?_)
    fun _ => anytime_pure ()
  dsimp only
  split
  · exact anytime_pure ()
  · exact founded_call cfg (fun _ => trivial) fun _ _ => founded_call cfg (fun _ => trivial)
      fun _ _ => anytime_pure ()

theorem restoreAvailability_founded : IsFounded cfg (restoreAvailability cfg callId uid) := by
  have hdel : IsFounded cfg (do
      let _ ← run (.delKey (.snapshot callId uid))
      pure () : VideoFlow Unit) :=
    founded_call cfg (fun _ => trivial) fun _ _ => anytime_pure ()
  have hlast : ∀ q : Prop, [Decidable q] → IsFounded cfg (if q then pure () else do
      let _ ← run .query
      if cfg.enforceAvailabilityWrites = true then transitionCreatorPresence cfg callId uid
      let _ ← run (.delKey (.snapshot callId uid))
      pure () : VideoFlow Unit) := by
    intro q _
    split
    · exact anytime_pure ()
    · refine founded_call cfg (fun _ => trivial) fun _ _ => ?_
      split
      · exact anytime_bind (transitionCreatorPresence_founded cfg uid callId) fun _ => hdel
      · exact hdel
  refine founded_call cfg (fun _ => trivial) fun _ s => ?_
  refine anytime_bind (clearCreatorActiveCallSlotIfStale_founded cfg uid callId
    fun id hid => (Option.some.inj hid).symm) fun result => ?_
  dsimp only
  split
  · exact founded_call cfg (fun _ => trivial) fun _ _ => hlast _
  · exact hlast _

theorem finalizeCreatorAvailabilityForCall_founded :
    IsFounded cfg (finalizeCreatorAvailabilityForCall cfg callId) := by
  refine anytime_tryCatch (founded_call cfg (fun _ => trivial) fun r _ => ?_)
    fun _ => anytime_pure ()
  dsimp only
  split
  · exact anytime_pure ()
  · exact restoreAvailability_founded cfg _ callId

theorem restoreCreatorPresenceForEndedCall_founded :
    IsFounded cfg (restoreCreatorPresenceForEndedCall cfg callId) := by
  refine founded_call cfg (fun _ => trivial) fun _ s => ?_
  dsimp only
  split
  · exact finalizeCreatorAvailabilityForCall_founded cfg callId
  refine founded_call cfg (fun _ => trivial) fun r s => ?_
  split
  · exact anytime_pure ()
  · exact anytime_bind (clearCreatorActiveCallSlotIfStale_founded cfg _ callId
      fun id hid => (Option.some.inj hid).symm) fun _ =>
        transitionCreatorPresence_founded cfg _ callId

theorem clearSlotOfDeadLetter_founded : IsFounded cfg (clearSlotOfDeadLetter callId uid) := by
  refine founded_call cfg (fun _ => trivial) fun _ s => ?_
  dsimp only
  split
  · exact founded_call cfg (fun _ => trivial) fun _ _ => anytime_pure ()
  · exact anytime_pure ()

end check

/-! ### The ends -/

section ends

variable (cfg : VideoConfig) (callId : String)

theorem dateNow_founded : IsFounded cfg dateNow :=
  founded_call cfg (fun _ => trivial) fun _ _ => anytime_pure _

theorem onSettlement_founded {α : Type} (p : Settlement.SettlementFlow α) :
    IsFounded cfg (onSettlement callId p) :=
  anytime_focus (fun _ _ _ _ => ⟨_, guarded_of trivial⟩) p

theorem saveCall_founded {source : SaveSource} {loaded call : CallDoc} :
    IsFounded cfg (do
      let _ ← run (.saveCall source callId loaded call)
      pure () : VideoFlow Unit) :=
  founded_call cfg (fun _ => trivial) fun _ _ => anytime_pure ()

variable (t : EndTokens)

theorem settleExplicitEnd_founded : IsFounded cfg (settleExplicitEnd cfg callId t) := by
  refine anytime_bind (onSettlement_founded cfg callId _) fun status => ?_
  cases status with
  | settled => exact anytime_pure _
  | duplicate => exact onSettlement_founded cfg callId _
  | pendingRetry | deadLettered => exact anytime_pure _

theorem setDone_founded : IsFounded cfg (do
    let _ ← run (.setKey (.finalizeDone callId)) : VideoFlow Unit) :=
  founded_call cfg (fun _ => trivial) fun _ _ => anytime_pure ()

theorem finalizeCall_founded (call : CallDoc) : IsFounded cfg (finalizeCall cfg callId t call) := by
  refine anytime_bind (finalizeCreatorAvailabilityForCall_founded cfg callId) fun _ => ?_
  refine anytime_bind (dateNow_founded cfg) fun now => ?_
  refine founded_call cfg (fun _ => trivial) fun _ _ => ?_
  refine founded_call cfg (fun _ => trivial) fun r s => ?_
  refine anytime_bind (onSettlement_founded cfg callId _) fun _ => ?_
  refine anytime_bind (settleExplicitEnd_founded cfg callId t) fun complete => ?_
  refine founded_call cfg (fun _ => trivial) fun _ _ => ?_
  split
  · exact setDone_founded cfg callId
  · exact anytime_pure ()

theorem finalizeLocked_founded : IsFounded cfg (finalizeLocked cfg callId t) := by
  refine founded_call cfg (fun _ => trivial) fun _ s => ?_
  dsimp only
  split
  · exact finalizeCall_founded cfg callId t _
  · refine anytime_bind (settleExplicitEnd_founded cfg callId t) fun complete => ?_
    split
    · exact setDone_founded cfg callId
    · exact anytime_pure ()

theorem finalizeCallEnd_founded : IsFounded cfg (finalizeCallEnd cfg callId t) := by
  rw [finalizeCallEnd]
  split
  · exact anytime_pure ()
  have hrestore : IsFounded cfg (do
      let _ ← attempt (restoreCreatorPresenceForEndedCall cfg callId)
      pure () : VideoFlow Unit) :=
    anytime_bind (anytime_attempt (restoreCreatorPresenceForEndedCall_founded cfg callId))
      fun _ => anytime_pure ()
  refine founded_call cfg (fun _ => trivial) fun _ s => ?_
  dsimp only
  split
  · exact hrestore
  refine founded_call cfg (fun _ => trivial) fun _ s => ?_
  split
  · exact hrestore
  · exact anytime_bind (anytime_attempt (finalizeLocked_founded cfg callId t)) fun result =>
      founded_call cfg (fun _ => trivial) fun _ _ => anytime_mk result

theorem markCallEndingForDeferredEnd_founded :
    IsFounded cfg (markCallEndingForDeferredEnd callId) := by
  refine founded_call cfg (fun _ => trivial) fun _ _ => founded_call cfg (fun _ => trivial)
    fun _ s => ?_
  dsimp only
  split
  · exact anytime_pure ()
  split
  · exact anytime_pure ()
  · exact anytime_bind (dateNow_founded cfg) fun now => saveCall_founded cfg callId

theorem delegateCallEndSettlementToRetry_founded :
    IsFounded cfg (delegateCallEndSettlementToRetry cfg callId) := by
  refine anytime_bind (markCallEndingForDeferredEnd_founded cfg callId) fun _ => ?_
  refine founded_call cfg (fun _ => trivial) fun _ s => ?_
  dsimp only
  split
  · exact anytime_bind (finalizeCreatorAvailabilityForCall_founded cfg callId) fun _ =>
      onSettlement_founded cfg callId _
  · exact anytime_bind (restoreCreatorPresenceForEndedCall_founded cfg callId) fun _ =>
      onSettlement_founded cfg callId _

theorem endExplicitly_founded : IsFounded cfg (endExplicitly cfg callId t) := by
  refine founded_call cfg (fun _ => trivial) fun r _ => ?_
  dsimp only
  split
  · refine anytime_bind (markCallEndingForDeferredEnd_founded cfg callId) fun _ => ?_
    exact founded_call cfg (fun _ => trivial) fun _ _ => anytime_bind (anytime_attempt
      (restoreCreatorPresenceForEndedCall_founded cfg callId)) fun _ => anytime_pure ()
  split
  · exact delegateCallEndSettlementToRetry_founded cfg callId
  · exact finalizeCallEnd_founded cfg callId t

/-! ### The webhooks -/

theorem onStart_founded {α : Type} {p : ActiveCallFlow α} (hp : IsJustified callId p) :
    IsFounded cfg (onStart callId p) := by
  intro w
  refine Prog.Follows.mono (Prog.follows_focus (R := fun ψ (w : Window) => ψ = w.starts)
    (hp w.starts) ?_ rfl) fun x _ _ => by cases x <;> trivial
  rintro _ w c r s ψ' rfl hψ'
  obtain ⟨hc, rfl⟩ := guarded_eq_some hψ'
  exact ⟨_, guarded_of hc, (w.starts_next callId c r s).symm⟩

theorem createCall_founded (call : CallDoc) : IsFounded cfg (createCall callId call) := by
  refine founded_call cfg (fun _ => trivial) fun _ s => ?_
  dsimp only
  split
  · exact anytime_throw _
  · exact anytime_pure ()

theorem ensureCallRecordExists_founded : IsFounded cfg (ensureCallRecordExists callId) := by
  refine founded_call cfg (fun _ => trivial) fun _ s => ?_
  dsimp only
  split
  · exact anytime_pure ()
  refine founded_call cfg (fun _ => trivial) fun r _ => ?_
  split
  · exact anytime_pure ()
  · exact anytime_bind (anytime_attempt (founded_call cfg (fun _ => trivial) fun _ _ =>
      createCall_founded cfg callId _)) fun _ => markCreatorBusyForCall_founded cfg _ callId _

theorem markEnded_founded (call : CallDoc) : IsFounded cfg (markEnded callId call) :=
  anytime_bind (dateNow_founded cfg) fun _ => saveCall_founded cfg callId

theorem handleCallEnded_founded : IsFounded cfg (handleCallEnded cfg callId t) := by
  refine anytime_bind (anytime_attempt (finalizeCallEnd_founded cfg callId t)) fun _ => ?_
  refine founded_call cfg (fun _ => trivial) fun _ s => ?_
  dsimp only
  split
  · exact markEnded_founded cfg callId _
  refine founded_call cfg (fun _ => trivial) fun r _ => ?_
  split
  · exact anytime_pure ()
  · exact founded_call cfg (fun _ => trivial) fun r _ => anytime_bind
      (createCall_founded cfg callId _) fun _ => markEnded_founded cfg callId _

theorem handleSessionEnded_founded (endedAt : Option ℤ) (t : EndTokens) :
    IsFounded cfg (handleSessionEnded cfg callId endedAt t) := by
  refine anytime_bind (anytime_attempt (finalizeCallEnd_founded cfg callId t)) fun _ => ?_
  refine founded_call cfg (fun _ => trivial) fun _ s => ?_
  dsimp only
  split
  · exact anytime_pure ()
  split
  · exact anytime_pure ()
  · exact anytime_bind (dateNow_founded cfg) fun now => saveCall_founded cfg callId

theorem markBusy_founded {α : Type} (uid : Option String) (phase : BusyPhase)
    {f : Unit → VideoFlow α} (hf : IsFounded cfg (f ())) :
    IsFounded cfg (match uid with
      | some uid => markCreatorBusyForCall callId uid phase >>= f
      | _ => f ()) := by
  split
  · exact anytime_bind (markCreatorBusyForCall_founded cfg _ callId phase) fun _ => hf
  · exact hf

theorem startBillingOfCall_founded (token : String) :
    IsFounded cfg (startBillingOfCall cfg callId token) := by
  refine founded_call cfg (fun _ => trivial) fun r _ => ?_
  extract_lets
  refine markBusy_founded cfg callId r.creatorUid .sessionStarted ?_
  refine founded_call cfg (fun _ => trivial) fun r' _ => ?_
  dsimp only
  split
  · refine founded_call cfg (fun _ => trivial) fun r _ => ?_
    split
    · exact anytime_bind (anytime_attempt (onStart_founded cfg callId
        (startBillingSession_justified cfg.billing token _))) fun _ => anytime_pure ()
    · exact anytime_pure ()
  · exact anytime_pure ()

theorem markSessionStarted_founded : IsFounded cfg (do
    let (r, _) ← run .query
    if let some uid := r.creatorUid then
      markCreatorBusyForCall callId uid .sessionStarted : VideoFlow Unit) := by
  refine founded_call cfg (fun _ => trivial) fun r _ => ?_
  dsimp only
  split
  · exact markCreatorBusyForCall_founded cfg _ callId .sessionStarted
  · exact anytime_pure ()

theorem handleSessionStarted_founded (startedAt : Option ℤ) (token : String) :
    IsFounded cfg (handleSessionStarted cfg callId startedAt token) := by
  refine anytime_bind (ensureCallRecordExists_founded cfg callId) fun _ => ?_
  refine founded_call cfg (fun _ => trivial) fun _ s => ?_
  dsimp only
  split
  · exact markSessionStarted_founded cfg callId
  refine founded_call cfg (fun _ => trivial) fun _ s => ?_
  split
  · exact markSessionStarted_founded cfg callId
  · exact founded_call cfg (fun _ => trivial) fun r _ => founded_call cfg (fun _ => trivial)
      fun _ _ => startBillingOfCall_founded cfg callId token

/-- **A slot that the overlap check deletes names a call without a session**, as long as what it read
stands. -/
theorem readActiveCallConflict_founded (uid : String) :
    IsFounded cfg (readActiveCallConflict callId uid) := by
  intro w
  refine follows_guarded_bind trivial (fun _ _ => trivial) fun r₀ s₀ _ => ?_
  dsimp only
  split
  · exact anytime_pure _ _
  rename_i activeCallId hslot
  split
  · exact anytime_pure _ _
  refine follows_query cfg fun r₁ s₁ => ?_
  split
  · exact anytime_pure _ _
  rename_i hsession
  have hfound : FoundWithoutSession callId uid [(r₀, s₀), (r₁, s₁)] := by
    intro t now hstands other hother _
    have hread : t.slot uid = some activeCallId := (hstands.same (r₀, s₀) (by simp)).slot ▸ hslot
    obtain rfl := Option.some.inj (hother ▸ hread)
    rw [← (hstands.same (r₁, s₁) (by simp)).session _ hread]
    exact Option.not_isSome_iff_eq_none.1 hsession
  refine follows_guarded_bind hfound (fun _ _ => trivial) fun _ _ _ => ?_
  exact follows_query cfg fun _ _ => trivial

theorem rejectOverlappingIncomingCallIfNeeded_founded :
    IsFounded cfg (rejectOverlappingIncomingCallIfNeeded cfg callId t) := by
  refine founded_call cfg (fun _ => trivial) fun r _ => ?_
  dsimp only
  split
  · exact anytime_pure _
  refine anytime_bind (readActiveCallConflict_founded cfg callId _) fun callerConflict => ?_
  refine anytime_bind (readActiveCallConflict_founded cfg callId _) fun creatorConflict => ?_
  split
  · exact anytime_pure _
  refine founded_call cfg (fun _ => trivial) fun _ s => ?_
  split
  · exact anytime_pure _
  · exact anytime_bind (anytime_attempt (finalizeCallEnd_founded cfg callId t)) fun _ =>
      anytime_pure _

theorem handleCallRinging_founded : IsFounded cfg (handleCallRinging cfg callId t) := by
  refine anytime_bind (ensureCallRecordExists_founded cfg callId) fun _ => ?_
  refine anytime_bind (rejectOverlappingIncomingCallIfNeeded_founded cfg callId t)
    fun rejected => ?_
  split
  · exact anytime_pure ()
  refine founded_call cfg (fun _ => trivial) fun r _ => ?_
  dsimp only
  split
  · exact anytime_pure ()
  refine founded_call cfg (fun _ => trivial) fun r _ => ?_
  split
  · exact founded_call cfg (fun _ => trivial) fun _ _ => anytime_pure ()
  · exact markCreatorBusyForCall_founded cfg _ callId .ringing

theorem handleCallAccepted_founded : IsFounded cfg (handleCallAccepted callId) := by
  refine anytime_bind (ensureCallRecordExists_founded cfg callId) fun _ => ?_
  refine founded_call cfg (fun _ => trivial) fun r _ => ?_
  dsimp only
  split
  · exact anytime_pure ()
  · exact markCreatorBusyForCall_founded cfg _ callId .accepted

theorem transitionCallStatusById_founded (nextStatus : CallStatus) :
    IsFounded cfg (transitionCallStatusById callId nextStatus) := by
  refine founded_call cfg (fun _ => trivial) fun _ s => ?_
  dsimp only
  split
  · exact anytime_pure ()
  · exact anytime_bind (dateNow_founded cfg) fun now => saveCall_founded cfg callId

theorem routeEvent_founded (token : String) (event : Webhook) :
    IsFounded cfg (routeEvent cfg callId t token event) := by
  cases event <;> simp [handleCallRinging_founded, handleCallAccepted_founded,
    handleSessionStarted_founded, handleSessionEnded_founded, handleCallEnded_founded, routeEvent]

end ends

/-- **Every deletion of a slot is founded.** -/
theorem program_founded (cfg : VideoConfig) (q : Request) :
    (program cfg q).Follows (slotWatch cfg) [] fun _ _ => True := by
  have hone : ∀ {c : VideoCmd}, (∀ w, Founded cfg w c) → IsFounded cfg (do
      let _ ← quiet c
      pure () : VideoFlow Unit) := fun hc =>
    founded_call cfg hc fun _ _ => anytime_pure ()
  have hreturn : ∀ {f : VideoFlow Unit}, IsFounded cfg f →
      (f.run >>= fun _ => (.ret () : Prog VideoCmd VideoReply VideoStore Unit)).Follows
        (slotWatch cfg) [] fun _ _ => True := fun hf =>
    Prog.follows_bind.2 (Prog.Follows.mono (hf []) fun _ _ _ => trivial)
  refine hreturn ?_
  cases q with
  | webhook callId event t token => exact routeEvent_founded cfg callId t token event
  | explicitEnd callId t => exact endExplicitly_founded cfg callId t
  | finalize callId t => exact finalizeCallEnd_founded cfg callId t
  | transition callId nextStatus => exact transitionCallStatusById_founded cfg callId nextStatus
  | start callId token q =>
    exact onStart_founded cfg callId (startBillingSession_justified cfg.billing token q)
  | settlement callId q => exact onSettlement_founded cfg callId _
  | deleteKeys callId p =>
    exact founded_call cfg (fun _ => trivial) fun _ _ =>
      onStart_founded cfg callId (deleteBillingSessionRedisKeys_justified p)
  | deadLetterSlot callId uid => exact clearSlotOfDeadLetter_founded cfg uid callId
  | upsertCall | expireKey | expireSlot | expireSession => exact hone fun _ => trivial

/-! ### Runs -/

section

variable {cfg : VideoConfig} {w : Window} {s : VideoStore} {c : VideoCmd} {r : VideoReply}
  {uid other : String}

theorem isStaleHolder_mono {now now' : ℤ} {session : Option CallSession} (hnow : now ≤ now')
    (h : isStaleHolder now session = true) : isStaleHolder now' session = true := by
  cases session with
  | none => rfl
  | some c =>
    have hage : sessionAgeMs now c ≤ sessionAgeMs now' c := by
      rw [sessionAgeMs, sessionAgeMs]
      split
      · exact max_le_max le_rfl (by omega)
      · exact le_rfl
    simp only [isStaleHolder, Bool.or_eq_true, Bool.and_eq_true, decide_eq_true_eq] at h ⊢
    rcases h with h | ⟨hstarting, hlong⟩
    · exact .inl h
    · exact .inr ⟨hstarting, by omega⟩

theorem slot_set {uid' : String} {v : Option String} (hslot : s.slot uid = some other)
    (h : uid = uid' → v = some other) : (s.start.setSlot uid' v).slots uid = some other := by
  rw [ActiveCallStore.slots_setSlot]
  split
  · rename_i hid
    exact h hid
  · exact hslot

theorem slots_start {callId : String} {c : ActiveCallCmd} (hr : r.delivered = true)
    (hjustified : Justified callId w.starts c)
    (hcareful : Careful cfg (w, ⟨s, .start callId c, r, exec (.start callId c) r s⟩))
    (hslot : s.slot uid = some other) (hne : callId ≠ other)
    (hlive : s.slotLive cfg r.now other uid = true) :
    (ActiveCall.effect r.toActive s.start c).slots uid = some other := by
  cases c with
  | reserve id p =>
    obtain rfl : id = callId := hjustified
    rw [ActiveCall.effect]
    split
    · rename_i hfree
      -- both slots are empty or of the call itself, so neither is the other's
      rw [ActiveCallStore.reservable, Bool.and_eq_true] at hfree
      have hother : ∀ uid', (s.start.slots uid').all (· == id) = true → uid ≠ uid' := by
        rintro uid' hall rfl
        rw [show s.start.slots uid = some other from hslot] at hall
        exact hne (beq_iff_eq.1 hall).symm
      have hset : ((s.start.setSlot p.1 (some id)).setSlot p.2 (some id)).slots uid = some other := by
        rw [ActiveCallStore.slots_setSlot, if_neg (hother p.2 hfree.2),
          ActiveCallStore.slots_setSlot, if_neg (hother p.1 hfree.1)]
        exact hslot
      split <;> exact hset
    · exact hslot
  | recoverSlot uid' =>
    refine slot_set hslot ?_
    rintro rfl
    obtain ⟨holder, ⟨x, hx, hread⟩, y, hy, hstale⟩ := hjustified
    obtain ⟨x, hxw, rfl⟩ := List.mem_map.1 hx
    obtain ⟨y, hyw, rfl⟩ := List.mem_map.1 hy
    obtain ⟨hstands, hdead⟩ := hcareful hr
    have hholder : s.slot uid = some holder := ((hstands.same x hxw).slot).symm.trans hread
    obtain rfl := Option.mem_unique hslot hholder
    have hsession : y.2.session other = s.session other := (hstands.same y hyw).session other hslot
    have hdead' : s.slotLive cfg r.now other uid = false := hdead other hslot (Ne.symm hne)
      (isStaleHolder_mono (hstands.earlier y hyw) (hsession ▸ hstale))
    simp [hlive] at hdead'
  | delSlot uid' =>
    refine slot_set hslot ?_
    rintro rfl
    obtain ⟨x, hx, hread⟩ := hjustified
    obtain ⟨x, hxw, rfl⟩ := List.mem_map.1 hx
    have hown : s.slot uid = some callId := (((hcareful hr).same x hxw).slot).symm.trans hread
    exact absurd (Option.mem_unique hown hslot) hne
  | releaseSlot uid' id =>
    obtain rfl : id = callId := hjustified
    rw [ActiveCall.effect]
    split
    · rename_i hid
      refine slot_set hslot ?_
      rintro rfl
      exact absurd (Option.mem_unique hid hslot) hne
    · exact hslot
  | expireSlot uid' => exact hjustified.elim
  | lockStart | unlockStart | lockPair | recoverPair | releasePair =>
    rw [ActiveCall.effect]
    split <;> exact hslot
  | _ => exact hslot

/-- **One command**: a founded deletion that finds what it rests on steals no slot. -/
theorem noSteal_of_founded (hfounded : Founded cfg w c)
    (hcareful : Careful cfg (w, ⟨s, c, r, exec c r s⟩)) : NoSteal cfg ⟨s, c, r, exec c r s⟩ := by
  intro hevent uid other hslot hwriter hlive
  show (exec c r s).slot uid = some other
  obtain hs | ⟨hr, hs⟩ | ⟨id, l, hs⟩ := exec_cases s c r
  · rw [hs]
    exact hslot
  · have hcareful := hcareful
    rw [hs]
    cases c with
    | setSlot callId uid' =>
      refine slot_set hslot ?_
      rintro rfl
      have hdead : s.slotLive cfg r.now other uid = false :=
        hcareful hr other hslot fun hid => hwriter (congrArg some hid.symm)
      simp [hlive] at hdead
    | delSlot source callId uid' =>
      refine slot_set hslot ?_
      rintro rfl
      have hne : other ≠ callId := fun hid => hwriter (congrArg some hid.symm)
      cases source with
      | stale =>
        have hdead := hfounded s r.now (hcareful hr) other hslot hne
        simp [show s.slotLive cfg r.now other uid = true from hlive] at hdead
      | conflict =>
        obtain ⟨hstands, hdead⟩ := hcareful hr
        have hdead' : s.slotLive cfg r.now other uid = false :=
          hdead other hslot hne (hfounded s r.now hstands other hslot hne)
        simp [hlive] at hdead'
      | deadLetter => cases hevent
    | expireSlot uid' => cases hevent
    | start callId c =>
      have hne : callId ≠ other := fun hid => hwriter (congrArg some hid)
      exact slots_start hr hfounded hcareful hslot hne hlive
    | createCall callId call | upsertCall callId =>
      rw [effect, VideoStore.insertCall]
      split <;> exact hslot
    | rehydrate callId =>
      rw [effect]
      split <;> exact hslot
    | settlement callId c => cases c <;> exact hslot
    | _ => exact hslot
  · rw [hs]
    exact hslot

end

def watchedRun (cfg : VideoConfig) (s : VideoStore) (ms : List (Move Request VideoReply)) :
    Watched Window VideoCmd VideoReply VideoStore :=
  (Watched.start s).play Window.next (fun _ => []) exec (program cfg) ms

/-- **No event steals a live slot** in a run whose writes of slots are careful. -/
theorem noSteal_of_careful {cfg : VideoConfig} {s : VideoStore} {ms : List (Move Request VideoReply)}
    (h : ∀ x ∈ (watchedRun cfg s ms).log, Careful cfg x) :
    ∀ e ∈ (runOf cfg s ms).log, NoSteal cfg e :=
  Watched.forall_log (program_founded cfg) (fun _ _ _ _ => noSteal_of_founded) ms h

/-! ### Sample runs -/

/-- A busy mark that finds the slot empty or its own, or no write of a slot that does not compare. -/
def harmless (e : VideoEvent) : Bool :=
  match e.cmd with
  | .setSlot callId uid => (e.before.slot uid).all (· == callId)
  | .delSlot .. | .start _ (.delSlot _) | .start _ (.recoverSlot _) => false
  | _ => true

theorem careful_of_harmless {cfg : VideoConfig} {x : Window × VideoEvent}
    (h : harmless x.2 = true) : Careful cfg x := by
  obtain ⟨w, t, c, r, t'⟩ := x
  intro _
  cases c with
  | setSlot callId uid =>
    intro other hother hne
    replace h : (t.slot uid).all (· == callId) = true := h
    rw [show t.slot uid = some other from hother] at h
    exact absurd (beq_iff_eq.1 h) hne
  | delSlot => cases h
  | start callId c =>
    cases c with
    | delSlot | recoverSlot => cases h
    | _ => trivial
  | _ => trivial

/-- A second call with the same creator is refused its slot. -/
def sampleRefused : List (Move Request VideoReply) :=
  .spawn (.start "call" "token" ⟨"user-uid", "creator-uid", "creator"⟩) ::
    .spawn (.start "other" "token" ⟨"other-uid", "creator-uid", "creator"⟩) ::
      (steps 0 30 ++ steps 1 30)

theorem noSteal_sample :
    (runOf sampleVideoConfig freshVideo sampleRefused).log.any (fun e =>
      e.cmd.writer == some "other" && e.before.slot "creator-uid" == some "call" &&
        e.before.slotLive sampleVideoConfig e.ans.now "call" "creator-uid") = true ∧
      ∀ e ∈ (runOf sampleVideoConfig freshVideo sampleRefused).log,
        NoSteal sampleVideoConfig e := by
  have hall : (watchedRun sampleVideoConfig freshVideo sampleRefused).log.all
      (fun x => harmless x.2) = true := by
    decide +kernel
  have hother : (runOf sampleVideoConfig freshVideo sampleRefused).log.any (fun e =>
      e.cmd.writer == some "other" && e.before.slot "creator-uid" == some "call" &&
        e.before.slotLive sampleVideoConfig e.ans.now "call" "creator-uid") = true := by
    decide +kernel
  exact ⟨hother, noSteal_of_careful fun x hx =>
    careful_of_harmless (List.all_eq_true.1 hall x hx)⟩

def sampleOverlap : List (Move Request VideoReply) :=
  .spawn (.upsertCall "other") :: .spawn (.webhook "call" .ringing sampleTokens "token") ::
    .spawn (.webhook "other" .ringing sampleTokens "token") :: (steps 0 1 ++ steps 1 20 ++ steps 2 20)

def sampleOvertaken : List (Move Request VideoReply) :=
  .spawn (.webhook "call" .ringing sampleTokens "token") ::
    .spawn (.webhook "other" .accepted sampleTokens "token") :: (steps 0 20 ++ steps 1 20)

theorem not_noSteal_of_event {cfg : VideoConfig} {log : List VideoEvent} {uid other : String}
    (h : log.any (fun e => e.cmd.isEvent && e.before.slot uid == some other &&
      e.cmd.writer != some other && e.before.slotLive cfg e.ans.now other uid &&
      e.after.slot uid != some other) = true) : ¬ ∀ e ∈ log, NoSteal cfg e := by
  intro hnone
  obtain ⟨e, he, hsteal⟩ := List.any_eq_true.1 h
  simp only [Bool.and_eq_true, beq_iff_eq, bne_iff_ne] at hsteal
  obtain ⟨⟨⟨⟨hevent, hslot⟩, hwriter⟩, hlive⟩, hafter⟩ := hsteal
  exact hafter (hnone e he hevent uid other hslot hwriter hlive)

/-- The overlap check deletes the slot of a ringing call, and a busy mark overwrites it. -/
theorem slots_stolen :
    (¬ ∀ e ∈ (runOf sampleVideoConfig freshVideo sampleOverlap).log, NoSteal sampleVideoConfig e) ∧
      ¬ ∀ e ∈ (runOf sampleVideoConfig freshVideo sampleOvertaken).log,
        NoSteal sampleVideoConfig e := by
  constructor
  · refine @not_noSteal_of_event _ _ "creator-uid" "call" ?_
    decide +kernel
  · refine @not_noSteal_of_event _ _ "creator-uid" "call" ?_
    decide +kernel

end VibemeetBackend.Video
