import VibemeetBackend.ActiveCall.OneLive
import VibemeetBackend.ActiveCall.Stages
import VibemeetBackend.Async.Among

/-!
# What a failed start leaves behind

The keys that a start creates, and those that are still there when it returns or throws without an
active session.
-/

namespace VibemeetBackend.ActiveCall

open Async Billing EndedCall

inductive StartKey where
  | session
  | intro
  | wallet
  | earnings
  | userSlot
  | creatorSlot
  | callpair
  | orchestrator

/-- A key of the call is there, and names the call where it has a value.  An orchestrator claim
counts when it suppresses a later start, which it does while the call has a session. -/
def Names (callId : String) (q : StartRequest) (s : ActiveCallStore) : StartKey → Prop
  | .session => (s.session callId).isSome = true
  | .intro => (s.billing callId).introMicros.isSome = true
  | .wallet => (s.billing callId).walletMicros.isSome = true
  | .earnings => (s.billing callId).earnings.isSome = true
  | .userSlot => s.slots q.userFirebaseUid = some callId
  | .creatorSlot => s.slots q.creatorFirebaseUid = some callId
  | .callpair => s.callpair (pairKeyOf q) = some callId
  | .orchestrator => s.orchestrator callId = true ∧ (s.session callId).isSome = true

section residue

variable (callId : String) (q : StartRequest)

def Creates (e : ActiveCallEvent) (k : StartKey) : Prop :=
  ¬ Names callId q e.before k ∧ Names callId q e.after k

def NoResidue (es : List ActiveCallEvent) (s' : ActiveCallStore) : Prop :=
  ∀ k, (∃ e ∈ es, Creates callId q e k) → ¬ Names callId q s' k

def Activates (e : ActiveCallEvent) : Prop :=
  e.ans.delivered = true ∧ ∃ c : CallSession, e.cmd = .billing callId (.persistSession c) ∧
    c.lifecycleState = some .active

def TakesPair (e : ActiveCallEvent) : Prop :=
  e.cmd = .lockPair (pairKeyOf q) callId ∧ e.ans.delivered = true ∧
    e.before.callpair (pairKeyOf q) = none

def Claims (e : ActiveCallEvent) : Prop :=
  e.cmd = .claimOrchestrator callId ∧ e.ans.delivered = true ∧
    e.before.orchestrator callId = false

def Clears (e : ActiveCallEvent) : Prop :=
  e.cmd = .clearSeed callId ∧ e.ans.delivered = true

/-- The start never takes the call-pair lock, and it clears the session over which it claimed the
orchestrator, if there was one. -/
structure Unreserved (s : ActiveCallStore) (es : List ActiveCallEvent) : Prop where
  pair : ∀ e ∈ es, ¬ TakesPair callId q e
  claim : (s.session callId).isSome = true → (∃ e ∈ es, Claims callId e) → ∃ e ∈ es, Clears callId e

/-- What others do meanwhile: they neither create nor delete the session, the orchestrator claim and
the call-pair lock of this call. -/
structure Leaves (s t : ActiveCallStore) : Prop where
  session : (t.session callId).isSome = (s.session callId).isSome
  orchestrator : t.orchestrator callId = s.orchestrator callId
  callpair : t.callpair (pairKeyOf q) = some callId ↔
    s.callpair (pairKeyOf q) = some callId

end residue

/-! ### What a command changes -/

section effects

variable {callId : String} {q : StartRequest} {φ : StartStage} {c : ActiveCallCmd}
  {r : ActiveCallReply} {t : ActiveCallStore}

theorem callpair_locked (hc : StageAllows callId q .locked c) (r : ActiveCallReply)
    (t : ActiveCallStore) : (exec c r t).callpair = t.callpair := by
  obtain ⟨hexec, -⟩ | ⟨hexec, -⟩ := exec_cases c r t
  · rw [hexec]
  rw [hexec]
  cases c with
  | lockStart | unlockStart =>
    show (if _ then _ else _ : ActiveCallStore).callpair = _
    split
    · rfl
    · rfl
  | reserve id p =>
    show (if t.reservable id p = true then _ else t : ActiveCallStore).callpair = _
    split
    · show (if r.ok = true then _ else _ : ActiveCallStore).callpair = _
      split
      · rfl
      · rfl
    · rfl
  | claimOrchestrator | lockPair => exact absurd rfl hc.1
  | recoverPair | recoverPairDel => exact absurd rfl hc
  | query | clearSeed | delOrchestrator | recoverSlot | delSlot | billing | finish => rfl
  | _ => exact hc.elim

abbrev eventOf (c : ActiveCallCmd) (r : ActiveCallReply) (t : ActiveCallStore) : ActiveCallEvent :=
  ⟨t, c, r, exec c r t⟩

structure SameKeys (callId : String) (q : StartRequest) (t t' : ActiveCallStore) : Prop where
  billing : t'.billing = t.billing
  slots : t'.slots = t.slots
  orchestrator : t'.orchestrator = t.orchestrator
  callpair : t'.callpair (pairKeyOf q) = some callId → t.callpair (pairKeyOf q) = some callId

theorem SameKeys.refl (callId : String) (q : StartRequest) (t : ActiveCallStore) :
    SameKeys callId q t t := ⟨rfl, rfl, rfl, id⟩

theorem sameKeys_setPair_none (callId : String) (q : StartRequest) (t : ActiveCallStore)
    (key : String × String) : SameKeys callId q t (t.setPair key none) := by
  refine ⟨rfl, rfl, rfl, ?_⟩
  intro h
  have hupdate : Function.update t.callpair key none (pairKeyOf q) = some callId := h
  rw [Function.update_apply] at hupdate
  split at hupdate
  · cases hupdate
  · exact hupdate

theorem SameKeys.not_created {t' : ActiveCallStore} (h : SameKeys callId q t t') (k : StartKey) :
    Names callId q t' k → Names callId q t k := by
  intro hk
  cases k with
  | callpair => exact h.callpair hk
  | userSlot | creatorSlot =>
    rw [Names, ← h.slots]
    exact hk
  | session | intro | wallet | earnings =>
    rw [Names]
    first
    | rw [← h.billing]
      exact hk
    | rw [ActiveCallStore.session, ← h.billing]
      exact hk
  | orchestrator =>
    rw [Names, ActiveCallStore.session, ← h.billing, ← h.orchestrator]
    exact hk

/-- **What a start does before it takes the lock**: it claims or deletes the orchestrator key,
clears a seed, or leaves the keys of the call alone. -/
theorem unlocked_cases (hφ : φ ≠ .locked) (hc : StageAllows callId q φ c)
    (hfree : ¬ TakesPair callId q (eventOf c r t)) :
    (SameKeys callId q t (exec c r t) ∧ ¬ Claims callId (eventOf c r t) ∧
      ¬ Clears callId (eventOf c r t)) ∨
    (exec c r t = { t with orchestrator := Function.update t.orchestrator callId true } ∧
      c = .claimOrchestrator callId ∧ r.delivered = true) ∨
    (exec c r t = { t with orchestrator := Function.update t.orchestrator callId false } ∧
      c = .delOrchestrator callId ∧ φ ≠ .fresh) ∨
    (exec c r t = t.clearSeed callId ∧ Clears callId (eventOf c r t)) := by
  have hexec : exec c r t = if r.delivered = true then effect r t c else t := by
    cases c with
    | finish => exact absurd hc hφ
    | _ => rfl
  by_cases hdelivered : r.delivered = true
  swap
  · refine .inl ⟨?_, fun h => hdelivered h.2.1, fun h => hdelivered h.2⟩
    rw [hexec, if_neg hdelivered]
    exact SameKeys.refl callId q t
  rw [hexec, if_pos hdelivered]
  cases c with
  | claimOrchestrator id =>
    obtain rfl : id = callId := hc.2
    exact .inr (.inl ⟨rfl, rfl, hdelivered⟩)
  | delOrchestrator id =>
    obtain rfl : id = callId := hc.2
    exact .inr (.inr (.inl ⟨rfl, rfl, hc.1⟩))
  | clearSeed id =>
    obtain rfl : id = callId := hc
    exact .inr (.inr (.inr ⟨rfl, rfl, hdelivered⟩))
  | query => exact .inl ⟨SameKeys.refl callId q t, fun h => (nomatch h.1), fun h => (nomatch h.1)⟩
  | lockStart id token =>
    refine .inl ⟨?_, fun h => (nomatch h.1), fun h => (nomatch h.1)⟩
    show SameKeys callId q t (if t.startLock id = none then _ else t)
    split
    · exact ⟨rfl, rfl, rfl, fun h => h⟩
    · exact SameKeys.refl callId q t
  | unlockStart id token =>
    refine .inl ⟨?_, fun h => (nomatch h.1), fun h => (nomatch h.1)⟩
    show SameKeys callId q t (if t.startLock id = some token then _ else t)
    split
    · exact ⟨rfl, rfl, rfl, fun h => h⟩
    · exact SameKeys.refl callId q t
  | lockPair key id =>
    obtain ⟨-, rfl, rfl⟩ := hc
    refine .inl ⟨?_, fun h => (nomatch h.1), fun h => (nomatch h.1)⟩
    have hheld : ¬ t.callpair (pairKeyOf q) = none := fun h => hfree ⟨rfl, hdelivered, h⟩
    show SameKeys _ q t (if t.callpair (pairKeyOf q) = none then _ else t)
    rw [if_neg hheld]
    exact SameKeys.refl _ q t
  | recoverPair key holder =>
    refine .inl ⟨?_, fun h => (nomatch h.1), fun h => (nomatch h.1)⟩
    show SameKeys callId q t (if t.callpair key = some holder then _ else t)
    split
    · exact sameKeys_setPair_none callId q t key
    · exact SameKeys.refl callId q t
  | recoverPairDel key =>
    refine .inl ⟨?_, fun h => (nomatch h.1), fun h => (nomatch h.1)⟩
    exact sameKeys_setPair_none callId q t key
  | reserve | recoverSlot | delSlot | billing | finish => exact absurd hc hφ
  | _ => exact hc.elim

theorem session_clearSeed (t : ActiveCallStore) : (t.clearSeed callId).session callId = none := by
  rw [ActiveCallStore.clearSeed, ActiveCallStore.session_setBilling, if_pos rfl]

theorem session_unlocked (hφ : φ ≠ .locked) (hc : StageAllows callId q φ c)
    (hfree : ¬ TakesPair callId q (eventOf c r t)) :
    ((exec c r t).session callId).isSome = true ↔
      (t.session callId).isSome = true ∧ ¬ Clears callId (eventOf c r t) := by
  obtain ⟨hsame, -, hclear⟩ | ⟨hexec, rfl, -⟩ | ⟨hexec, rfl, -⟩ | ⟨hexec, hclear⟩ :=
    unlocked_cases hφ hc hfree
  · rw [ActiveCallStore.session, hsame.billing]
    exact (and_iff_left hclear).symm
  · rw [hexec]
    refine (and_iff_left ?_).symm
    rintro ⟨⟨⟩, -⟩
  · rw [hexec]
    refine (and_iff_left ?_).symm
    rintro ⟨⟨⟩, -⟩
  · rw [hexec, session_clearSeed]
    exact iff_of_false Bool.false_ne_true fun h => h.2 hclear

theorem created_unlocked (hφ : φ ≠ .locked) (hc : StageAllows callId q φ c)
    (hfree : ¬ TakesPair callId q (eventOf c r t)) {k : StartKey}
    (hk : Creates callId q (eventOf c r t) k) :
    k = .orchestrator ∧ Claims callId (eventOf c r t) := by
  obtain ⟨hbefore, hafter⟩ := hk
  have hkept : ¬ Names callId q t k := hbefore
  have hnew : Names callId q (exec c r t) k := hafter
  obtain ⟨hsame, -, -⟩ | ⟨hexec, rfl, hdelivered⟩ | ⟨hexec, rfl, -⟩ | ⟨hexec, hclear⟩ :=
    unlocked_cases hφ hc hfree
  · exact absurd (hsame.not_created k hnew) hkept
  · rw [hexec] at hnew
    cases k with
    | orchestrator =>
      refine ⟨rfl, rfl, hdelivered, ?_⟩
      cases horch : t.orchestrator callId with
      | true => exact absurd ⟨horch, hnew.2⟩ hkept
      | false => rfl
    | _ => exact absurd hnew hkept
  · rw [hexec] at hnew
    cases k with
    | orchestrator =>
      have hdeleted : Function.update t.orchestrator callId false callId = true := hnew.1
      simp [Function.update_self] at hdeleted
    | _ => exact absurd hnew hkept
  · rw [hexec] at hnew
    cases k with
    | userSlot | creatorSlot | callpair => exact absurd hnew hkept
    | session =>
      simp [Names, session_clearSeed] at hnew
    | orchestrator =>
      rw [Names, session_clearSeed] at hnew
      cases hnew.2
    | intro | wallet | earnings =>
      simp [Names, ActiveCallStore.clearSeed, ActiveCallStore.setBilling] at hnew

theorem orchestrator_unlocked (hφ : φ ≠ .locked) (hc : StageAllows callId q φ c)
    (hfree : ¬ TakesPair callId q (eventOf c r t)) (hsession : (t.session callId).isSome = true)
    (hmissed : φ = .missed → (t.session callId).isSome = false) :
    (t.orchestrator callId = true → (exec c r t).orchestrator callId = true) ∧
      (Claims callId (eventOf c r t) → (exec c r t).orchestrator callId = true) := by
  obtain ⟨hsame, hclaim, -⟩ | ⟨hexec, rfl, -⟩ | ⟨-, rfl, hfresh⟩ | ⟨hexec, hclear⟩ :=
    unlocked_cases hφ hc hfree
  · rw [hsame.orchestrator]
    exact ⟨fun h => h, fun h => absurd h hclaim⟩
  · simp [hexec]
  · cases φ <;> simp_all
  · rw [hexec]
    refine ⟨fun h => h, ?_⟩
    intro hclaim
    cases hclaim.1.symm.trans hclear.1

theorem nextStage_unlocked (hφ : φ ≠ .locked) (hc : StageAllows callId q φ c)
    (hfree : ¬ TakesPair callId q (eventOf c r t)) : nextStage callId φ c r t ≠ .locked := by
  cases c with
  | query => exact nextStage_query_ne callId hφ r t
  | lockPair key id =>
    obtain ⟨-, rfl, rfl⟩ := hc
    have hheld : ¬ (r.delivered = true ∧ t.callpair (pairKeyOf q) = none) :=
      fun h => hfree ⟨rfl, h⟩
    rw [nextStage, if_neg hheld]
    exact hφ
  | _ => exact hφ

theorem nextStage_missed (h : nextStage callId φ c r t = .missed)
    (hmissed : φ = .missed → (t.session callId).isSome = false) :
    (t.session callId).isSome = false := by
  cases c with
  | query =>
    rw [nextStage] at h
    split at h
    · rename_i hnone
      simpa using hnone.2
    · exact hmissed h
  | lockPair key id =>
    rw [nextStage] at h
    split at h
    · cases h
    · exact hmissed h
  | _ => exact hmissed h

end effects

/-! ### The invariant of a start -/

/-- Before the lock is taken: what was created is a claim, and the session is there as long as it
was there and nothing cleared it. -/
structure Unlocked (callId : String) (q : StartRequest) (s₀ : ActiveCallStore) (φ : StartStage)
    (log : List ActiveCallEvent) (s : ActiveCallStore) : Prop where
  pair : ∀ e ∈ log, ¬ TakesPair callId q e
  creates : ∀ e ∈ log, ∀ k, Creates callId q e k → k = .orchestrator ∧ Claims callId e
  session : (s.session callId).isSome = true ↔
    (s₀.session callId).isSome = true ∧ ∀ e ∈ log, ¬ Clears callId e
  claim : (∃ e ∈ log, Claims callId e) → (s.session callId).isSome = true →
    s.orchestrator callId = true ∧ ∃ e ∈ log, Creates callId q e .orchestrator
  missed : φ = .missed → (s.session callId).isSome = false

structure StageInv (callId : String) (q : StartRequest) (s₀ : ActiveCallStore) (φ : StartStage)
    (log : List ActiveCallEvent) (s : ActiveCallStore) : Prop where
  locked : φ = .locked → Names callId q s .callpair ∧
    ∃ e ∈ log, TakesPair callId q e ∧ Creates callId q e .callpair
  unlocked : φ ≠ .locked → Unlocked callId q s₀ φ log s

section invariant

variable {callId : String} {q : StartRequest} {s₀ : ActiveCallStore} {φ : StartStage}
  {log : List ActiveCallEvent} {c : ActiveCallCmd} {r : ActiveCallReply} {s t : ActiveCallStore}

theorem stageInv_start (s : ActiveCallStore) : StageInv callId q s .fresh [] s := by
  have hempty : ∀ {P : ActiveCallEvent → Prop}, ∀ e ∈ ([] : List ActiveCallEvent), P e := by
    intro P e he
    cases he
  refine ⟨fun h => (nomatch h), fun _ => ⟨hempty, hempty, ?_, ?_, fun h => (nomatch h)⟩⟩
  · exact (and_iff_left hempty).symm
  · rintro ⟨e, he, -⟩
    cases he

theorem StageInv.leaves (h : StageInv callId q s₀ φ log s) (hothers : Leaves callId q s t) :
    StageInv callId q s₀ φ log t := by
  refine ⟨?_, ?_⟩
  · intro hφ
    have hlocked := h.locked hφ
    exact ⟨hothers.callpair.2 hlocked.1, hlocked.2⟩
  · intro hφ
    have hfree := h.unlocked hφ
    refine ⟨hfree.pair, hfree.creates, ?_, ?_, ?_⟩
    · rw [hothers.session]
      exact hfree.session
    · rw [hothers.session, hothers.orchestrator]
      exact hfree.claim
    · rw [hothers.session]
      exact hfree.missed

theorem Unlocked.step (h : Unlocked callId q s₀ φ log t) (hφ : φ ≠ .locked)
    (hc : StageAllows callId q φ c) (hfree : ¬ TakesPair callId q (eventOf c r t)) :
    Unlocked callId q s₀ (nextStage callId φ c r t) (log ++ [eventOf c r t]) (exec c r t) := by
  have hsession := session_unlocked hφ hc hfree
  refine ⟨?_, ?_, ?_, ?_, ?_⟩
  · intro e he
    obtain he | rfl := List.mem_append.1 he |>.imp id List.mem_singleton.1
    · exact h.pair e he
    · exact hfree
  · intro e he k hk
    obtain he | rfl := List.mem_append.1 he |>.imp id List.mem_singleton.1
    · exact h.creates e he k hk
    · exact created_unlocked hφ hc hfree hk
  · rw [hsession, h.session, and_assoc, List.forall_mem_append, List.forall_mem_singleton]
  · rintro ⟨e, he, hclaim⟩ hlive
    have hbefore := (hsession.1 hlive).1
    have hkept := orchestrator_unlocked hφ hc hfree hbefore h.missed
    obtain he | rfl := List.mem_append.1 he |>.imp id List.mem_singleton.1
    · obtain ⟨horch, e', he', hcreates⟩ := h.claim ⟨e, he, hclaim⟩ hbefore
      exact ⟨hkept.1 horch, e', List.mem_append_left _ he', hcreates⟩
    · refine ⟨hkept.2 hclaim, eventOf c r t, List.mem_concat_self, ?_⟩
      refine ⟨?_, hkept.2 hclaim, hlive⟩
      intro hnames
      cases hnames.1.symm.trans hclaim.2.2
  · intro hmissed
    have hbefore := nextStage_missed hmissed h.missed
    rw [← Bool.not_eq_true]
    intro hlive
    simp [(hsession.1 hlive).1] at hbefore

theorem takesPair_step (htakes : TakesPair callId q (eventOf c r t)) :
    nextStage callId φ c r t = .locked ∧ Creates callId q (eventOf c r t) .callpair := by
  obtain ⟨hcmd, hdelivered, hnone⟩ := htakes
  obtain rfl : c = .lockPair (pairKeyOf q) callId := hcmd
  have hdelivered : r.delivered = true := hdelivered
  have hnone : t.callpair (pairKeyOf q) = none := hnone
  refine ⟨?_, ?_, ?_⟩
  · rw [nextStage, if_pos ⟨hdelivered, hnone⟩]
  · intro hnames
    have hheld : t.callpair (pairKeyOf q) = some callId := hnames
    simp [hnone] at hheld
  · show (if r.delivered = true then effect r t _ else t).callpair (pairKeyOf q) = some callId
    rw [if_pos hdelivered]
    show (if t.callpair (pairKeyOf q) = none then _ else t : ActiveCallStore).callpair _ = _
    rw [if_pos hnone]
    exact Function.update_self ..

/-- **One command of a start.** -/
theorem StageInv.step {ψ : StartStage} (h : StageInv callId q s₀ φ log t)
    (hδ : startStage callId q φ c r t = some ψ) :
    StageInv callId q s₀ ψ (log ++ [eventOf c r t]) (exec c r t) := by
  obtain ⟨hc, rfl⟩ := Flow.guarded_eq_some hδ
  by_cases hφ : φ = .locked
  · subst hφ
    obtain ⟨hnames, e, he, htaken⟩ := h.locked rfl
    rw [nextStage_locked]
    refine ⟨fun _ => ⟨?_, e, List.mem_append_left _ he, htaken⟩, fun hne => absurd rfl hne⟩
    rw [Names, callpair_locked hc r t]
    exact hnames
  have hfree := h.unlocked hφ
  by_cases htakes : TakesPair callId q (eventOf c r t)
  · obtain ⟨hlocked, hcreates⟩ := takesPair_step (φ := φ) htakes
    rw [hlocked]
    refine ⟨fun _ => ⟨hcreates.2, ?_⟩, fun hne => absurd rfl hne⟩
    exact ⟨_, List.mem_concat_self, htakes, hcreates⟩
  · have hnext := nextStage_unlocked hφ hc htakes
    exact ⟨fun hlocked => absurd hlocked hnext, fun _ => hfree.step hφ hc htakes⟩

end invariant

/-- A start that returns or throws without an active session leaves no key that it created just when
it never takes the call-pair lock and clears the session over which it claimed the orchestrator. -/
theorem noResidue_iff (cfg : BillingConfig) (callId token : String) (q : StartRequest)
    (s s' : ActiveCallStore) (es : List ActiveCallEvent) (x : Except String Unit)
    (hrun : (startBillingSession cfg callId token q).run.Among exec (Leaves callId q) s es s' x) :
    (∀ e ∈ es, ¬ Activates callId e) →
      (NoResidue callId q es s' ↔ Unreserved callId q s es) := by
  intro _
  have hstages : (startBillingSession cfg callId token q).run.Follows (startStage callId q) .fresh
      fun _ _ => True := by
    apply Prog.Follows.mono startBillingSession_stages
    intro _ _ _
    trivial
  obtain ⟨φ, -, hinv⟩ := hrun.invariant hstages (fun _ _ _ _ _ _ hδ h => h.step hδ)
    (fun _ _ _ _ hothers h => h.leaves hothers) (stageInv_start s)
  by_cases hφ : φ = .locked
  · obtain ⟨hnames, e, he, htakes, hcreates⟩ := hinv.locked hφ
    apply iff_of_false
    · intro hno
      exact hno .callpair ⟨e, he, hcreates⟩ hnames
    · intro hun
      exact hun.pair e he htakes
  have hfree := hinv.unlocked hφ
  constructor
  · intro hno
    refine ⟨hfree.pair, ?_⟩
    intro hlive hclaims
    by_contra hclear
    have hkept : ∀ e ∈ es, ¬ Clears callId e := fun e he h => hclear ⟨e, he, h⟩
    have hstays := hfree.session.2 ⟨hlive, hkept⟩
    obtain ⟨horch, hcreates⟩ := hfree.claim hclaims hstays
    exact hno .orchestrator hcreates ⟨horch, hstays⟩
  · intro hun k hcreated hnames
    obtain ⟨e, he, hcreates⟩ := hcreated
    obtain ⟨rfl, hclaim⟩ := hfree.creates e he k hcreates
    obtain ⟨hlive, hkept⟩ := hfree.session.1 hnames.2
    obtain ⟨e', he', hclear⟩ := hun.claim hlive ⟨e, he, hclaim⟩
    exact hkept e' he' hclear

/-! ### Sample runs -/

instance (callId : String) (q : StartRequest) (s : ActiveCallStore) :
    DecidablePred (Names callId q s)
  | .session | .intro | .wallet | .earnings => inferInstanceAs (Decidable (_ = true))
  | .userSlot | .creatorSlot | .callpair => inferInstanceAs (Decidable (_ = some _))
  | .orchestrator => inferInstanceAs (Decidable (_ ∧ _))

instance (callId : String) (q : StartRequest) (e : ActiveCallEvent) :
    DecidablePred (Creates callId q e) := fun _ => inferInstanceAs (Decidable (_ ∧ _))

def ActiveCallCmd.persistsSession : ActiveCallCmd → Bool
  | .billing _ (.persistSession _) => true
  | _ => false

theorem not_activates {callId : String} {es : List ActiveCallEvent}
    (h : es.all (fun e => !e.cmd.persistsSession) = true) : ∀ e ∈ es, ¬ Activates callId e := by
  rintro e he ⟨-, c, hc, -⟩
  have hkeeps := List.all_eq_true.1 h e he
  rw [hc] at hkeeps
  cases hkeeps

def sampleStartFrom (s : ActiveCallStore) (rs : List ActiveCallReply) :
    ActiveCallStore × Option (Except String Unit) :=
  (startBillingSession sampleConfig "call" "token" sampleRequest).run.exec exec rs s

def sampleEventsFrom (s : ActiveCallStore) (rs : List ActiveCallReply) : List ActiveCallEvent :=
  (startBillingSession sampleConfig "call" "token" sampleRequest).run.events exec rs s

def promotionWriteFails : List ActiveCallReply :=
  List.replicate 12 sampleAnswer ++
    { sampleAnswer with delivered := false, answered := false } :: List.replicate 10 sampleAnswer

theorem redis_error_leaves_keys :
    (sampleStartFrom freshStore promotionWriteFails).2.isSome = true ∧
      (∀ e ∈ sampleEventsFrom freshStore promotionWriteFails, ¬ Activates "call" e) ∧
      (∀ k, Names "call" sampleRequest (sampleStartFrom freshStore promotionWriteFails).1 k) ∧
      ¬ NoResidue "call" sampleRequest (sampleEventsFrom freshStore promotionWriteFails)
        (sampleStartFrom freshStore promotionWriteFails).1 := by
  have hcreated : ∃ e ∈ sampleEventsFrom freshStore promotionWriteFails,
      Creates "call" sampleRequest e .session := by decide +kernel
  have hleft : ∀ k, Names "call" sampleRequest
      (sampleStartFrom freshStore promotionWriteFails).1 k := by
    intro k
    cases k <;> decide +kernel
  refine ⟨by decide +kernel, not_activates (by decide +kernel), hleft, ?_⟩
  intro hno
  exact hno .session hcreated (hleft .session)

def blockedStore : ActiveCallStore :=
  { freshStore with
    billing := fun id =>
      if id = "other" then
        { emptyStore with
          session := some { earlySession sampleConfig sampleRequest 1000 with
            lifecycleState := some .active } }
      else emptyStore
    callpair := fun _ => some "other" }

def blockedStart : ActiveCallStore × Option (Except String Unit) :=
  sampleStartFrom blockedStore (List.replicate 10 sampleAnswer)

def blockedEvents : List ActiveCallEvent :=
  sampleEventsFrom blockedStore (List.replicate 10 sampleAnswer)

theorem noResidue_sample :
    NoResidue "call" sampleRequest blockedEvents blockedStart.1 := by
  have hreturns : blockedStart.2.isSome = true := by decide +kernel
  have hheld : blockedEvents.all
      (fun e => (e.before.callpair (pairKeyOf sampleRequest)).isSome) = true := by decide +kernel
  obtain ⟨x, hx⟩ := Option.isSome_iff_exists.1 hreturns
  have hsame : ∀ s, Leaves "call" sampleRequest s s := fun _ => ⟨rfl, rfl, Iff.rfl⟩
  have hexec : blockedStart = (blockedStart.1, some x) := Prod.ext rfl hx
  have hrun := Prog.among_of_exec hsame hexec
  apply (noResidue_iff sampleConfig "call" "token" sampleRequest blockedStore _ _ x hrun
    (not_activates (by decide +kernel))).2
  refine ⟨?_, fun h => ?_⟩
  · intro e he htakes
    have hsome := List.all_eq_true.1 hheld e he
    simp [htakes.2.2] at hsome
  · cases (show false = true from h)

end VibemeetBackend.ActiveCall
