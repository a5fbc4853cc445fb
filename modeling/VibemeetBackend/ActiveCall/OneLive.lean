import VibemeetBackend.ActiveCall.Protocol

/-!
# One live call per participant

Two calls that share a participant should never both be reserved and live.  A slot that names a call
is what keeps other starts away from its participants, so the invariant of a run is that every call
that is starting with a reservation, or live, has the slots of its participants.  The reservation
script keeps it; a deletion of a slot may not.
-/

namespace VibemeetBackend.ActiveCall

open Async Billing EndedCall

abbrev ActiveCallEvent : Type := Event ActiveCallCmd ActiveCallReply ActiveCallStore

namespace ActiveCallStore

variable (s : ActiveCallStore)

def LiveAs (callId : String) (c : CallSession) : Prop :=
  s.session callId = some c ∧ isNonTerminalLifecycle c.lifecycleState = true

def Held (callId : String) : Prop := s.starting callId ≠ [] ∨ ∃ c, s.LiveAs callId c

/-- The call has no start in progress, and its session is absent, settled or failed. -/
def Abandoned (callId : String) : Prop :=
  s.starting callId = [] ∧
    ∀ c, s.session callId = some c → isNonTerminalLifecycle c.lifecycleState = false

def HeldAt (callId uid : String) : Prop :=
  (∃ p ∈ s.starting callId, uid = p.1 ∨ uid = p.2) ∨
    ∃ c, s.LiveAs callId c ∧ (uid = c.userFirebaseUid ∨ uid = c.creatorFirebaseUid)

/-- Live calls that share a participant are one call. -/
def OneLive : Prop :=
  ∀ id₁ id₂ c₁ c₂ uid, s.LiveAs id₁ c₁ → s.LiveAs id₂ c₂ →
    uid = c₁.userFirebaseUid ∨ uid = c₁.creatorFirebaseUid →
    uid = c₂.userFirebaseUid ∨ uid = c₂.creatorFirebaseUid → id₁ = id₂

end ActiveCallStore

/-- Orphan recovery removes no slot or call-pair lock of a call that is starting or live. -/
def RecoverySafe (e : ActiveCallEvent) : Prop :=
  e.ans.delivered = true →
    match e.cmd with
    | .recoverSlot uid => ∀ id, e.before.slots uid = some id → ¬ e.before.Held id
    | .recoverPair key holder => e.before.callpair key = some holder → ¬ e.before.Held holder
    | .recoverPairDel key => ∀ id, e.before.callpair key = some id → ¬ e.before.Held id
    | _ => True

/-- Along a run, no two live calls share a participant, and orphan recovery is safe. -/
def OneLiveCall (log : List ActiveCallEvent) : Prop :=
  ∀ e ∈ log, RecoverySafe e ∧ e.after.OneLive

/-- A deletion of a slot or of a call-pair lock finds no call that needs it: a recovery finds an
abandoned call, and a release or an expiry one that is neither starting nor live with that
participant. -/
def Careful (e : ActiveCallEvent) : Prop :=
  e.ans.delivered = true →
    match e.cmd with
    | .recoverSlot uid => ∀ id, e.before.slots uid = some id → e.before.Abandoned id
    | .recoverPair key holder =>
      e.before.callpair key = some holder → e.before.Abandoned holder
    | .recoverPairDel key => ∀ id, e.before.callpair key = some id → e.before.Abandoned id
    | .delSlot uid | .expireSlot uid =>
      ∀ id, e.before.slots uid = some id → ¬ e.before.HeldAt id uid
    | .releaseSlot uid id => e.before.slots uid = some id → ¬ e.before.HeldAt id uid
    | _ => True

/-! ### Slots of the calls that need them -/

namespace ActiveCallStore

variable {s s' : ActiveCallStore} {id uid : String}

def Slotted (s : ActiveCallStore) : Prop := ∀ id uid, s.HeldAt id uid → s.slots uid = some id

theorem Slotted.oneLive (h : s.Slotted) : s.OneLive := by
  intro id₁ id₂ c₁ c₂ uid h₁ h₂ hu₁ hu₂
  have hs₁ : s.slots uid = some id₁ := h id₁ uid (.inr ⟨c₁, h₁, hu₁⟩)
  have hs₂ : s.slots uid = some id₂ := h id₂ uid (.inr ⟨c₂, h₂, hu₂⟩)
  rw [hs₁] at hs₂
  exact Option.some.inj hs₂

theorem Abandoned.not_held (h : s.Abandoned id) : ¬ s.Held id := by
  rintro (hs | ⟨c, hc, hlive⟩)
  · exact hs h.1
  · simp [h.2 c hc] at hlive

theorem HeldAt.held (h : s.HeldAt id uid) : s.Held id := by
  obtain ⟨p, hp, -⟩ | ⟨c, hc, -⟩ := h
  · exact .inl (List.ne_nil_of_mem hp)
  · exact .inr ⟨c, hc⟩

theorem HeldAt.mono (h : s'.HeldAt id uid) (hstarting : ∀ p ∈ s'.starting id, p ∈ s.starting id)
    (hlive : ∀ c, s'.LiveAs id c → s.LiveAs id c ∨ sessionParties c ∈ s.starting id) :
    s.HeldAt id uid := by
  obtain ⟨p, hp, hu⟩ | ⟨c, hc, hu⟩ := h
  · exact .inl ⟨p, hstarting p hp, hu⟩
  · rcases hlive c hc with hc | hc
    · exact .inr ⟨c, hc, hu⟩
    · exact .inl ⟨sessionParties c, hc, hu⟩

theorem session_setBilling (id' : String) (b : BillingStore) :
    (s.setBilling id' b).session id = if id = id' then b.session else s.session id := by
  simp only [session, setBilling, Function.update_apply]
  split <;> rfl

theorem LiveAs.of_setBilling {id' : String} {b : BillingStore} {c : CallSession}
    (h : (s.setBilling id' b).LiveAs id c) :
    s.LiveAs id c ∨ id = id' ∧ b.session = some c := by
  obtain ⟨hc, hlive⟩ := h
  rw [session_setBilling] at hc
  split at hc
  · rename_i hid
    exact .inr ⟨hid, hc⟩
  · exact .inl ⟨hc, hlive⟩

end ActiveCallStore

open ActiveCallStore

theorem exec_cases (c : ActiveCallCmd) (r : ActiveCallReply) (s : ActiveCallStore) :
    (exec c r s = s ∧ ∀ id p, c ≠ .finish id p) ∨
      exec c r s = effect r s c ∧ ((∃ id p, c = .finish id p) ∨ r.delivered = true) := by
  cases c with
  | finish id p => exact .inr ⟨rfl, .inl ⟨id, p, rfl⟩⟩
  | _ =>
    by_cases hr : r.delivered = true
    · exact .inr ⟨if_pos hr, .inr hr⟩
    · exact .inl ⟨if_neg hr, fun _ _ h => nomatch h⟩

variable {uid callId : String}

section step

variable {c : ActiveCallCmd} {r : ActiveCallReply} {t : ActiveCallStore} {φ φ' : StartPhase}

variable {id : String}

theorem heldAt_effect (hφ : startPhase φ c r t = some φ')
    (hhold : ∀ id p, φ = .holding id p → p ∈ t.starting id) (hc : ∀ id p, c ≠ .reserve id p)
    (h : (effect r t c).HeldAt id uid) : t.HeldAt id uid := by
  have same : ∀ {s' : ActiveCallStore}, s'.starting = t.starting → s'.billing = t.billing →
      s'.HeldAt id uid → t.HeldAt id uid := by
    intro s' hs hb h
    refine h.mono (fun p hp => hs ▸ hp) fun c hc => .inl ⟨?_, hc.2⟩
    rw [session, ← hb]
    exact hc.1
  cases c with
  | reserve id p => exact absurd rfl (hc id p)
  | finish id' p =>
    refine h.mono (fun p' hp => ?_) fun c hc => .inl hc
    simp only [effect, setStarting, Function.update_apply] at hp
    split at hp
    · rename_i hid
      exact hid ▸ List.mem_of_mem_erase hp
    · exact hp
  | billing id' c =>
    refine h.mono (fun p hp => hp) fun session hlive => ?_
    obtain hs | ⟨rfl, hs⟩ := LiveAs.of_setBilling hlive
    · exact .inl hs
    · rw [execBilling_session] at hs
      cases hw : writtenSession c with
      | none =>
        rw [hw] at hs
        exact .inl ⟨hs, hlive.2⟩
      | some written =>
        rw [hw] at hs
        obtain rfl : written = session := Option.some.inj hs
        -- only a start that holds the reservation writes the session
        simp_all [startPhase]
  | clearSeed id' | delSession id' =>
    refine h.mono (fun p hp => hp) fun session hlive => ?_
    obtain hs | ⟨-, hs⟩ := LiveAs.of_setBilling hlive
    · exact .inl hs
    · cases hs
  | markTerminal id' lifecycle =>
    refine h.mono (fun p hp => hp) fun session hlive => ?_
    obtain hs | ⟨-, hs⟩ := LiveAs.of_setBilling hlive
    · exact .inl hs
    · obtain ⟨old, -, rfl⟩ := Option.map_eq_some_iff.1 hs
      rw [startPhase] at hφ
      split at hφ
      · rename_i hterminal
        simp [hlive.2] at hterminal
      · cases hφ
  | lockStart | unlockStart | lockPair | recoverPair | releasePair | releaseSlot =>
    refine same ?_ ?_ h <;>
    · rw [effect]
      split <;> rfl
  | _ => exact same rfl rfl h

theorem slots_effect (hs : t.Slotted) (hcareful : Careful ⟨t, c, r, exec c r t⟩)
    (hr : (∃ id p, c = .finish id p) ∨ r.delivered = true) (hc : ∀ id p, c ≠ .reserve id p)
    (h : t.HeldAt id uid) : (effect r t c).slots uid = some id := by
  have hslot : t.slots uid = some id := hs id uid h
  have delete : ∀ uid', (∀ id', t.slots uid' = some id' → ¬ t.HeldAt id' uid') →
      (t.setSlot uid' none).slots uid = some id := by
    intro uid' hfree
    have hne : uid ≠ uid' := by
      rintro rfl
      exact hfree id hslot h
    rw [slots_setSlot, if_neg hne]
    exact hslot
  cases c with
  | reserve id p => exact absurd rfl (hc id p)
  | recoverSlot uid' =>
    obtain ⟨_, _, h'⟩ | hr := hr
    · cases h'
    · exact delete uid' fun id' hid' h' => (hcareful hr id' hid').not_held h'.held
  | delSlot uid' | expireSlot uid' =>
    obtain ⟨_, _, h'⟩ | hr := hr
    · cases h'
    · exact delete uid' (hcareful hr)
  | releaseSlot uid' id' =>
    obtain ⟨_, _, h'⟩ | hr := hr
    · cases h'
    · rw [effect]
      split
      · rename_i hid'
        refine delete uid' fun id'' hid'' => ?_
        rw [hid'] at hid''
        cases hid''
        exact hcareful hr hid'
      · exact hslot
  | lockStart | unlockStart | lockPair | recoverPair | releasePair =>
    rw [effect]
    split <;> exact hslot
  | _ => exact hslot

theorem slots_reserve {p : Parties} (hs : t.Slotted) (hfree : t.reservable callId p = true)
    (h : t.HeldAt id uid ∨ id = callId ∧ (uid = p.1 ∨ uid = p.2)) :
    ((t.setSlot p.1 (some callId)).setSlot p.2 (some callId)).slots uid = some id := by
  rw [slots_setSlot, slots_setSlot]
  rw [reservable, Bool.and_eq_true] at hfree
  rcases h with h | ⟨rfl, hu⟩
  · have hslot : t.slots uid = some id := hs id uid h
    -- a slot that is needed and free for the call is its own
    have hown : (t.slots uid).all (· == callId) = true → id = callId := by
      intro hall
      rw [hslot] at hall
      exact beq_iff_eq.1 hall
    grind
  · split
    · rfl
    · rename_i hne
      rw [if_pos (hu.resolve_right hne)]

theorem slotted_reserve {p : Parties} (hs : t.Slotted) :
    (effect r t (.reserve callId p)).Slotted := by
  rw [effect]
  split
  · rename_i hfree
    split
    · rintro id uid (⟨p', hp', hu⟩ | h)
      · refine slots_reserve hs hfree ?_
        simp only [setStarting, Function.update_apply] at hp'
        split at hp'
        · rename_i hid
          rcases List.mem_cons.1 hp' with rfl | hp'
          · exact .inr ⟨hid, hu⟩
          · exact .inl (.inl ⟨p', hid ▸ hp', hu⟩)
        · exact .inl (.inl ⟨p', hp', hu⟩)
      · exact slots_reserve hs hfree (.inl (.inr h))
    · exact fun id uid h => slots_reserve hs hfree (.inl h)
  · exact hs

/-- **One step** of a run keeps the slots of the calls that need them. -/
theorem slotted_exec (hφ : startPhase φ c r t = some φ')
    (hhold : ∀ id p, φ = .holding id p → p ∈ t.starting id) (hs : t.Slotted)
    (hcareful : Careful ⟨t, c, r, exec c r t⟩) : (exec c r t).Slotted := by
  obtain ⟨hexec, -⟩ | ⟨hexec, hr⟩ := exec_cases c r t
  · rw [hexec]
    exact hs
  · rw [hexec]
    by_cases hc : ∃ id p, c = .reserve id p
    · obtain ⟨id, p, rfl⟩ := hc
      exact slotted_reserve hs
    · have hc' : ∀ id p, c ≠ .reserve id p := fun id p h => hc ⟨id, p, h⟩
      intro id uid h
      exact slots_effect hs hcareful hr hc' (heldAt_effect hφ hhold hc' h)

/-! ### Runs -/

def Counted (φs : List StartPhase) (s : ActiveCallStore) : Prop :=
  ∀ id p, φs.count (.holding id p) ≤ (s.starting id).count p

theorem Counted.mem {φs : List StartPhase} (h : Counted φs t) {i : ℕ} (hφ : φs[i]? = some φ)
    {p : Parties} (hp : φ = .holding id p) : p ∈ t.starting id := by
  have hmem : StartPhase.holding id p ∈ φs := hp ▸ List.mem_of_getElem? hφ
  have hpos : 0 < φs.count (.holding id p) := List.count_pos_iff.2 hmem
  exact List.count_pos_iff.1 (Nat.lt_of_lt_of_le hpos (h id p))

theorem starting_exec (hφ : startPhase φ c r t = some φ') :
    (φ' = φ ∧ (exec c r t).starting = t.starting) ∨
      (∃ id p, φ = .idle ∧ φ' = .holding id p ∧
        (exec c r t).starting = Function.update t.starting id (p :: t.starting id)) ∨
      ∃ id p, φ = .holding id p ∧ φ' = .idle ∧
        (exec c r t).starting = Function.update t.starting id ((t.starting id).erase p) := by
  have kept : ∀ {s' : ActiveCallStore}, s'.starting = t.starting →
      (if r.delivered = true then s' else t).starting = t.starting := by
    intro s' hs
    split
    · exact hs
    · rfl
  cases c with
  | reserve id p =>
    rw [startPhase] at hφ
    split at hφ
    · rename_i hidle
      cases hφ
      by_cases hok : r.ok = true ∧ t.reservable id p = true
      · refine .inr (.inl ⟨id, p, hidle, ?_, ?_⟩)
        · rw [hok.1, hok.2]
          rfl
        · have hdelivered : r.delivered = true := ((Bool.and_eq_true _ _).mp hok.1).1
          show (if r.delivered = true then effect r t _ else t).starting = _
          rw [if_pos hdelivered, effect, if_pos hok.2]
          rw [if_pos hok.1]
          rfl
      · refine .inl ⟨?_, kept ?_⟩
        · rw [← Bool.and_eq_true] at hok
          rw [if_neg hok, hidle]
        · rw [effect]
          split
          · rename_i hfree
            rw [if_neg fun hr => hok ⟨hr, hfree⟩]
            rfl
          · rfl
    · cases hφ
  | finish id p =>
    rw [startPhase] at hφ
    split at hφ
    · rename_i hhold
      exact .inr (.inr ⟨id, p, hhold, (Option.some.inj hφ).symm, rfl⟩)
    · cases hφ
  | billing id c =>
    rw [startPhase] at hφ
    refine .inl ⟨?_, kept rfl⟩
    grind
  | markTerminal id lifecycle =>
    rw [startPhase] at hφ
    split at hφ
    · exact .inl ⟨(Option.some.inj hφ).symm, kept rfl⟩
    · cases hφ
  | lockStart | unlockStart | lockPair | recoverPair | releasePair | releaseSlot =>
    refine .inl ⟨(Option.some.inj hφ).symm, kept ?_⟩
    rw [effect]
    split <;> rfl
  | _ => exact .inl ⟨(Option.some.inj hφ).symm, kept rfl⟩

/-- **One step** of a run keeps the bookkeeping. -/
theorem counted_exec {φs : List StartPhase} (h : Counted φs t) {i : ℕ} (hφs : φs[i]? = some φ)
    (hφ : startPhase φ c r t = some φ') : Counted (φs.set i φ') (exec c r t) := by
  obtain ⟨hi, hget⟩ := List.getElem?_eq_some_iff.1 hφs
  intro id p
  have hle := h id p
  rw [List.count_set hi, hget]
  obtain ⟨rfl, hs⟩ | ⟨id', p', rfl, rfl, hs⟩ | ⟨id', p', rfl, rfl, hs⟩ := starting_exec hφ
  · have hpos : φ' = .holding id p → 0 < φs.count (.holding id p) := by
      rintro rfl
      exact List.count_pos_iff.2 (List.mem_of_getElem? hφs)
    rw [hs]
    by_cases hp : φ' = .holding id p
    · have := hpos hp
      simp [hp]
      omega
    · simpa [hp] using hle
  · rw [hs, Function.update_apply]
    by_cases hid : id = id'
    · subst hid
      by_cases hp : p' = p
      · simpa [hp] using hle
      · simpa [hp] using hle
    · simpa [hid, Ne.symm hid] using hle
  · rw [hs, Function.update_apply]
    by_cases hid : id = id'
    · subst hid
      by_cases hp : p' = p
      · simp [hp]
        omega
      · simpa [hp, List.count_erase] using hle
    · simpa [hid, Ne.symm hid] using hle

end step

theorem recoverySafe_of_careful {e : ActiveCallEvent} (h : Careful e) : RecoverySafe e := by
  obtain ⟨t, c, r, t'⟩ := e
  intro hr
  have h := h hr
  cases c with
  | recoverSlot uid => exact fun id hid => (h id hid).not_held
  | recoverPair key holder => exact fun hholder => (h hholder).not_held
  | recoverPairDel key => exact fun id hid => (h id hid).not_held
  | _ => trivial

def freshStore : ActiveCallStore where
  billing := fun _ => emptyStore
  slots := fun _ => none
  callpair := fun _ => none
  orchestrator := fun _ => false
  startLock := fun _ => none
  starting := fun _ => []

theorem freshStore_slotted : freshStore.Slotted := by
  rintro id uid (⟨p, hp, -⟩ | ⟨c, ⟨hc, -⟩, -⟩)
  · cases hp
  · cases hc

def runOf (cfg : BillingConfig) (ms : List (Move Request ActiveCallReply)) :
    Pool ActiveCallCmd ActiveCallReply ActiveCallStore :=
  (Pool.start freshStore).play exec (program cfg) ms

/-- **One live call per participant**: in every run whose deletions are careful, no two live calls
share a participant, and orphan recovery removes nothing of a call that is starting or live. -/
theorem oneLiveCall_of_careful (cfg : BillingConfig) (ms : List (Move Request ActiveCallReply))
    (hcareful : ∀ e ∈ (runOf cfg ms).log, Careful e) : OneLiveCall (runOf cfg ms).log := by
  -- the slots of the calls that need them, the bookkeeping, and what was shown of the log
  obtain ⟨φs, -, -, -, hlog⟩ := Pool.play_protocol
    (fun φs l t => Counted φs t ∧ t.Slotted ∧ ∀ e ∈ l, RecoverySafe e ∧ e.after.OneLive)
    Careful program_follows ⟨fun id p => Nat.zero_le _, freshStore_slotted, fun e he => nomatch he⟩
    (fun φs l t q ⟨hcount, hs, hl⟩ => ⟨fun id p => by simpa using hcount id p, hs, hl⟩)
    (fun φs l t i φ c r φ' ⟨hcount, hs, hl⟩ hi hφ he => by
      have hs' : (exec c r t).Slotted := slotted_exec hφ (fun id p hp => hcount.mem hi hp) hs he
      refine ⟨counted_exec hcount hi hφ, hs', fun e' he' => ?_⟩
      rcases mem_snoc.1 he' with he' | rfl
      · exact hl e' he'
      · exact ⟨recoverySafe_of_careful he, hs'.oneLive⟩)
    ms hcareful
  exact hlog

/-! ### Sample runs -/

def sampleAnswer : ActiveCallReply where
  delivered := true
  answered := true
  now := 1000
  admitted := true
  billing := { sampleReply 1000 with ok := false }

def steps (i n : ℕ) : List (Move Request ActiveCallReply) :=
  List.replicate n (.step i sampleAnswer)

def ActiveCallCmd.deletes : ActiveCallCmd → Bool
  | .recoverSlot _ | .recoverPair .. | .recoverPairDel _ | .delSlot _ | .expireSlot _
  | .releaseSlot .. => true
  | _ => false

theorem careful_of_not_deletes {e : ActiveCallEvent} (h : e.cmd.deletes = false) :
    Careful e := by
  obtain ⟨t, c, r, t'⟩ := e
  intro hr
  cases c with
  | recoverSlot | recoverPair | recoverPairDel | delSlot | expireSlot | releaseSlot => cases h
  | _ => trivial

def sampleStarts : List (Move Request ActiveCallReply) :=
  .spawn (.start "call-1" "token-1" ⟨"user-uid", "creator-uid", "creator"⟩) ::
    .spawn (.start "call-2" "token-2" ⟨"user-uid-2", "creator-uid", "creator"⟩) ::
    (steps 0 20 ++ steps 1 12)

theorem oneLiveCall_sample :
    0 < (runOf sampleConfig sampleStarts).log.length ∧
      OneLiveCall (runOf sampleConfig sampleStarts).log := by
  have hdeletes : (runOf sampleConfig sampleStarts).log.all (fun e => !e.cmd.deletes) = true := by
    decide +kernel
  refine ⟨by decide +kernel, oneLiveCall_of_careful sampleConfig sampleStarts fun e he => ?_⟩
  have hkeeps := List.all_eq_true.1 hdeletes e he
  exact careful_of_not_deletes (by simpa using hkeeps)

def ActiveCallStore.liveWith (s : ActiveCallStore) (callId uid : String) : Bool :=
  (s.session callId).any fun c =>
    isNonTerminalLifecycle c.lifecycleState && (c.userFirebaseUid == uid || c.creatorFirebaseUid == uid)

theorem ActiveCallStore.liveWith_iff {s : ActiveCallStore} :
    s.liveWith callId uid = true ↔
      ∃ c, s.LiveAs callId c ∧ (uid = c.userFirebaseUid ∨ uid = c.creatorFirebaseUid) := by
  simp only [liveWith, LiveAs, Option.any_eq_true, Bool.and_eq_true, Bool.or_eq_true, beq_iff_eq,
    and_assoc, @eq_comm _ uid]

def samplePayerTwice : List (Move Request ActiveCallReply) :=
  .spawn (.start "call-1" "token-1" ⟨"user-uid", "creator-uid", "creator"⟩) ::
    .spawn (.start "call-2" "token-2" ⟨"user-uid", "creator-uid-2", "creator-2"⟩) ::
    (steps 0 6 ++ steps 1 14 ++ steps 0 2)

theorem two_live_calls : ¬ OneLiveCall (runOf sampleConfig samplePayerTwice).log := by
  intro h
  have hlive : (runOf sampleConfig samplePayerTwice).log.any (fun e =>
      e.after.liveWith "call-1" "user-uid" && e.after.liveWith "call-2" "user-uid") = true := by
    decide +kernel
  obtain ⟨e, he, hboth⟩ := List.any_eq_true.1 hlive
  rw [Bool.and_eq_true] at hboth
  obtain ⟨c₁, h₁, hu₁⟩ := liveWith_iff.1 hboth.1
  obtain ⟨c₂, h₂, hu₂⟩ := liveWith_iff.1 hboth.2
  exact absurd ((h e he).2 _ _ c₁ c₂ _ h₁ h₂ hu₁ hu₂) (by decide)

end VibemeetBackend.ActiveCall
