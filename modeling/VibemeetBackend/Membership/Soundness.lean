import VibemeetBackend.Membership.FinalizedOnce

/-!
# Entitlement against renewal and expiry

A check marks a membership that it has found past its expiry by a second command, and caches a
positive answer for a time of its own.  Between the two a purchase may renew the membership, and the
cached answer may outlive it.
-/

namespace VibemeetBackend.Membership

open Async Flow

/-! ### What a request knows -/

structure CheckPhase where
  /-- The membership that it has found. -/
  found : Option MembershipDoc
  lapsed : Bool
  /-- Whether the membership is active, once that is decided. -/
  decided : Option Bool
  purchasedAt : Option ℤ

namespace CheckPhase

def start : CheckPhase := ⟨none, false, none, none⟩

def decide (φ : CheckPhase) (now : ℤ) : Bool :=
  φ.found.any (fun m => m.activeAt now) && !φ.lapsed

def lapse (φ : CheckPhase) (now : ℤ) : Bool := φ.found.any fun m => m.lapsedAt now

def next (φ : CheckPhase) (c : Cmd) (_ : Reply) (s : Store) : CheckPhase :=
  match c with
  | .getCache => { φ with
      found := none
      lapsed := false
      decided := if s.cached = true then some true else none }
  | .findMembership => { φ with found := s.membership, lapsed := false, decided := none }
  | .clock .expiry => { φ with lapsed := φ.lapse s.now }
  | .clock .active => { φ with
      lapsed := φ.lapsed || φ.lapse s.now
      decided := some (φ.decide s.now) }
  | .clock .purchase => { φ with purchasedAt := some s.now }
  | _ => φ

end CheckPhase

/-- A membership is marked after it was found past its expiry, cached after it was found active, and
renewed from the one that the transaction reads. -/
def CheckAllows (φ : CheckPhase) : Cmd → Prop
  | .expireMembership | .clearExpiry => φ.lapsed = true
  | .setCache _ => φ.decided = some true ∧ ∃ m, φ.found = some m
  | .commit (some w) => ∃ now, φ.purchasedAt = some now ∧ w.membership.status = .active ∧
      ∃ days : ℕ, w.membership.expiresAt = baseExpiry w.readMembership now + days * dayMs
  | _ => True

def decides (x : CheckPhase × Event Cmd Reply Store) : Option Bool :=
  match x.2.cmd with
  | .getCache | .clock .active => (x.1.next x.2.cmd x.2.ans x.2.before).decided
  | _ => none

/-- The writes of a check come in time: no purchase has moved the expiry since the check read it, and
the key does not outlive it. -/
def Timely (x : CheckPhase × Event Cmd Reply Store) : Prop :=
  match x.2.cmd with
  | .expireMembership | .clearExpiry =>
    x.2.before.membership.map MembershipDoc.expiresAt = x.1.found.map MembershipDoc.expiresAt
  | .setCache ttlSec => ∀ m, x.1.found = some m → x.2.before.now + ttlSec * 1000 ≤ m.expiresAt
  | _ => True

def watchedChecks (p : Product) (flags : Flags) (s : Store) (ms : List (Move Request Reply)) :
    Watched CheckPhase Cmd Reply Store :=
  (Watched.start s).play CheckPhase.next (fun _ => .start) Cmd.exec (program p flags) ms

structure Sound (w : Watched CheckPhase Cmd Reply Store) : Prop where
  unexpired : ∀ m, w.pool.store.membership = some m → w.pool.store.now < m.expiresAt →
    m.status = .active ∧ w.pool.store.user = some (some m.expiresAt)
  answers : ∀ x ∈ w.log, decides x = some true →
    ∃ m, x.2.before.membership = some m ∧ x.2.before.now < m.expiresAt

/-! ### The requests follow the protocol -/

section protocol

variable {α : Type} {φ : CheckPhase} {Q : α → CheckPhase → Prop}

abbrev CheckFollows (φ : CheckPhase) (p : MemberFlow α) (Q : α → CheckPhase → Prop) : Prop :=
  Follows (guarded CheckAllows CheckPhase.next) φ p Q fun _ _ => True

theorem check_run_bind {c : Cmd} {f : Reply × Store → MemberFlow α} (hc : CheckAllows φ c)
    (h : ∀ r s, CheckFollows (φ.next c r s) (f (r, s)) Q) : CheckFollows φ (run c >>= f) Q :=
  follows_guarded_bind hc (fun _ _ => trivial) fun r s _ => h r s

theorem check_clock_bind {use : ClockUse} {f : ℤ → MemberFlow α}
    (h : ∀ r s, CheckFollows (φ.next (.clock use) r s) (f s.now) Q) :
    CheckFollows φ (clock use >>= f) Q :=
  fun r s => ⟨_, guarded_of trivial, h r s⟩

theorem check_tell {c : Cmd} (hc : CheckAllows φ c) (hφ : ∀ r s, φ.next c r s = φ) :
    CheckFollows φ (tell c) fun _ φ' => φ' = φ :=
  fun r s => ⟨_, guarded_of hc, hφ r s⟩

theorem check_bind {β : Type} {p : MemberFlow β} {f : β → MemberFlow α}
    {R : β → CheckPhase → Prop} (hp : CheckFollows φ p R)
    (hf : ∀ b φ', R b φ' → CheckFollows φ' (f b) Q) : CheckFollows φ (p >>= f) Q := by
  apply follows_bind
  apply Follows.mono hp
  · intro b φ' hb
    exact hf b φ' hb
  · intro _ _ _
    trivial

theorem cacheActive_check {active : Bool} {expiresAt : Option ℤ}
    (h : active = true → φ.decided = some true ∧ ∃ m, φ.found = some m) :
    CheckFollows φ (cacheActive active expiresAt) fun _ φ' => φ' = φ := by
  unfold cacheActive
  split
  · exact check_clock_bind fun r s => check_tell (h rfl) fun _ _ => rfl
  · exact check_tell trivial fun _ _ => rfl

theorem markExpired_check {lapsed : Bool} (h : lapsed = true → φ.lapsed = true) :
    CheckFollows φ (markExpired lapsed) fun _ φ' => φ' = φ := by
  simp_all [markExpired, CheckAllows, CheckPhase.next, run]

abbrev Decided (b : Bool) (φ : CheckPhase) : Prop := b = true → φ.decided = some true

theorem vipActiveUncached_check : CheckFollows φ vipActiveUncached Decided := by
  apply check_run_bind
  · trivial
  intro r s
  dsimp only
  split
  · apply check_bind (cacheActive_check Bool.noConfusion)
    intro _ φ' _
    exact follows_pure fun h => nomatch h
  rename_i m hm
  apply check_clock_bind
  intro r' s'
  have hfound : (φ.next .findMembership r s).found = some m := hm
  generalize hφ₁ : (φ.next .findMembership r s).next (.clock .active) r' s' = φ₁
  have hfound₁ : φ₁.found = some m := by
    rw [← hφ₁]
    exact hm
  have hlapsed : m.lapsedAt s'.now = true → φ₁.lapsed = true := by
    intro h
    rw [← hφ₁]
    show (false || s.membership.any fun m => m.lapsedAt s'.now) = true
    rw [hm]
    exact h
  have hdecided : φ₁.decided = some (m.activeAt s'.now) := by
    rw [← hφ₁]
    show some (s.membership.any (fun m => m.activeAt s'.now) && !false) = _
    rw [hm, Bool.not_false, Bool.and_true]
    rfl
  apply check_bind (markExpired_check hlapsed)
  rintro _ φ' rfl
  have hcache : m.activeAt s'.now = true → φ'.decided = some true ∧ ∃ m, φ'.found = some m := by
    intro h
    rw [h] at hdecided
    exact ⟨hdecided, m, hfound₁⟩
  apply check_bind (cacheActive_check hcache)
  rintro _ φ'' rfl
  apply follows_pure
  intro h
  exact (hcache h).1

variable (flags : Flags)

theorem vipActive_check : CheckFollows φ (isVipActive flags) Decided := by
  unfold isVipActive
  split
  · exact follows_pure fun h => nomatch h
  apply check_run_bind
  · trivial
  intro r s
  dsimp only
  split
  · simp_all [CheckPhase.next]
  · exact vipActiveUncached_check

theorem vipStatus_check : CheckFollows φ (getVipStatus flags) fun _ _ => True := by
  apply check_run_bind
  · trivial
  intro r₀ s₀
  apply check_run_bind
  · trivial
  intro r s
  apply check_clock_bind
  intro r' s'
  have hlapsed : (s.membership.any fun m => m.lapsedAt s'.now) = true →
      (((φ.next .getPerks r₀ s₀).next .findMembership r s).next (.clock .active) r' s').lapsed =
        true := fun h => h
  apply check_bind (markExpired_check hlapsed)
  intro _ φ₁ _
  apply check_bind (R := fun _ _ => True)
  · unfold freeMomentsToday getRemainingFreeMoments
    split
    · apply check_bind (vipActive_check flags)
      intro active φ₂ _
      split
      · exact follows_pure trivial
      · apply check_run_bind
        · trivial
        intro _ _
        apply check_run_bind
        · trivial
        intro _ _
        exact follows_pure trivial
    · exact follows_pure trivial
  · intro _ _ _
    exact follows_pure trivial

abbrev Loaded (membership : Option MembershipDoc) (φ : CheckPhase) : Prop :=
  ∀ m', membership = some m' → ∃ m, φ.found = some m ∧
    (φ.lapsed = false ∧ m' = m ∨ m'.status = .expired)

theorem load_check : CheckFollows φ loadMembershipWithExpiryNormalization Loaded := by
  apply check_run_bind
  · trivial
  intro r s
  dsimp only
  split
  · exact follows_pure fun m' h => nomatch h
  rename_i m hm
  apply check_clock_bind
  intro r' s'
  generalize hφ₁ : (φ.next .findMembership r s).next (.clock .expiry) r' s' = φ₁
  have hfound : φ₁.found = some m := by
    rw [← hφ₁]
    exact hm
  have hlapsed : φ₁.lapsed = m.lapsedAt s'.now := by
    rw [← hφ₁]
    show s.membership.any (fun m => m.lapsedAt s'.now) = _
    rw [hm]
    rfl
  split
  · rename_i h
    rw [h] at hlapsed
    apply check_bind (R := fun _ φ' => φ' = φ₁)
    · apply check_run_bind
      · exact hlapsed
      intro _ _
      apply check_run_bind
      · exact hlapsed
      intro _ _
      exact check_tell trivial fun _ _ => rfl
    · rintro _ φ' rfl
      apply follows_pure
      intro m' hm'
      cases hm'
      exact ⟨m, hfound, .inr rfl⟩
  · rename_i h
    rw [Bool.not_eq_true] at h
    rw [h] at hlapsed
    apply follows_pure
    intro m' hm'
    cases hm'
    exact ⟨m, hfound, .inl ⟨hlapsed, rfl⟩⟩

theorem momentsActive_check : CheckFollows φ (isMomentsPremiumActive flags) Decided := by
  unfold isMomentsPremiumActive
  split
  · exact follows_pure fun h => nomatch h
  apply check_run_bind
  · trivial
  intro r s
  dsimp only
  split
  · rename_i hcached
    apply follows_pure
    intro _
    exact if_pos hcached
  apply check_bind load_check
  intro membership φ₁ hloaded
  split
  · apply check_bind (cacheActive_check Bool.noConfusion)
    intro _ φ' _
    exact follows_pure fun h => nomatch h
  rename_i m'
  obtain ⟨m, hfound, hcases⟩ := hloaded m' rfl
  apply check_clock_bind
  intro r' s'
  have hcache : m'.activeAt s'.now = true →
      (φ₁.next (.clock .active) r' s').decided = some true ∧
        ∃ m, (φ₁.next (.clock .active) r' s').found = some m := by
    intro h
    refine ⟨?_, m, hfound⟩
    obtain ⟨hlapsed, rfl⟩ | hexpired := hcases
    · show some (φ₁.found.any (fun m => m.activeAt s'.now) && !φ₁.lapsed) = some true
      rw [hfound, hlapsed, Option.any_some, h]
      rfl
    · simp [MembershipDoc.activeAt, hexpired] at h
  apply check_bind (cacheActive_check hcache)
  rintro _ φ'' rfl
  apply follows_pure
  intro h
  exact (hcache h).1

theorem momentsStatus_check : CheckFollows φ (getMomentsPremiumStatus flags) fun _ _ => True := by
  unfold getMomentsPremiumStatus
  split
  · exact follows_pure trivial
  apply check_bind load_check
  intro membership φ₁ _
  split
  · exact follows_pure trivial
  apply check_clock_bind
  intro _ _
  split <;> exact follows_pure trivial

theorem finalize_check (p : Product) (input : FinalizeInput) (attempts : ℕ) :
    CheckFollows φ (finalizePurchaseAtomically p input attempts) fun _ _ => True := by
  apply check_run_bind
  · trivial
  intro r s
  dsimp only
  split
  · apply check_run_bind
    · trivial
    intro r' s'
    split <;> simp
  apply check_run_bind
  · trivial
  intro r' s'
  apply check_clock_bind
  intro rc sc
  apply follows_bind
  apply follows_withTransaction transactions (P := fun φ => φ.purchasedAt = some sc.now)
  · intro φ' r₁ s₁ hφ'
    exact ⟨_, guarded_of trivial, hφ'⟩
  · intro φ' s₀ w a hφ' hok r₁ s₁
    obtain ⟨user, row, -, -, rfl⟩ := purchase_ok hok
    refine ⟨_, guarded_of ⟨sc.now, hφ', rfl, _, rfl⟩, ?_, fun _ => hφ'⟩
    intro _
    exact ⟨fun r₂ s₂ => ⟨_, guarded_of trivial, trivial⟩, fun _ => trivial⟩
  · intro _ _ _
    trivial
  · rfl

theorem createPending_check (p : Product) (orderId : String) (priceInr : ℕ) (planId : String) :
    CheckFollows φ (createPendingTransaction p orderId priceInr planId) fun _ _ => True := by
  apply check_run_bind
  · trivial
  intro r s
  dsimp only
  split <;> simp [run, CheckAllows]

theorem program_check (p : Product) (flags : Flags) (q : Request) :
    (program p flags q).Follows (guarded CheckAllows CheckPhase.next) .start
      fun _ _ => True := by
  have hanswer : ∀ {p : MemberFlow Bool}, CheckFollows .start p Decided →
      CheckFollows .start p fun _ _ => True := fun h =>
    h.mono (fun _ _ _ => trivial) fun _ _ _ => trivial
  cases q with
  | finalize input attempts => exact Follows.run (finalize_check p input attempts)
  | createPending orderId priceInr planId =>
    exact Follows.run (createPending_check p orderId priceInr planId)
  | isActive =>
    cases p with
    | vip => exact Follows.run (hanswer (vipActive_check flags))
    | momentsPremium => exact Follows.run (hanswer (momentsActive_check flags))
  | getStatus =>
    cases p with
    | vip => exact Follows.run (vipStatus_check flags)
    | momentsPremium => exact Follows.run (momentsStatus_check flags)
  | pass ms => exact fun r s => ⟨_, guarded_of trivial, trivial⟩

end protocol

/-! ### The invariant -/

def Covered (t : Store) (x : ℤ) : Prop :=
  x ≤ t.now ∨ ∃ m, t.membership = some m ∧ x ≤ m.expiresAt

structure Known (t : Store) (φ : CheckPhase) : Prop where
  found : ∀ m, φ.found = some m → Covered t m.expiresAt
  lapsed : φ.lapsed = true → ∃ m, φ.found = some m ∧ m.expiresAt ≤ t.now
  purchasedAt : ∀ now, φ.purchasedAt = some now → now ≤ t.now

structure Grounded (t : Store) : Prop where
  unexpired : ∀ m, t.membership = some m → t.now < m.expiresAt →
    m.status = .active ∧ t.user = some (some m.expiresAt)
  cache : ∀ ends, t.cache = some ends → Covered t ends

structure Entitled (φs : List CheckPhase) (l : List (CheckPhase × Event Cmd Reply Store))
    (t : Store) : Prop where
  store : Grounded t
  phases : ∀ (i : ℕ) (φ : CheckPhase), φs[i]? = some φ → Known t φ
  answers : ∀ x ∈ l, decides x = some true →
    ∃ m, x.2.before.membership = some m ∧ x.2.before.now < m.expiresAt

section invariant

variable {φs : List CheckPhase} {l : List (CheckPhase × Event Cmd Reply Store)} {t t' : Store}
  {i : ℕ} {φ : CheckPhase} {c : Cmd} {r : Reply} {x y : ℤ}

theorem Covered.mono (h : Covered t y) (hxy : x ≤ y) : Covered t x := by
  obtain h | ⟨m, hm, h⟩ := h
  · exact .inl (hxy.trans h)
  · exact .inr ⟨m, hm, hxy.trans h⟩

theorem known_start : Known t .start :=
  ⟨fun _ h => (nomatch h), fun h => (nomatch h), fun _ h => (nomatch h)⟩

theorem Known.mono (h : Known t φ) (hnow : t.now ≤ t'.now)
    (hcovered : ∀ x, Covered t x → Covered t' x) : Known t' φ := by
  refine ⟨?_, ?_, ?_⟩
  · intro m hm
    exact hcovered _ (h.found m hm)
  · intro hlapsed
    obtain ⟨m, hm, hpast⟩ := h.lapsed hlapsed
    exact ⟨m, hm, hpast.trans hnow⟩
  · intro now hclock
    exact (h.purchasedAt now hclock).trans hnow

theorem Grounded.expired (h : Grounded t) {m : MembershipDoc} (hm : t.membership = some m)
    (hstatus : m.status ≠ .active) : m.expiresAt ≤ t.now := by
  by_contra hfuture
  exact hstatus (h.unexpired m hm (not_le.1 hfuture)).1

/-! ### One command -/

theorem exec_now : t.now ≤ (c.exec r t).now := by
  rcases exec_cases c r t with ⟨ms, -, hexec⟩ | hexec | hexec
  · rw [hexec]
    show t.now ≤ t.now + ms
    omega
  · rw [hexec]
  · rw [hexec]
    cases c with
    | commit w =>
      cases w with
      | none => exact le_rfl
      | some w =>
        show t.now ≤ (if w.conflicts t = true then t else t.purchase w).now
        split <;> exact le_rfl
    | createTransaction row =>
      show t.now ≤ (t.insertRow row).now
      rw [insertRow_now]
    | _ => exact le_rfl

theorem covered_purchase (h : Grounded t) (hφ : Known t φ) {w : Purchase}
    (hA : CheckAllows φ (.commit (some w))) (hw : w.conflicts t = false) (hx : Covered t x) :
    Covered (t.purchase w) x := by
  obtain ⟨now, hclock, -, days, hexpires⟩ := hA
  have hnow := hφ.purchasedAt now hclock
  have hread := (conflicts_eq_false hw).2
  obtain hpast | ⟨m, hm, hle⟩ := hx
  · exact .inl hpast
  have hm' : w.readMembership = some m := hread.symm.trans hm
  rw [hm'] at hexpires
  unfold baseExpiry at hexpires
  dsimp only at hexpires
  split at hexpires
  · right
    refine ⟨w.membership, rfl, ?_⟩
    have hday : (0 : ℤ) ≤ days * dayMs := mul_nonneg (Nat.cast_nonneg days) (by decide)
    omega
  · rename_i hinactive
    left
    show x ≤ t.now
    by_cases hstatus : m.status = .active
    · have hexpired : m.expiresAt ≤ now := by
        by_contra hfuture
        apply hinactive
        rw [MembershipDoc.activeAt, hstatus, Bool.and_eq_true]
        exact ⟨rfl, decide_eq_true (not_le.1 hfuture)⟩
      omega
    · have hexpired := h.expired hm hstatus
      omega

/-- **Nothing uncovers a time.** -/
theorem covered_step (h : Grounded t) (hφ : Known t φ) (hA : CheckAllows φ c)
    (hx : Covered t x) : Covered (c.exec r t) x := by
  rcases exec_cases c r t with ⟨ms, -, hexec⟩ | hexec | hexec
  · rw [hexec]
    obtain hpast | hm := hx
    · left
      show x ≤ t.now + ms
      omega
    · exact .inr hm
  · rw [hexec]
    exact hx
  · rw [hexec]
    cases c with
    | commit w =>
      cases w with
      | none => exact hx
      | some w =>
        show Covered (if w.conflicts t = true then t else t.purchase w) x
        split
        · exact hx
        · rename_i hw
          exact covered_purchase h hφ hA (Bool.eq_false_iff.2 hw) hx
    | createTransaction row =>
      show Covered (t.insertRow row) x
      rw [Covered, insertRow_now, insertRow_membership]
      exact hx
    | expireMembership =>
      obtain hpast | ⟨m, hm, hle⟩ := hx
      · exact .inl hpast
      · right
        refine ⟨{ m with status := .expired }, ?_, hle⟩
        show t.membership.map _ = _
        rw [hm]
        rfl
    | _ => exact hx

theorem Known.marked (hφ : Known t φ) (hlapsed : φ.lapsed = true)
    (hG : t.membership.map MembershipDoc.expiresAt = φ.found.map MembershipDoc.expiresAt)
    {m : MembershipDoc} (hm : t.membership = some m) : m.expiresAt ≤ t.now := by
  obtain ⟨m', hm', hpast⟩ := hφ.lapsed hlapsed
  rw [hm, hm', Option.map_some, Option.map_some, Option.some.injEq] at hG
  rw [hG]
  exact hpast

theorem Grounded.step (h : Grounded t) (hφ : Known t φ) (hA : CheckAllows φ c)
    (hG : Timely (φ, ⟨t, c, r, c.exec r t⟩)) : Grounded (c.exec r t) := by
  have hcovered : ∀ x, Covered t x → Covered (c.exec r t) x := fun x hx => covered_step h hφ hA hx
  rcases exec_cases c r t with ⟨ms, -, hexec⟩ | hexec | hexec
  · rw [hexec] at hcovered ⊢
    refine ⟨?_, fun ends hends => hcovered _ (h.cache ends hends)⟩
    intro m hm hfuture
    have hfuture : t.now + ms < m.expiresAt := hfuture
    exact h.unexpired m hm (by omega)
  · rw [hexec]
    exact h
  · rw [hexec] at hcovered ⊢
    cases c with
    | commit w =>
      cases w with
      | none => exact h
      | some w =>
        show Grounded (if w.conflicts t = true then t else t.purchase w)
        have hcovered : ∀ x, Covered t x →
          Covered (if w.conflicts t = true then t else t.purchase w) x := hcovered
        split
        · exact h
        · rename_i hw
          rw [if_neg hw] at hcovered
          obtain ⟨now, -, hstatus, -⟩ := hA
          refine ⟨?_, fun ends hends => hcovered _ (h.cache ends hends)⟩
          intro m hm _
          have hm : some w.membership = some m := hm
          cases hm
          exact ⟨hstatus, rfl⟩
    | createTransaction row =>
      show Grounded (t.insertRow row)
      have hcovered : ∀ x, Covered t x → Covered (t.insertRow row) x := hcovered
      refine ⟨?_, ?_⟩
      · rw [insertRow_membership, insertRow_now, insertRow_user]
        exact h.unexpired
      · rw [insertRow_cache]
        exact fun ends hends => hcovered _ (h.cache ends hends)
    | expireMembership =>
      refine ⟨?_, fun ends hends => hcovered _ (h.cache ends hends)⟩
      intro m' hm' hfuture
      obtain ⟨m, hm, rfl⟩ := Option.map_eq_some_iff.1 hm'
      have hpast := hφ.marked hA hG hm
      exact absurd hfuture (not_lt.2 hpast)
    | clearExpiry =>
      refine ⟨?_, fun ends hends => hcovered _ (h.cache ends hends)⟩
      intro m hm hfuture
      have hpast := hφ.marked hA hG hm
      exact absurd hfuture (not_lt.2 hpast)
    | setCache ttlSec =>
      refine ⟨h.unexpired, ?_⟩
      intro ends hends
      cases hends
      obtain ⟨-, m, hm⟩ := hA
      exact hcovered _ ((hφ.found m hm).mono (hG m hm))
    | delCache => exact ⟨h.unexpired, fun ends hends => nomatch hends⟩
    | _ => exact h

theorem Known.next (hφ : Known t φ) : Known t (φ.next c r t) := by
  have hpast : φ.lapse t.now = true → ∃ m, φ.found = some m ∧ m.expiresAt ≤ t.now := by
    intro h
    rw [CheckPhase.lapse] at h
    cases hfound : φ.found <;> simp_all [MembershipDoc.lapsedAt]
  cases c with
  | getCache => exact ⟨fun _ h => (nomatch h), fun h => (nomatch h), hφ.purchasedAt⟩
  | findMembership =>
    refine ⟨?_, fun h => (nomatch h), hφ.purchasedAt⟩
    intro m hm
    exact .inr ⟨m, hm, le_rfl⟩
  | clock use =>
    cases use with
    | expiry => exact ⟨hφ.found, hpast, hφ.purchasedAt⟩
    | active =>
      refine ⟨hφ.found, ?_, hφ.purchasedAt⟩
      intro h
      rcases Bool.or_eq_true _ _ |>.mp h with h | h
      · exact hφ.lapsed h
      · exact hpast h
    | purchase =>
      refine ⟨hφ.found, hφ.lapsed, ?_⟩
      intro now hnow
      cases hnow
      exact le_rfl
    | ttl => exact hφ
  | _ => exact hφ

/-- **Nobody is told too late.** -/
theorem decides_covered (h : Grounded t) (hφ : Known t φ) {e : Event Cmd Reply Store}
    (hbefore : e.before = t) (hdecides : decides (φ, e) = some true) :
    ∃ m, t.membership = some m ∧ t.now < m.expiresAt := by
  have hcovered : ∀ x, Covered t x → t.now < x → ∃ m, t.membership = some m ∧
      t.now < m.expiresAt := by
    intro x hx hlt
    obtain hpast | ⟨m, hm, hle⟩ := hx
    · exact absurd hlt (not_lt.2 hpast)
    · exact ⟨m, hm, hlt.trans_le hle⟩
  unfold decides at hdecides
  split at hdecides
  · rename_i hcmd
    have hcached : t.cached = true := by
      by_contra hnot
      rw [hcmd, hbefore, CheckPhase.next, if_neg hnot] at hdecides
      cases hdecides
    rw [Store.cached] at hcached
    cases hends : t.cache with
    | none =>
      simp [hends] at hcached
    | some ends =>
      rw [hends] at hcached
      exact hcovered ends (h.cache ends hends) (of_decide_eq_true hcached)
  · rename_i hcmd
    rw [hcmd, hbefore] at hdecides
    have hdecided : φ.decide t.now = true := Option.some.inj hdecides
    rw [CheckPhase.decide, Bool.and_eq_true] at hdecided
    cases hfound : φ.found with
    | none =>
      rw [hfound] at hdecided
      exact absurd hdecided.1 Bool.false_ne_true
    | some m =>
      have hactive := hdecided.1
      rw [hfound, Option.any_some, MembershipDoc.activeAt, Bool.and_eq_true,
        decide_eq_true_eq] at hactive
      exact hcovered _ (hφ.found m hfound) hactive.2
  · cases hdecides

/-- **One command of a run.** -/
theorem Entitled.step (h : Entitled φs l t) (hi : φs[i]? = some φ) (hA : CheckAllows φ c)
    (hG : Timely (φ, ⟨t, c, r, c.exec r t⟩)) :
    Entitled (φs.set i (φ.next c r t)) (l ++ [(φ, ⟨t, c, r, c.exec r t⟩)]) (c.exec r t) := by
  have hφ := h.phases i φ hi
  have hmono : ∀ φ', Known t φ' → Known (c.exec r t) φ' := fun φ' hφ' =>
    hφ'.mono exec_now fun x hx => covered_step h.store hφ hA hx
  refine ⟨h.store.step hφ hA hG, ?_, ?_⟩
  · intro j φ' hj
    rcases Pool.getElem?_set_cases hj with ⟨-, rfl⟩ | ⟨-, hj⟩
    · exact hmono _ hφ.next
    · exact hmono _ (h.phases j φ' hj)
  · apply Pool.forall_snoc h.answers
    intro hdecides
    exact decides_covered h.store hφ rfl hdecides

theorem Entitled.spawn (h : Entitled φs l t) : Entitled (φs ++ [.start]) l t := by
  refine { h with phases := ?_ }
  intro i φ hi
  rcases Pool.getElem?_snoc_cases hi with hi | rfl
  · exact h.phases i φ hi
  · exact known_start

/-- **Entitlement.**  From a user who never had a membership, runs whose checks write in time never
mark a membership that has not expired, and answer that it is active only before it expires. -/
theorem sound_run (p : Product) (flags : Flags) (s : Store) (hnew : s.membership = none)
    (hcache : s.cache = none) (ms : List (Move Request Reply))
    (htimely : ∀ x ∈ (watchedChecks p flags s ms).log, Timely x) :
    Sound (watchedChecks p flags s ms) := by
  have hstart : Entitled [] [] s := by
    refine ⟨⟨?_, ?_⟩, fun i φ h => (nomatch h), fun x h => (nomatch h)⟩
    · intro m hm
      simp [hnew] at hm
    · intro ends hends
      simp [hcache] at hends
  obtain ⟨-, -, hJ⟩ := Watched.play_phased Entitled Timely (program_check p flags) hstart
    (fun φs l t q h => h.spawn) (fun φs l t i φ c r h hi hA hG => h.step hi hA hG) ms htimely
  exact ⟨hJ.store.unexpired, hJ.answers⟩

end invariant

/-! ### Runs -/

/-- The purchase of an order that has no row, as the request at position `i`. -/
def purchaseMoves (i : ℕ) (orderId : String) : List (Move Request Reply) :=
  .spawn (.finalize ⟨orderId, "payment", 499, "vip_monthly", some 30⟩ 3) ::
    List.replicate 6 (.step i sampleReply)

def passMoves (i ms : ℕ) : List (Move Request Reply) := [.spawn (.pass ms), .step i sampleReply]

/-- Two minutes before the expiry of a membership of thirty days it is checked, and checked again a
second before. -/
def timelyMoves : List (Move Request Reply) :=
  purchaseMoves 0 "order" ++ passMoves 1 (30 * 86400000 - 120000) ++
    .spawn .isActive :: List.replicate 5 (.step 2 sampleReply) ++ passMoves 3 119000 ++
    [.spawn .isActive, .step 4 sampleReply]

theorem sound_run_sample : Sound (watchedChecks .vip ⟨true, true⟩ sampleStore timelyMoves) := by
  have hall : ((watchedChecks .vip ⟨true, true⟩ sampleStore timelyMoves).log.all fun x =>
      match x.2.cmd with
      | .expireMembership | .clearExpiry => false
      | .setCache ttlSec =>
        x.1.found.all fun m => decide (x.2.before.now + ttlSec * 1000 ≤ m.expiresAt)
      | _ => true) = true := by decide +kernel
  apply sound_run .vip ⟨true, true⟩ sampleStore rfl rfl
  intro x hx
  have h := List.all_eq_true.1 hall x hx
  unfold Timely
  split at h
  · cases h
  · cases h
  · intro m hm
    rw [hm] at h
    exact of_decide_eq_true h
  · trivial

/-- A check finds a membership past its expiry, the membership is renewed, and the check marks it. -/
def renewedMoves : List (Move Request Reply) :=
  purchaseMoves 0 "first" ++ passMoves 1 (31 * 86400000) ++
    .spawn .isActive :: List.replicate 3 (.step 2 sampleReply) ++ purchaseMoves 3 "second" ++
    List.replicate 2 (.step 2 sampleReply)

/-- Half a minute before the expiry a check caches its answer for a minute, and another one is
answered from the cache 15 seconds after the expiry. -/
def outlivedMoves : List (Move Request Reply) :=
  purchaseMoves 0 "order" ++ passMoves 1 (30 * 86400000 - 30000) ++
    .spawn .isActive :: List.replicate 5 (.step 2 sampleReply) ++ passMoves 3 45000 ++
    [.spawn .isActive, .step 4 sampleReply]

theorem entitlement_unsound :
    (∃ m, (watchedChecks .vip ⟨true, true⟩ sampleStore renewedMoves).pool.store.membership =
        some m ∧ m.status = .expired ∧
        (watchedChecks .vip ⟨true, true⟩ sampleStore renewedMoves).pool.store.now < m.expiresAt ∧
        (watchedChecks .vip ⟨true, true⟩ sampleStore renewedMoves).pool.store.user = some none) ∧
      ∃ x ∈ (watchedChecks .vip ⟨true, true⟩ sampleStore outlivedMoves).log,
        decides x = some true ∧
          ∃ m, x.2.before.membership = some m ∧ m.expiresAt < x.2.before.now := by
  constructor
  · have h : (watchedChecks .vip ⟨true, true⟩ sampleStore renewedMoves).pool.store.membership.map
        (fun m => (m.status, decide ((watchedChecks .vip ⟨true, true⟩ sampleStore
          renewedMoves).pool.store.now < m.expiresAt))) = some (.expired, true) := by decide +kernel
    obtain ⟨m, hm, heq⟩ := Option.map_eq_some_iff.1 h
    obtain ⟨hstatus, hfuture⟩ := Prod.mk.inj heq
    exact ⟨m, hm, hstatus, of_decide_eq_true hfuture, by decide +kernel⟩
  · have h : ((watchedChecks .vip ⟨true, true⟩ sampleStore outlivedMoves).log.any fun x =>
        decide (decides x = some true) && x.2.before.membership.any fun m =>
          decide (m.expiresAt < x.2.before.now)) = true := by decide +kernel
    obtain ⟨x, hx, hboth⟩ := List.any_eq_true.1 h
    rw [Bool.and_eq_true, decide_eq_true_eq] at hboth
    obtain ⟨hdecides, hlate⟩ := hboth
    cases hm : x.2.before.membership with
    | none =>
      simp [hm] at hlate
    | some m =>
      rw [hm] at hlate
      exact ⟨x, hx, hdecides, m, hm, of_decide_eq_true hlate⟩

end VibemeetBackend.Membership
