import Mathlib.Algebra.BigOperators.Group.Finset.Basic
import VibemeetBackend.RateLimit.CallRate

/-!
# The rate limit neither leaks nor locks out

Whole runs of the attempts of one user, at any instances, with answers that are lost, attempts that
stop for good and instances that restart.
-/

namespace VibemeetBackend.RateLimit

open Async Flow Redis Pool

/-! ### What a run keeps to -/

def Store.unexpiring (s : Store) : ℕ :=
  match s.counter with
  | some ⟨count, none⟩ => count
  | _ => 0

def Store.idle (cfg : Config) (s : Store) : Prop := ∀ y ∈ s.touched, y + cfg.windowMs ≤ s.now

instance (cfg : Config) (s : Store) : Decidable (s.idle cfg) :=
  match h : s.touched with
  | none => isTrue fun y hy => by simp [h] at hy
  | some t => decidable_of_iff (t + cfg.windowMs ≤ s.now) (by simp [Store.idle, h])

inductive Stage where
  | begun
  /-- Its increment was the `n`-th of a window. -/
  | counted (window n : ℕ)
  | failed
  | decided (window n : ℕ)
  | fellBack (allowed : Bool)
  | ended
  deriving DecidableEq

structure Attempt where
  stage : Stage
  /-- Its increment came after an idle window. -/
  fresh : Bool
  /-- The number of commands when it last issued one, unless others came in between before. -/
  touches : ℕ

namespace Attempt

def begin : Attempt := ⟨.begun, false, 0⟩

def touch (φ : Attempt) (s : Store) (stage : Stage) : Attempt :=
  { φ with
    stage := stage
    touches := if φ.touches = s.touches then s.touches + 1 else φ.touches }

def Stage.decide : Stage → Stage
  | .counted window n => .decided window n
  | stage => stage

def next (cfg : Config) (φ : Attempt) (c : Cmd) (r : Reply) (s : Store) : Attempt :=
  match c with
  | .incr =>
    { stage := if r.ok then .counted (c.exec cfg r s).window (s.later r).newCount else .failed
      fresh := (s.later r).idle cfg
      touches := s.touches + 1 }
  | .expire => φ.touch s (if r.ok then φ.stage else .failed)
  | .ttl => φ.touch s (if r.ok then Stage.decide φ.stage else .failed)
  | .checkInMemory i =>
    φ.touch s (.fellBack
      (checkInMemoryRateLimit cfg (s.inMemoryRateLimitStore i) (s.later r).now).allowed)
  | .answer _ _ => { φ with stage := .ended }
  | .clock | .restart _ | .cleanupInMemoryStore _ => φ

/-- It has the `n`-th increment of the window and no answer yet. -/
def holds (window n : ℕ) (φ : Attempt) : Bool :=
  φ.stage = .counted window n ∨ φ.stage = .decided window n

end Attempt

def Permits (cfg : Config) (φ : Attempt) : Cmd → Prop
  | .clock | .incr => φ.stage = .begun
  | .expire | .ttl => ∃ window n, φ.stage = .counted window n
  | .checkInMemory _ => φ.stage = .failed
  | .answer true result => ∃ window n, φ.stage = .decided window n ∧
      result.allowed = decide (n ≤ cfg.callRateLimitMax)
  | .answer false result => φ.stage = .fellBack result.allowed
  | .restart _ | .cleanupInMemoryStore _ => True

abbrev RateEvent : Type := Attempt × Event Cmd Reply Store

/-- The increment of an attempt after an idle window, if Redis answers it, finds no counter at the
limit without an expiry; and when the attempt falls back after others have come in between, they
have not used up the memory's limit. -/
def Sound (cfg : Config) (x : RateEvent) : Prop :=
  match x.2.cmd with
  | .incr => (x.2.before.later x.2.ans).idle cfg → x.2.ans.ok = true →
      x.2.before.unexpiring < cfg.callRateLimitMax
  | .checkInMemory i => x.1.fresh = true → x.1.touches = x.2.before.touches ∨
      liveCount (x.2.before.inMemoryRateLimitStore i) (x.2.before.later x.2.ans).now <
        cfg.fallbackRateLimitMax
  | _ => True

/-- The caller is answered by Redis for the `n`-th increment of the window. -/
def answers (window n : ℕ) (x : RateEvent) : Bool :=
  match x.2.cmd with
  | .answer true _ => x.1.stage = .decided window n
  | _ => false

def allowsIn (window : ℕ) (x : RateEvent) : Bool :=
  match x.2.cmd, x.1.stage with
  | .answer true result, .decided window' _ => result.allowed && window' = window
  | _, _ => false

/-- An attempt after an idle window is allowed. -/
def LetsIn (x : RateEvent) : Prop :=
  match x.2.cmd with
  | .answer _ result => x.1.fresh = true → result.allowed = true
  | _ => True

/-! ### The checks follow the protocol -/

section protocol

variable {cfg : Config} {φ : Attempt} {α : Type} {c : Cmd} {Q : α → Attempt → Prop}
  {E : String → Attempt → Prop}

abbrev Counts (cfg : Config) (φ : Attempt) (p : RateFlow α) (Q : α → Attempt → Prop)
    (E : String → Attempt → Prop) : Prop :=
  Follows (guarded (Permits cfg) (Attempt.next cfg)) φ p Q E

variable {f : Reply × Store → RateFlow α}

theorem counts_run (hc : Permits cfg φ c)
    (hE : ∀ r s, r.ok = false → E "Redis error" (φ.next cfg c r s))
    (h : ∀ r s, r.ok = true → Counts cfg (φ.next cfg c r s) (f (r, s)) Q E) :
    Counts cfg φ (run c >>= f) Q E :=
  follows_call_bind fun r s => ⟨_, guarded_of hc, h r s, hE r s⟩

theorem counts_here (hc : Permits cfg φ c)
    (h : ∀ r s, Counts cfg (φ.next cfg c r s) (f (r, s)) Q E) : Counts cfg φ (here c >>= f) Q E :=
  follows_call_bind fun r s =>
    ⟨_, guarded_of hc, fun _ => h r s, fun hr => absurd hr Bool.false_ne_true.symm⟩

theorem checkRedis_counts (now : ℕ) (hφ : φ.stage = .begun) :
    Counts cfg φ (checkRedis cfg now)
      (fun result φ' => ∃ window n, φ'.stage = .decided window n ∧
        result.allowed = decide (n ≤ cfg.callRateLimitMax))
      fun _ φ' => φ'.stage = .failed := by
  apply counts_run (c := .incr) hφ
  · intro r s hr
    simp [Attempt.next, hr]
  intro r s hr
  have hcounted : (φ.next cfg .incr r s).stage =
      .counted (Cmd.incr.exec cfg r s).window (s.later r).newCount := by
    simp only [Attempt.next, hr, if_true]
  generalize φ.next cfg .incr r s = φ at hcounted
  dsimp only
  generalize (s.later r).newCount = n at hcounted
  generalize (Cmd.incr.exec cfg r s).window = window at hcounted
  apply follows_bind
  have hfirst : Counts cfg φ (expireFirst n)
      (fun _ φ' => φ'.stage = .counted window n)
      fun _ φ' => φ'.stage = .failed := by
    unfold expireFirst
    split
    · apply counts_run (c := .expire) ⟨_, _, hcounted⟩
      · intro r s hr
        simp [Attempt.next, Attempt.touch, hr]
      · intro r s hr
        apply follows_pure
        simpa [Attempt.next, Attempt.touch, hr] using hcounted
    · exact hcounted
  apply hfirst.mono
  · intro _ φ hφ
    apply counts_run (c := .ttl) ⟨_, _, hφ⟩
    · intro r s hr
      simp [Attempt.next, Attempt.touch, hr]
    · intro r s hr
      apply follows_pure
      refine ⟨window, n, ?_, rfl⟩
      simp only [Attempt.next, Attempt.touch, hr, if_true, hφ]
      rfl
  · exact fun _ _ h => h

theorem checkMemory_counts (i : ℕ) (hφ : φ.stage = .failed) :
    Counts cfg φ (checkMemory cfg i) (fun result φ' => φ'.stage = .fellBack result.allowed)
      fun _ _ => False := by
  apply counts_here (c := .checkInMemory i) hφ
  exact fun _ _ => rfl

theorem program_counts (q : Request) :
    (program cfg q).Follows (guarded (Permits cfg) (Attempt.next cfg)) Attempt.begin
      fun _ _ => True := by
  apply Follows.run
  cases q with
  | checkCallRateLimit i =>
    apply counts_here (c := .clock) (φ := Attempt.begin) rfl
    intro r s
    apply follows_bind
    apply follows_attempt
    apply (checkRedis_counts _ (φ := Attempt.begin) rfl).mono
    · simp_all [Permits, here]
    · intro e φ hstage
      apply follows_bind
      apply (checkMemory_counts i hstage).mono
      · intro result φ hstage
        apply counts_here (c := .answer false result) hstage
        exact fun _ _ => trivial
      · exact fun _ _ _ => trivial
  | restart i =>
    apply counts_here (c := .restart i) trivial
    exact fun _ _ => trivial
  | cleanupInMemoryStore i =>
    apply counts_here (c := .cleanupInMemoryStore i) trivial
    exact fun _ _ => trivial

end protocol

variable {e : Expiring ℕ}

/-! ### Steps -/

section steps

variable {cfg : Config} {c : Cmd} {r : Reply} {s : Store} {φ : Attempt} {window n i : ℕ}

theorem apply_cases (cfg : Config) (c : Cmd) (r : Reply) (s : Store) :
    c.exec cfg r s = c.mark (s.later r) ∨
    c.exec cfg r s = c.mark (c.apply cfg (s.later r)) := by
  unfold Cmd.exec
  split
  · exact .inl rfl
  · exact .inr rfl

@[simp] theorem mark_now : (c.mark s).now = s.now := by
  unfold Cmd.mark
  split <;> rfl

@[simp] theorem mark_counter : (c.mark s).counter = s.counter := by
  unfold Cmd.mark
  split <;> rfl

@[simp] theorem mark_memory : (c.mark s).inMemoryRateLimitStore = s.inMemoryRateLimitStore := by
  unfold Cmd.mark
  split <;> rfl

@[simp] theorem mark_window : (c.mark s).window = s.window := by
  unfold Cmd.mark
  split <;> rfl

theorem apply_history : (c.apply cfg s).now = s.now ∧ (c.apply cfg s).touches = s.touches ∧
    (c.apply cfg s).touched = s.touched := by
  unfold Cmd.apply
  cases c with
  | incr =>
    cases s.live <;> exact ⟨rfl, rfl, rfl⟩
  | expire =>
    cases s.live <;> exact ⟨rfl, rfl, rfl⟩
  | _ => exact ⟨rfl, rfl, rfl⟩

theorem exec_now : (c.exec cfg r s).now = s.now + r.waited := by
  obtain h | h := apply_cases cfg c r s
  · rw [h, mark_now]
    rfl
  · rw [h, mark_now, apply_history.1]
    rfl

theorem exec_touches :
    (c.exec cfg r s).touches = if c.touches then s.touches + 1 else s.touches := by
  obtain h | h := apply_cases cfg c r s
  · rw [h, Cmd.mark]
    split <;> rfl
  · rw [h, Cmd.mark]
    split
    · exact congrArg (· + 1) apply_history.2.1
    · exact apply_history.2.1

theorem exec_touched :
    (c.exec cfg r s).touched = if c.touches then some (s.now + r.waited) else s.touched := by
  obtain h | h := apply_cases cfg c r s
  · rw [h, Cmd.mark]
    split <;> rfl
  · rw [h, Cmd.mark]
    split
    · exact congrArg some apply_history.1
    · exact apply_history.2.2

theorem live_mem (h : (s.later r).live = some e) : s.counter = some e :=
  (Option.filter_eq_some_iff.1 h).1

theorem exec_expiry (he : (c.exec cfg r s).counter = some e) {x : ℕ} (hx : x ∈ e.expiresAt) :
    (∃ e', s.counter = some e' ∧ x ∈ e'.expiresAt) ∨
      c.touches = true ∧ x = s.now + r.waited + cfg.windowMs := by
  obtain h | h := apply_cases cfg c r s
  · rw [h, mark_counter] at he
    exact .inl ⟨e, he, hx⟩
  · rw [h, mark_counter] at he
    cases c with
    | incr =>
      simp only [Cmd.apply] at he
      cases hlive : (s.later r).live with
      | some e' =>
        simp only [hlive, Option.some.injEq] at he
        rw [← he] at hx
        exact .inl ⟨e', live_mem hlive, hx⟩
      | none =>
        simp only [hlive, Option.some.injEq] at he
        simp [← he] at hx
    | expire =>
      simp only [Cmd.apply] at he
      cases hlive : (s.later r).live with
      | some e' =>
        simp only [hlive, Option.some.injEq] at he
        rw [← he] at hx
        exact .inr ⟨rfl, (Option.some.inj hx).symm⟩
      | none =>
        simp only [hlive] at he
        exact .inl ⟨e, he, hx⟩
    | _ => exact .inl ⟨e, he, hx⟩

theorem exec_memory {e : MemoryEntry} (he : (c.exec cfg r s).inMemoryRateLimitStore i = some e) :
    s.inMemoryRateLimitStore i = some e ∨
      c = .checkInMemory i ∧
        e = countInMemory cfg (s.inMemoryRateLimitStore i) (s.now + r.waited) := by
  obtain h | h := apply_cases cfg c r s
  · rw [h, mark_memory] at he
    exact .inl he
  · rw [h, mark_memory] at he
    cases c with
    | incr =>
      simp only [Cmd.apply] at he
      cases hlive : (s.later r).live <;> simp only [hlive] at he <;> exact .inl he
    | expire =>
      simp only [Cmd.apply] at he
      cases hlive : (s.later r).live <;> simp only [hlive] at he <;> exact .inl he
    | checkInMemory j =>
      by_cases hij : i = j
      · subst hij
        simp only [Cmd.apply, Store.setMemory, Function.update_self, Option.some.injEq] at he
        exact .inr ⟨rfl, he.symm⟩
      · simp only [Cmd.apply, Store.setMemory, Function.update_of_ne hij] at he
        exact .inl he
    | restart j =>
      by_cases hij : i = j
      · subst hij
        simp only [Cmd.apply, Store.setMemory, Function.update_self] at he
        cases he
      · simp only [Cmd.apply, Store.setMemory, Function.update_of_ne hij] at he
        exact .inl he
    | cleanupInMemoryStore j =>
      by_cases hij : i = j
      · subst hij
        simp only [Cmd.apply, Store.setMemory, Function.update_self] at he
        exact .inl (Option.filter_eq_some_iff.1 he).1
      · simp only [Cmd.apply, Store.setMemory, Function.update_of_ne hij] at he
        exact .inl he
    | _ => exact .inl he

theorem countInMemory_expiresAt (cfg : Config) (entry : Option MemoryEntry) (now : ℕ) :
    (∃ e, entry = some e ∧ (countInMemory cfg entry now).expiresAt = e.expiresAt) ∨
      (countInMemory cfg entry now).expiresAt = now + cfg.windowMs := by
  unfold countInMemory
  cases entry <;> grind

/-! ### Increments -/

/-- The count in Redis, also when the key has run out. -/
def Store.count (s : Store) : ℕ := s.counter.elim 0 (·.value)

def Store.Issued (s : Store) (window n : ℕ) : Prop :=
  1 ≤ n ∧ (window < s.window ∨ window = s.window ∧ n ≤ s.count)

theorem issued_exec (h : s.Issued window n) : (c.exec cfg r s).Issued window n := by
  refine ⟨h.1, ?_⟩
  obtain heq | heq := apply_cases cfg c r s
  · rw [heq, mark_window, Store.count, mark_counter]
    exact h.2
  · rw [heq, mark_window, Store.count, mark_counter]
    cases c with
    | incr =>
      simp only [Cmd.apply]
      cases hlive : (s.later r).live with
      | some e =>
        have hcounter : s.counter = some e := live_mem hlive
        have hcount : s.count = e.value := by rw [Store.count, hcounter]; rfl
        rcases h.2 with hlt | ⟨rfl, hle⟩
        · exact .inl hlt
        · right
          refine ⟨rfl, ?_⟩
          show n ≤ e.value + 1
          omega
      | none =>
        left
        show window < s.window + 1
        rcases h.2 with hlt | ⟨rfl, -⟩ <;> omega
    | expire =>
      simp only [Cmd.apply]
      cases hlive : (s.later r).live with
      | some e =>
        have hcounter : s.counter = some e := live_mem hlive
        have hcount : s.count = e.value := by rw [Store.count, hcounter]; rfl
        have hissued := h.2
        rw [hcount] at hissued
        exact hissued
      | none => exact h.2
    | _ => exact h.2

theorem incr_issued (hr : r.ok = true) :
    (Cmd.incr.exec cfg r s).Issued (Cmd.incr.exec cfg r s).window (s.later r).newCount ∧
      ¬s.Issued (Cmd.incr.exec cfg r s).window (s.later r).newCount := by
  have heq : Cmd.incr.exec cfg r s = Cmd.incr.mark (Cmd.incr.apply cfg (s.later r)) := by
    simp [Cmd.exec, hr]
  have hpos : 1 ≤ (s.later r).newCount := Nat.le_add_left 1 _
  unfold Store.Issued
  rw [heq, mark_window, Store.count, mark_counter]
  simp only [Cmd.apply]
  cases hlive : (s.later r).live with
  | some e =>
    have hnew : (s.later r).newCount = e.value + 1 := by rw [Store.newCount, hlive]; rfl
    have hcounter : s.counter = some e := live_mem hlive
    have hcount : s.count = e.value := by rw [Store.count, hcounter]; rfl
    refine ⟨⟨hpos, .inr ⟨trivial, hnew.le⟩⟩, ?_⟩
    rintro ⟨-, hlt | ⟨-, hle⟩⟩
    · exact absurd hlt (lt_irrefl s.window)
    · omega
  | none =>
    have hnew : (s.later r).newCount = 1 := by rw [Store.newCount, hlive]; rfl
    refine ⟨⟨hpos, .inr ⟨trivial, hnew.le⟩⟩, ?_⟩
    rintro ⟨-, hlt | ⟨heq, -⟩⟩
    · have hlt' : s.window + 1 < s.window := hlt
      omega
    · have heq' : s.window + 1 = s.window := heq
      omega

end steps

/-! ### What the attempts promise -/

/-- What an attempt after an idle window has to show for its stage: an increment within the limit,
or a memory that counts nothing as long as no other attempt comes in between. -/
def Promised (cfg : Config) (φ : Attempt) (s : Store) : Prop :=
  φ.touches ≤ s.touches ∧ (φ.fresh = true →
    match φ.stage with
    | .counted _ n => n ≤ cfg.callRateLimitMax ∧ (φ.touches = s.touches →
        ∀ i e, s.inMemoryRateLimitStore i = some e → e.expiresAt ≤ s.now)
    | .failed => φ.touches = s.touches →
        ∀ i e, s.inMemoryRateLimitStore i = some e → e.expiresAt ≤ s.now
    | .decided _ n => n ≤ cfg.callRateLimitMax
    | .fellBack allowed => allowed = true
    | .begun | .ended => True)

/-- Every expiry lies at most a window after the last command of an attempt. -/
structure Expires (cfg : Config) (s : Store) : Prop where
  touched : ∀ y ∈ s.touched, y ≤ s.now
  counter : ∀ e, s.counter = some e → ∀ x ∈ e.expiresAt, ∃ y ∈ s.touched, x ≤ y + cfg.windowMs
  memory : ∀ i e, s.inMemoryRateLimitStore i = some e →
    ∃ y ∈ s.touched, e.expiresAt ≤ y + cfg.windowMs

section promises

variable {cfg : Config} {c : Cmd} {r : Reply} {s : Store} {φ : Attempt} {window n i : ℕ}

theorem Expires.later_touched (h : Expires cfg s) {y x : ℕ} (hy : y ∈ s.touched)
    (hx : x ≤ y + cfg.windowMs) : ∃ y ∈ (c.exec cfg r s).touched, x ≤ y + cfg.windowMs := by
  have hnow := h.touched y hy
  rw [exec_touched]
  split
  · exact ⟨s.now + r.waited, rfl, by omega⟩
  · exact ⟨y, hy, hx⟩

theorem expires_exec (h : Expires cfg s) : Expires cfg (c.exec cfg r s) := by
  constructor
  · intro y hy
    rw [exec_touched] at hy
    rw [exec_now]
    split at hy
    · exact (Option.some.inj hy).ge
    · exact (h.touched y hy).trans (Nat.le_add_right _ _)
  · intro e he x hx
    obtain ⟨e', he', hx'⟩ | ⟨htouch, rfl⟩ := exec_expiry he hx
    · obtain ⟨y, hy, hle⟩ := h.counter e' he' x hx'
      exact h.later_touched hy hle
    · simp [exec_touched, htouch]
  · intro i e he
    obtain he' | ⟨rfl, rfl⟩ := exec_memory he
    · obtain ⟨y, hy, hle⟩ := h.memory i e he'
      exact h.later_touched hy hle
    · obtain ⟨e', he', hsame⟩ | hnew := countInMemory_expiresAt cfg
        (s.inMemoryRateLimitStore i) (s.now + r.waited)
      · obtain ⟨y, hy, hle⟩ := h.memory i e' he'
        rw [hsame]
        exact h.later_touched hy hle
      · rw [hnew, exec_touched]
        exact ⟨_, rfl, le_rfl⟩

theorem promised_exec (h : Promised cfg φ s) : Promised cfg φ (c.exec cfg r s) := by
  have hmemory : (φ.touches = s.touches → ∀ i e, s.inMemoryRateLimitStore i = some e →
      e.expiresAt ≤ s.now) → φ.touches = (c.exec cfg r s).touches →
        ∀ i e, (c.exec cfg r s).inMemoryRateLimitStore i = some e →
          e.expiresAt ≤ (c.exec cfg r s).now := by
    intro hempty halone i e he
    rw [exec_touches] at halone
    have hle := h.1
    split at halone
    · omega
    · rename_i hno
      obtain he' | ⟨rfl, -⟩ := exec_memory he
      · rw [exec_now]
        exact (hempty halone i e he').trans (Nat.le_add_right _ _)
      · exact absurd rfl hno
  refine ⟨?_, ?_⟩
  · rw [exec_touches]
    have hle := h.1
    split <;> omega
  · intro hfresh
    have hstage := h.2 hfresh
    cases hφ : φ.stage <;> grind

theorem Expires.idle_counter (h : Expires cfg s) (hidle : (s.later r).idle cfg)
    (he : (s.later r).live = some e) : e.expiresAt = none := by
  cases hx : e.expiresAt with
  | none => rfl
  | some x =>
    obtain ⟨y, hy, hle⟩ := h.counter e (live_mem he) x hx
    have hdue : y + cfg.windowMs ≤ (s.later r).now := hidle y hy
    have halive := (Option.filter_eq_some_iff.1 he).2
    simp only [Expiring.alive, hx, Option.all_some, decide_eq_true_eq] at halive
    omega

theorem Expires.idle_memory (h : Expires cfg s) (hidle : (s.later r).idle cfg) (i : ℕ)
    (e : MemoryEntry) (he : s.inMemoryRateLimitStore i = some e) :
    e.expiresAt ≤ s.now + r.waited := by
  obtain ⟨y, hy, hle⟩ := h.memory i e he
  exact hle.trans (hidle y hy)

theorem idle_newCount (h : Expires cfg s) (hidle : (s.later r).idle cfg)
    (hsound : s.unexpiring < cfg.callRateLimitMax) :
    (s.later r).newCount ≤ cfg.callRateLimitMax := by
  unfold Store.newCount
  cases hlive : (s.later r).live with
  | none =>
    show 0 + 1 ≤ _
    omega
  | some e =>
    have hnone := h.idle_counter hidle hlive
    have hcounter := live_mem hlive
    have hcount : s.unexpiring = e.value := by
      obtain ⟨value, expiresAt⟩ := e
      subst hnone
      rw [Store.unexpiring, hcounter]
    show e.value + 1 ≤ _
    omega

theorem exec_memory_redis (hc : c.redis = true) {e : MemoryEntry}
    (he : (c.exec cfg r s).inMemoryRateLimitStore i = some e) :
    s.inMemoryRateLimitStore i = some e := by
  obtain he' | ⟨rfl, -⟩ := exec_memory he
  · exact he'
  · cases hc

theorem alone_exec (hc : c.redis = true) (stage : Stage)
    (h : φ.touches = s.touches → ∀ i e, s.inMemoryRateLimitStore i = some e → e.expiresAt ≤ s.now)
    (hle : φ.touches ≤ s.touches) :
    (φ.touch s stage).touches = (c.exec cfg r s).touches →
      ∀ i e, (c.exec cfg r s).inMemoryRateLimitStore i = some e →
        e.expiresAt ≤ (c.exec cfg r s).now := by
  intro halone i e he
  have htouch : c.touches = true := by
    cases c <;> first | rfl | cases hc
  rw [exec_touches, if_pos htouch] at halone
  have hsame : φ.touches = s.touches := by
    by_contra hne
    simp only [Attempt.touch, if_neg hne] at halone
    omega
  rw [exec_now]
  exact (h hsame i e (exec_memory_redis hc he)).trans (Nat.le_add_right _ _)

theorem touch_le (stage : Stage) (hle : φ.touches ≤ s.touches) (hc : c.touches = true) :
    (φ.touch s stage).touches ≤ (c.exec cfg r s).touches := by
  rw [exec_touches, if_pos hc]
  simp only [Attempt.touch]
  split <;> omega

/-- **What an attempt promises after its own command.** -/
theorem promised_next (hexp : Expires cfg s) (h : Promised cfg φ s) (hA : Permits cfg φ c)
    (hsound : Sound cfg (φ, ⟨s, c, r, c.exec cfg r s⟩)) :
    Promised cfg (φ.next cfg c r s) (c.exec cfg r s) := by
  cases c with
  | incr =>
    refine ⟨?_, ?_⟩
    · rw [exec_touches]
      exact le_rfl
    · intro hfresh
      have hidle : (s.later r).idle cfg := of_decide_eq_true hfresh
      have hmemory : ∀ i e, (Cmd.incr.exec cfg r s).inMemoryRateLimitStore i = some e →
          e.expiresAt ≤ (Cmd.incr.exec cfg r s).now := by
        intro i e he
        rw [exec_now]
        exact hexp.idle_memory hidle i e (exec_memory_redis rfl he)
      simp only [Attempt.next]
      cases hr : r.ok with
      | true => exact ⟨idle_newCount hexp hidle (hsound hidle hr), fun _ => hmemory⟩
      | false => exact fun _ => hmemory
  | expire =>
    obtain ⟨window, n, hstage⟩ := hA
    refine ⟨touch_le _ h.1 rfl, ?_⟩
    intro hfresh
    have hpromise := h.2 hfresh
    rw [hstage] at hpromise
    simp only [Attempt.next, Attempt.touch]
    cases hr : r.ok with
    | true =>
      simp only [hstage, if_true]
      exact ⟨hpromise.1, alone_exec rfl .begun hpromise.2 h.1⟩
    | false => exact alone_exec rfl .begun hpromise.2 h.1
  | ttl =>
    obtain ⟨window, n, hstage⟩ := hA
    refine ⟨touch_le _ h.1 rfl, ?_⟩
    intro hfresh
    have hpromise := h.2 hfresh
    rw [hstage] at hpromise
    simp only [Attempt.next, Attempt.touch]
    cases hr : r.ok with
    | true =>
      simp only [hstage, if_true]
      exact hpromise.1
    | false => exact alone_exec rfl .begun hpromise.2 h.1
  | checkInMemory i =>
    have hstage : φ.stage = .failed := hA
    refine ⟨touch_le _ h.1 rfl, ?_⟩
    intro hfresh
    have hpromise := h.2 hfresh
    rw [hstage] at hpromise
    show (checkInMemoryRateLimit cfg (s.inMemoryRateLimitStore i) (s.later r).now).allowed = true
    rw [checkInMemory_allowed]
    rcases hsound hfresh with halone | hcount
    · have hpos : 0 < cfg.fallbackRateLimitMax := lt_of_lt_of_le Nat.zero_lt_one (le_max_left ..)
      unfold liveCount
      cases hentry : s.inMemoryRateLimitStore i with
      | none => exact hpos
      | some e =>
        have hpast : e.expiresAt ≤ (s.later r).now :=
          (hpromise halone i e hentry).trans (Nat.le_add_right _ _)
        simpa [hpast] using hpos
    · exact hcount
  | answer redis result =>
    refine ⟨(promised_exec h).1, fun _ => trivial⟩
  | _ => exact promised_exec h

end promises

/-! ### Runs -/

def rateRun (cfg : Config) (now : ℕ) (ms : List (Move Request Reply)) :
    Watched Attempt Cmd Reply Store :=
  (Watched.start (Store.initial now)).play (Attempt.next cfg) (fun _ : Request => Attempt.begin)
    (Cmd.exec cfg) (program cfg) ms

structure Kept (cfg : Config) (φs : List Attempt) (l : List RateEvent) (t : Store) : Prop where
  expires : Expires cfg t
  promised : ∀ φ ∈ φs, Promised cfg φ t
  places : ∀ window n, l.countP (answers window n) + φs.countP (Attempt.holds window n) ≤ 1
  issued : ∀ window n, 0 < l.countP (answers window n) + φs.countP (Attempt.holds window n) →
    t.Issued window n
  allowed : ∀ x ∈ l, ∀ window, allowsIn window x = true →
    ∃ n ≤ cfg.callRateLimitMax, answers window n x = true
  letIn : ∀ x ∈ l, LetsIn x

section runs

variable {cfg : Config} {c : Cmd} {r : Reply} {s t : Store} {φ : Attempt} {φs : List Attempt}
  {l : List RateEvent} {window n i : ℕ}

theorem Kept.start (cfg : Config) (now : ℕ) : Kept cfg [] [] (Store.initial now) := by
  constructor
  · exact ⟨fun _ h => (nomatch h), fun _ h => (nomatch h), fun _ _ h => (nomatch h)⟩
  · exact fun _ h => (nomatch h)
  · exact fun _ _ => Nat.zero_le 1
  · exact fun _ _ h => (nomatch h)
  · exact fun _ h => (nomatch h)
  · exact fun _ h => (nomatch h)

theorem Kept.spawn (h : Kept cfg φs l t) : Kept cfg (φs ++ [Attempt.begin]) l t := by
  have hcount : ∀ window n, (φs ++ [Attempt.begin]).countP (Attempt.holds window n) =
      φs.countP (Attempt.holds window n) := by
    intro window n
    rw [countP_snoc]
    rfl
  constructor
  · exact h.expires
  · exact forall_snoc h.promised ⟨Nat.zero_le _, fun hfresh => (nomatch hfresh)⟩
  · intro window n
    rw [hcount]
    exact h.places window n
  · intro window n
    rw [hcount]
    exact h.issued window n
  · exact h.allowed
  · exact h.letIn

theorem holds_next (hA : Permits cfg φ c) (window n : ℕ) :
    (answers window n (φ, ⟨s, c, r, c.exec cfg r s⟩)).toNat +
        ((φ.next cfg c r s).holds window n).toNat ≤ (φ.holds window n).toNat ∨
      c = .incr ∧ r.ok = true ∧ window = (c.exec cfg r s).window ∧ n = (s.later r).newCount ∧
        (answers window n (φ, ⟨s, c, r, c.exec cfg r s⟩)).toNat +
          ((φ.next cfg c r s).holds window n).toNat ≤ 1 := by
  cases c with
  | incr =>
    by_cases hr : r.ok = true
    · by_cases hplace : window = (Cmd.incr.exec cfg r s).window ∧ n = (s.later r).newCount
      · right
        refine ⟨rfl, hr, hplace.1, hplace.2, ?_⟩
        show 0 + _ ≤ 1
        rw [Nat.zero_add]
        exact Bool.toNat_le _
      · left
        have hnot : (φ.next cfg .incr r s).holds window n = false := by
          simp only [Attempt.next, hr, if_true, Attempt.holds, Stage.counted.injEq, reduceCtorEq,
            or_false, decide_eq_false_iff_not]
          exact fun h => hplace ⟨h.1.symm, h.2.symm⟩
        rw [hnot]
        exact Nat.zero_le _
    · left
      have hnot : (φ.next cfg .incr r s).holds window n = false := by
        simp [Attempt.next, hr, Attempt.holds]
      rw [hnot]
      exact Nat.zero_le _
  | expire =>
    obtain ⟨window', n', hstage⟩ := hA
    left
    cases hr : r.ok <;> simp [answers, Attempt.next, Attempt.touch, hr, Attempt.holds, hstage]
  | ttl =>
    obtain ⟨window', n', hstage⟩ := hA
    left
    cases hr : r.ok <;>
      simp [answers, Attempt.next, Attempt.touch, hr, Attempt.holds, hstage, Attempt.Stage.decide]
  | checkInMemory i =>
    have hstage : φ.stage = .failed := hA
    left
    simp [answers, Attempt.next, Attempt.touch, Attempt.holds]
  | answer redis result =>
    left
    cases redis with
    | true =>
      obtain ⟨window', n', hstage, -⟩ := hA
      simp [answers, Attempt.next, Attempt.holds, hstage]
    | false =>
      simp [answers, Attempt.next, Attempt.holds]
  | clock =>
    left
    simp [answers, Attempt.next]
  | restart i =>
    left
    simp [answers, Attempt.next]
  | cleanupInMemoryStore i =>
    left
    simp [answers, Attempt.next]

theorem permits_allowed (hA : Permits cfg φ c) (h : allowsIn window (φ, ⟨s, c, r, t⟩) = true) :
    ∃ n ≤ cfg.callRateLimitMax, answers window n (φ, ⟨s, c, r, t⟩) = true := by
  cases c with
  | answer redis result =>
    cases redis with
    | true =>
      obtain ⟨window', n, hstage, hallowed⟩ := hA
      simp only [allowsIn, hstage, hallowed, Bool.and_eq_true, decide_eq_true_eq] at h
      refine ⟨n, h.1, ?_⟩
      simp [answers, hstage, h.2]
    | false => simp [allowsIn] at h
  | _ => simp [allowsIn] at h

theorem permits_letsIn (hA : Permits cfg φ c) (h : Promised cfg φ s) :
    LetsIn (φ, ⟨s, c, r, t⟩) := by
  cases c with
  | answer redis result =>
    intro hfresh
    have hpromise := h.2 hfresh
    cases redis with
    | true =>
      obtain ⟨window, n, hstage, hallowed⟩ := hA
      rw [hstage] at hpromise
      rw [hallowed]
      exact decide_eq_true hpromise
    | false =>
      have hstage : φ.stage = .fellBack result.allowed := hA
      rw [hstage] at hpromise
      exact hpromise
  | _ => trivial

/-- **One step.** -/
theorem Kept.step (h : Kept cfg φs l t) (hi : φs[i]? = some φ) (hA : Permits cfg φ c)
    (hsound : Sound cfg (φ, ⟨t, c, r, c.exec cfg r t⟩)) :
    Kept cfg (φs.set i (φ.next cfg c r t)) (l ++ [(φ, ⟨t, c, r, c.exec cfg r t⟩)])
      (c.exec cfg r t) := by
  have hφ : φ ∈ φs := List.mem_of_getElem? hi
  have hsum : ∀ window n,
      (l ++ [((φ, ⟨t, c, r, c.exec cfg r t⟩) : RateEvent)]).countP (answers window n) +
          (φs.set i (φ.next cfg c r t)).countP (Attempt.holds window n) + (φ.holds window n).toNat =
        l.countP (answers window n) + φs.countP (Attempt.holds window n) +
          ((answers window n (φ, ⟨t, c, r, c.exec cfg r t⟩)).toNat +
            ((φ.next cfg c r t).holds window n).toNat) := by
    intro window n
    have hset := countP_phases_set hi (ψ := φ.next cfg c r t) (Attempt.holds window n)
    rw [countP_snoc]
    omega
  constructor
  · exact expires_exec h.expires
  · apply forall_set
    · exact fun χ hχ => promised_exec (h.promised χ hχ)
    · exact promised_next h.expires (h.promised φ hφ) hA hsound
  · intro window n
    have hstep := hsum window n
    have hplace := h.places window n
    obtain hle | ⟨rfl, hr, rfl, rfl, hone⟩ := holds_next (s := t) (r := r) hA window n
    · omega
    · -- the increment takes a place that nobody has had
      have hfree : ¬0 < l.countP (answers (Cmd.incr.exec cfg r t).window (t.later r).newCount) +
          φs.countP (Attempt.holds (Cmd.incr.exec cfg r t).window (t.later r).newCount) :=
        fun hpos => (incr_issued hr).2 (h.issued _ _ hpos)
      omega
  · intro window n hpos
    have hstep := hsum window n
    obtain hle | ⟨rfl, hr, rfl, rfl, hone⟩ := holds_next (s := t) (r := r) hA window n
    · exact issued_exec (h.issued window n (by omega))
    · exact (incr_issued hr).1
  · apply forall_snoc h.allowed
    intro window hallow
    exact permits_allowed hA hallow
  · exact forall_snoc h.letIn (permits_letsIn hA (h.promised φ hφ))

end runs

theorem countP_le_sum {α : Type} {p : α → Bool} {q : ℕ → α → Bool} {m : ℕ} {l : List α}
    (h : ∀ x ∈ l, p x = true → ∃ n ≤ m, q n x = true) :
    l.countP p ≤ ∑ n ∈ Finset.range (m + 1), l.countP (q n) := by
  induction l with
  | nil => exact Nat.zero_le _
  | cons x l ih =>
    have hrest := ih fun y hy => h y (List.mem_cons_of_mem x hy)
    simp only [List.countP_cons, Finset.sum_add_distrib]
    apply Nat.add_le_add hrest
    split
    · rename_i hx
      obtain ⟨n, hn, hq⟩ := h x List.mem_cons_self hx
      have hmem : n ∈ Finset.range (m + 1) := Finset.mem_range.2 (Nat.lt_succ_of_le hn)
      have hone : (if q n x = true then 1 else 0) = 1 := if_pos hq
      apply hone.ge.trans
      exact Finset.single_le_sum (f := fun n => if q n x = true then 1 else 0)
        (fun _ _ => Nat.zero_le _) hmem
    · exact Nat.zero_le _

structure NeitherLeaksNorLocksOut (cfg : Config) (l : List RateEvent) : Prop where
  within : ∀ window, l.countP (allowsIn window) ≤ cfg.callRateLimitMax
  /-- An attempt after an idle window is allowed. -/
  letIn : ∀ x ∈ l, LetsIn x

theorem Kept.within {cfg : Config} {φs : List Attempt} {l : List RateEvent} {t : Store}
    (h : Kept cfg φs l t) (window : ℕ) : l.countP (allowsIn window) ≤ cfg.callRateLimitMax := by
  have hzero : l.countP (answers window 0) = 0 := by
    by_contra hne
    have hpos : 0 < l.countP (answers window 0) + φs.countP (Attempt.holds window 0) := by omega
    have hissued := (h.issued window 0 hpos).1
    omega
  calc l.countP (allowsIn window)
      ≤ ∑ n ∈ Finset.range (cfg.callRateLimitMax + 1), l.countP (answers window n) :=
        countP_le_sum fun x hx hallow => h.allowed x hx window hallow
    _ = ∑ n ∈ Finset.range cfg.callRateLimitMax, l.countP (answers window (n + 1)) := by
        rw [Finset.sum_range_succ', hzero, Nat.add_zero]
    _ ≤ ∑ _n ∈ Finset.range cfg.callRateLimitMax, 1 :=
        Finset.sum_le_sum fun n _ => le_of_add_le_left (h.places window (n + 1))
    _ = cfg.callRateLimitMax := by
        rw [Finset.sum_const, Finset.card_range, smul_eq_mul, Nat.mul_one]

/-- **The rate limit neither leaks nor locks out** in every run whose commands are sound. -/
theorem call_rate_run (cfg : Config) (now : ℕ) (ms : List (Move Request Reply))
    (hsound : ∀ x ∈ (rateRun cfg now ms).log, Sound cfg x) :
    NeitherLeaksNorLocksOut cfg (rateRun cfg now ms).log := by
  obtain ⟨-, -, hkept⟩ := Watched.play_phased (Kept cfg) (Sound cfg) program_counts
    (Kept.start cfg now) (fun _ _ _ _ h => h.spawn)
    (fun _ _ _ _ _ _ _ h hi hA hG => h.step hi hA hG) ms hsound
  exact ⟨hkept.within, hkept.letIn⟩

instance (cfg : Config) : DecidablePred (Sound cfg) := fun x => by
  unfold Sound
  split <;> infer_instance

instance : DecidablePred LetsIn := fun x => by
  unfold LetsIn
  split <;> infer_instance

def defaultConfig : Config := ⟨10, 60⟩

/-- An attempt that Redis answers throughout, after some time. -/
def answered (position waited : ℕ) (steps : ℕ) : List (Move Request Reply) :=
  .spawn (.checkCallRateLimit 0) ::
    List.replicate steps (.step position ⟨true, true, waited⟩)

def idleWindow : List (Move Request Reply) :=
  answered 0 0 5 ++ answered 1 0 4 ++ answered 2 60000 4

theorem idleWindow_letsIn :
    NeitherLeaksNorLocksOut defaultConfig (rateRun defaultConfig 0 idleWindow).log :=
  call_rate_run defaultConfig 0 idleWindow (by decide +kernel)

/-- The first attempt stops after its increment, nine more are allowed, and one comes a minute
later. -/
def neverExpires : List (Move Request Reply) :=
  answered 0 0 2 ++ (List.range 9).flatMap (fun n => answered (n + 1) 0 4) ++ answered 10 60000 4

/-- The counter has no expiry, and the attempt after an idle window is turned away. -/
theorem neverExpires_locksOut :
    ¬NeitherLeaksNorLocksOut defaultConfig (rateRun defaultConfig 0 neverExpires).log := by
  intro h
  have hlast : ∃ x ∈ (rateRun defaultConfig 0 neverExpires).log, ¬LetsIn x := by
    decide +kernel
  obtain ⟨x, hx, hnot⟩ := hlast
  exact hnot (h.letIn x hx)

end VibemeetBackend.RateLimit
