import VibemeetBackend.Async.Trace
import VibemeetBackend.Breaker.CircuitBreaker

/-!
# When the circuit breaker protects

Runs of one breaker: calls of `execute` that overlap in any way, the ends of the calls they let
through, and the time that passes before each reading of the clock.  `protected_iff` says exactly
which runs keep what the breaker is for: no call before the next attempt, one trial at a time, and
a failed trial that opens the circuit again for a whole timeout.

No call is ever let through before the next attempt.  The rest fails in three ways: the half-open
circuit lets every call through, not one; the monitoring window may have cleared the failure count,
so that a failed trial stays below the threshold; and a late failure of an earlier call may have
opened the circuit already, so that the trial's own failure adds no time.
-/

namespace VibemeetBackend.Breaker

open Async

/-- One breaker, with the clock, the calls of its function that have not ended, and the history that
the law speaks of. -/
structure BreakerRun where
  clock : ℕ
  circuit : CircuitState
  /-- The number of calls let through so far, which is the name of the next one. -/
  started : ℕ
  running : List ℕ
  openings : List ℚ
  /-- The circuit has opened and no call has succeeded since. -/
  recovering : Bool
  /-- The running calls that were let through since that opening. -/
  trials : List ℕ
  deriving DecidableEq

def BreakerRun.create (clock : ℕ) : BreakerRun := ⟨clock, .initial, 0, [], [], false, []⟩

/-- A step of a run, with the time that passes before its first reading of the clock and between
that reading and the second. -/
inductive Event where
  | execute (waited between : ℕ)
  | settle (call : ℕ) (success : Bool) (waited between : ℕ)
  deriving DecidableEq, Repr

def BreakerRun.execute (o : CircuitBreakerOptions) (waited between : ℕ) (b : BreakerRun) : BreakerRun :=
  let now := b.clock + waited
  let later := now + between
  let entered := enter o now later b.circuit
  if entered.2 = none then
    { b with
      clock := later
      circuit := entered.1
      started := b.started + 1
      running := b.started :: b.running
      trials := if b.recovering then b.started :: b.trials else b.trials }
  else { b with clock := later, circuit := entered.1 }

/-- The first success after an opening ends the recovery. -/
def BreakerRun.succeed (call later : ℕ) (b : BreakerRun) : BreakerRun :=
  { b with
    clock := later
    circuit := onSuccess b.circuit
    running := b.running.erase call
    recovering := false
    trials := [] }

def BreakerRun.fail (o : CircuitBreakerOptions) (call now later : ℕ) (b : BreakerRun) : BreakerRun :=
  let circuit := onFailure o now later b.circuit
  let opens := b.circuit.state ≠ .opened ∧ circuit.state = .opened
  { b with
    clock := later
    circuit := circuit
    running := b.running.erase call
    openings := if opens then circuit.nextAttempt :: b.openings else b.openings
    recovering := if opens then true else b.recovering
    trials := b.trials.erase call }

/-- One step: a call of `execute`, or the end of a call that it let through. -/
def BreakerRun.next (o : CircuitBreakerOptions) (b : BreakerRun) : Event → BreakerRun
  | .execute waited between => b.execute o waited between
  | .settle call success waited between =>
    let now := b.clock + waited
    let later := now + between
    if call ∈ b.running then
      if success then b.succeed call later else b.fail o call now later
    else { b with clock := later }

/-! ## The law and its condition -/

structure Protects (o : CircuitBreakerOptions) (e : BreakerRun × Event) : Prop where
  /-- A call is let through only when the next attempts of all openings have come. -/
  waits : (e.1.next o e.2).started ≠ e.1.started →
    ∀ attempt ∈ e.1.openings, attempt ≤ (e.1.next o e.2).clock
  alone : (e.1.next o e.2).trials.length ≤ 1
  /-- A failed trial opens the circuit for a whole timeout. -/
  reopens : ∀ call waited between, e.2 = .settle call false waited between →
    call ∈ e.1.running → call ∈ e.1.trials →
      (e.1.next o e.2).circuit.state = .opened ∧
        ((e.1.next o e.2).clock : ℚ) + o.resetTimeout ≤ (e.1.next o e.2).circuit.nextAttempt

def CircuitState.refuses (s : CircuitState) (time : ℕ) : Prop :=
  s.state = .opened ∧ (time : ℚ) < s.nextAttempt

instance (s : CircuitState) (time : ℕ) : Decidable (s.refuses time) :=
  inferInstanceAs (Decidable (_ ∧ _))

/-- No second call arrives at a circuit that lets it through while a trial runs, and a trial that
fails finds the circuit half-open with a failure count that the failure brings to the threshold, or
opened at this very moment. -/
def Orderly (o : CircuitBreakerOptions) (e : BreakerRun × Event) : Prop :=
  match e.2 with
  | .execute waited between =>
    e.1.trials = [] ∨ e.1.circuit.refuses (e.1.clock + waited + between)
  | .settle call success waited between =>
    success = false → call ∈ e.1.running → call ∈ e.1.trials →
      if e.1.circuit.state = .opened then
        ((e.1.clock + waited + between : ℕ) : ℚ) + o.resetTimeout ≤ e.1.circuit.nextAttempt
      else o.failureThreshold ≤ (e.1.circuit.failures : ℚ) + 1

/-! ## The invariant -/

structure Guarding (b : BreakerRun) : Prop where
  openings : ∀ attempt ∈ b.openings,
    attempt ≤ b.clock ∨ b.circuit.state = .opened ∧ attempt ≤ b.circuit.nextAttempt
  trials : b.recovering = false → b.trials = []
  alone : b.trials.length ≤ 1

variable {o : CircuitBreakerOptions} {b : BreakerRun}

theorem guarding_create (clock : ℕ) : Guarding (BreakerRun.create clock) :=
  ⟨fun _ h => (List.not_mem_nil h).elim, fun _ => rfl, Nat.zero_le 1⟩

/-! ## A call of `execute` -/

section Execute

variable {waited between : ℕ}

theorem execute_refused (h : b.circuit.refuses (b.clock + waited + between)) :
    b.execute o waited between =
      { b with
        clock := b.clock + waited + between
        circuit := (enter o (b.clock + waited) (b.clock + waited + between) b.circuit).1 } := by
  have herr := (enter_error (o := o) (Nat.le_add_right (b.clock + waited) between)).2 h
  simp only [BreakerRun.execute, if_neg herr]

theorem execute_passed (h : ¬b.circuit.refuses (b.clock + waited + between)) :
    b.execute o waited between =
      { b with
        clock := b.clock + waited + between
        circuit := (enter o (b.clock + waited) (b.clock + waited + between) b.circuit).1
        started := b.started + 1
        running := b.started :: b.running
        trials := if b.recovering then b.started :: b.trials else b.trials } := by
  have herr : (enter o (b.clock + waited) (b.clock + waited + between) b.circuit).2 = none := by
    by_contra hne
    exact h ((enter_error (Nat.le_add_right (b.clock + waited) between)).1 hne)
  simp only [BreakerRun.execute, if_pos herr]

theorem openings_le_of_passed (hb : Guarding b)
    (h : ¬b.circuit.refuses (b.clock + waited + between)) :
    ∀ attempt ∈ b.openings, attempt ≤ ((b.clock + waited + between : ℕ) : ℚ) := by
  intro attempt hmem
  have hclock : (b.clock : ℚ) ≤ ((b.clock + waited + between : ℕ) : ℚ) := by
    have hle : b.clock ≤ b.clock + waited + between := by omega
    exact_mod_cast hle
  rcases hb.openings attempt hmem with hle | ⟨ho, hle⟩
  · exact hle.trans hclock
  · exact hle.trans (not_lt.1 fun hlt => h ⟨ho, hlt⟩)

theorem execute_openings (hb : Guarding b) :
    ∀ attempt ∈ b.openings,
      attempt ≤ (b.clock + waited + between : ℕ) ∨
        (enter o (b.clock + waited) (b.clock + waited + between) b.circuit).1.state = .opened ∧
        attempt ≤
          (enter o (b.clock + waited) (b.clock + waited + between) b.circuit).1.nextAttempt := by
  intro attempt hmem
  by_cases h : b.circuit.refuses (b.clock + waited + between)
  · rw [enter_state (Nat.le_add_right _ between), enter_nextAttempt, if_pos h.1, if_pos h.2]
    rcases hb.openings attempt hmem with hle | ⟨-, hle⟩
    · left
      have hclock : b.clock ≤ b.clock + waited + between := by omega
      exact hle.trans (by exact_mod_cast hclock)
    · exact .inr ⟨rfl, hle⟩
  · exact .inl (openings_le_of_passed hb h attempt hmem)

theorem protects_execute_iff (hb : Guarding b) :
    Protects o (b, .execute waited between) ↔ Orderly o (b, .execute waited between) := by
  by_cases h : b.circuit.refuses (b.clock + waited + between)
  · apply iff_of_true
    · constructor
      · intro hne
        exact absurd (by simp only [BreakerRun.next, execute_refused h]) hne
      · simp only [BreakerRun.next, execute_refused h]
        exact hb.alone
      · intro call waited between he
        cases he
    · exact .inr h
  · constructor
    · intro hp
      have halone := hp.alone
      simp only [BreakerRun.next, execute_passed h] at halone
      left
      by_cases hr : b.recovering
      · simp_all
      · exact hb.trials (by simpa using hr)
    · intro hg
      have hnil : b.trials = [] := hg.resolve_right h
      constructor
      · intro _
        simp only [BreakerRun.next, execute_passed h]
        exact openings_le_of_passed hb h
      · simp only [BreakerRun.next, execute_passed h, hnil]
        split <;> simp
      · intro call waited between he
        cases he

theorem guarding_execute (hb : Guarding b) (hg : Orderly o (b, .execute waited between)) :
    Guarding (b.next o (.execute waited between)) := by
  show Guarding (b.execute o waited between)
  by_cases h : b.circuit.refuses (b.clock + waited + between)
  · rw [execute_refused h]
    exact ⟨execute_openings hb, hb.trials, hb.alone⟩
  · have hnil : b.trials = [] := hg.resolve_right h
    rw [execute_passed h]
    constructor
    · exact execute_openings hb
    · intro hr
      have hidle : b.recovering = false := hr
      simp only [hidle, Bool.false_eq_true, if_false, hnil]
    · simp only [hnil]
      split <;> simp

end Execute

/-! ## The end of a call -/

section Settle

variable {call : ℕ} {success : Bool} {waited between : ℕ}

theorem guarding_succeed (hb : Guarding b) :
    Guarding (b.succeed call (b.clock + waited + between)) := by
  refine ⟨?_, fun _ => rfl, Nat.zero_le 1⟩
  intro attempt hmem
  have hclock : b.clock ≤ b.clock + waited + between := by omega
  rcases hb.openings attempt hmem with hle | ⟨ho, hle⟩
  · exact .inl (hle.trans (by exact_mod_cast hclock))
  · right
    simp only [BreakerRun.succeed, onSuccess_state, onSuccess_nextAttempt, ho, reduceCtorEq, if_false]
    exact ⟨trivial, hle⟩

theorem onFailure_cases (s : CircuitState) (now later : ℕ) :
    s.state ≠ .opened ∧ (onFailure o now later s).state = .opened ∨
      (onFailure o now later s).state = s.state ∧
        (onFailure o now later s).nextAttempt = s.nextAttempt := by
  by_cases ho : s.state = .opened
  · right
    rw [ho]
    exact onFailure_opened o now later ho
  · by_cases hf : o.failureThreshold ≤ (s.failures : ℚ) + 1
    · exact .inl ⟨ho, (onFailure_opens now later ho hf).1⟩
    · exact .inr (onFailure_below now later hf)

theorem guarding_fail (hb : Guarding b) :
    Guarding (b.fail o call (b.clock + waited) (b.clock + waited + between)) := by
  have hclock : b.clock ≤ b.clock + waited + between := by omega
  have hcast : (b.clock : ℚ) ≤ ((b.clock + waited + between : ℕ) : ℚ) := by exact_mod_cast hclock
  have hlen : (b.trials.erase call).length ≤ 1 :=
    List.erase_sublist.length_le.trans hb.alone
  rcases onFailure_cases (o := o) b.circuit (b.clock + waited) (b.clock + waited + between) with
    hopens | ⟨hstate, hnext⟩
  · constructor
    · simp only [BreakerRun.fail, if_pos hopens]
      intro attempt hmem
      rcases List.mem_cons.1 hmem with rfl | hmem
      · exact .inr ⟨hopens.2, le_rfl⟩
      · rcases hb.openings attempt hmem with hle | ⟨ho, -⟩
        · exact .inl (hle.trans hcast)
        · exact absurd ho hopens.1
    · simp only [BreakerRun.fail, if_pos hopens]
      intro hr
      cases hr
    · exact hlen
  · have hnot : ¬(b.circuit.state ≠ .opened ∧
        (onFailure o (b.clock + waited) (b.clock + waited + between) b.circuit).state =
          .opened) := by
      rw [hstate]
      exact fun h => h.1 h.2
    constructor
    · simp only [BreakerRun.fail, if_neg hnot]
      rw [hstate, hnext]
      intro attempt hmem
      exact (hb.openings attempt hmem).imp_left fun hle => hle.trans hcast
    · simp only [BreakerRun.fail, if_neg hnot]
      intro hr
      rw [hb.trials hr, List.erase_nil]
    · exact hlen

theorem guarding_settle (hb : Guarding b) :
    Guarding (b.next o (.settle call success waited between)) := by
  simp only [BreakerRun.next]
  split
  · split
    · exact guarding_succeed hb
    · exact guarding_fail hb
  · have hclock : b.clock ≤ b.clock + waited + between := by omega
    refine ⟨?_, hb.trials, hb.alone⟩
    intro attempt hmem
    exact (hb.openings attempt hmem).imp_left fun hle => hle.trans (by exact_mod_cast hclock)

theorem settle_started :
    (b.next o (.settle call success waited between)).started = b.started := by
  simp only [BreakerRun.next]
  split
  · split <;> rfl
  · rfl

theorem onFailure_reopens_iff (s : CircuitState) (now later : ℕ) :
    (onFailure o now later s).state = .opened ∧
        (later : ℚ) + o.resetTimeout ≤ (onFailure o now later s).nextAttempt ↔
      if s.state = .opened then (later : ℚ) + o.resetTimeout ≤ s.nextAttempt
      else o.failureThreshold ≤ (s.failures : ℚ) + 1 := by
  by_cases ho : s.state = .opened
  · obtain ⟨hstate, hnext⟩ := onFailure_opened o now later ho
    simp [ho, hstate, hnext]
  · rw [if_neg ho]
    by_cases hf : o.failureThreshold ≤ (s.failures : ℚ) + 1
    · obtain ⟨hstate, hnext⟩ := onFailure_opens now later ho hf
      rw [hstate, hnext]
      exact iff_of_true ⟨rfl, le_rfl⟩ hf
    · apply iff_of_false _ hf
      rw [(onFailure_below now later hf).1]
      exact fun h => ho h.1

theorem protects_settle_iff (hb : Guarding b) :
    Protects o (b, .settle call success waited between) ↔
      Orderly o (b, .settle call success waited between) := by
  constructor
  · intro hp hs hrun htrial
    subst hs
    have hopen := hp.reopens call waited between rfl hrun htrial
    simp only [BreakerRun.next, if_pos hrun, Bool.false_eq_true, if_false, BreakerRun.fail] at hopen
    exact (onFailure_reopens_iff b.circuit _ _).1 hopen
  · intro hg
    constructor
    · intro hne
      exact absurd settle_started hne
    · exact (guarding_settle hb).alone
    · intro call' waited' between' he hrun htrial
      cases he
      simpa [BreakerRun.next, hrun,
        BreakerRun.fail] using (onFailure_reopens_iff b.circuit _ _).2 (hg rfl hrun htrial)

end Settle

/-! ## Every run -/

theorem protects_iff (hb : Guarding b) (event : Event) :
    Protects o (b, event) ↔ Orderly o (b, event) := by
  cases event with
  | execute waited between => exact protects_execute_iff hb
  | settle call success waited between => exact protects_settle_iff hb

theorem guarding_next (hb : Guarding b) (event : Event) (hg : Orderly o (b, event)) :
    Guarding (b.next o event) := by
  cases event with
  | execute waited between => exact guarding_execute hb hg
  | settle call success waited between => exact guarding_settle hb

/-- **When the breaker protects**: in every run, under any options, no call is let through before a
next attempt, at most one trial runs and every failed trial opens the circuit for a whole timeout,
exactly when every step is orderly. -/
theorem breaker_protects_iff (options : PartialOptions) (clock : ℕ) (events : List Event) :
    (∀ e ∈ stepLog (BreakerRun.next options.complete) (BreakerRun.create clock) events,
        Protects options.complete e) ↔
      ∀ e ∈ stepLog (BreakerRun.next options.complete) (BreakerRun.create clock) events,
        Orderly options.complete e :=
  forall_trace_iff (guarding_create clock) (fun _ event hb => protects_iff hb event)
    fun _ event hb hg => guarding_next hb event hg

/-- The options of the breakers around the video and chat services. -/
def streamOptions : PartialOptions :=
  { failureThreshold := some 5, resetTimeout := some 60000, monitoringWindow := some 60000 }

/-- Five calls that fail at once, a call more than a minute later, and its failure. -/
def longOutage : List Event :=
  (List.range 5).flatMap (fun call => [.execute 0 0, .settle call false 0 0]) ++
    [.execute 60001 0, .settle 5 false 0 0]

/-- The monitoring window has cleared the count by the time the trial fails: the circuit stays
half-open. -/
theorem longOutage_not_protected :
    ¬∀ e ∈ stepLog (BreakerRun.next streamOptions.complete) (BreakerRun.create 0) longOutage,
      Protects streamOptions.complete e := by
  intro h
  have hlast := h (runFrom (BreakerRun.next streamOptions.complete) (BreakerRun.create 0)
    (longOutage.take 11), .settle 5 false 0 0) (by decide +kernel)
  have hopen := (hlast.reopens 5 0 0 rfl (by decide +kernel) (by decide +kernel)).1
  exact absurd hopen (by decide +kernel)

end VibemeetBackend.Breaker
