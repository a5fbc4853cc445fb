import Mathlib.Data.Rat.Floor

/-!
# The circuit breaker

`CircuitBreaker` of the calls to external services: the state it keeps, what `execute` does before
it calls its function (`enter`) and what it does when that call has ended (`onSuccess`,
`onFailure`).  Each of these runs without a pause; the clock is read where the source reads it.
-/

namespace VibemeetBackend.Breaker

/-- The states `'closed'`, `'open'` and `'half-open'`. -/
inductive Circuit where
  | closed
  | opened
  | halfOpen
  deriving DecidableEq, Repr

structure CircuitBreakerOptions where
  failureThreshold : ℚ
  resetTimeout : ℚ
  monitoringWindow : ℚ

structure PartialOptions where
  failureThreshold : Option ℚ := none
  resetTimeout : Option ℚ := none
  monitoringWindow : Option ℚ := none

/-- A `value || fallback` of a number that may be missing. -/
def orDefault (value : Option ℚ) (fallback : ℚ) : ℚ :=
  match value with
  | none => fallback
  | some x => if x = 0 then fallback else x

def PartialOptions.complete (options : PartialOptions) : CircuitBreakerOptions where
  failureThreshold := orDefault options.failureThreshold 5
  resetTimeout := orDefault options.resetTimeout 60000
  monitoringWindow := orDefault options.monitoringWindow 60000

structure CircuitState where
  failures : ℕ
  lastFailureTime : ℕ
  state : Circuit
  nextAttempt : ℚ
  deriving DecidableEq, Repr

def CircuitState.initial : CircuitState := ⟨0, 0, .closed, 0⟩

def clearFailures (o : CircuitBreakerOptions) (now : ℕ) (s : CircuitState) : CircuitState :=
  if o.monitoringWindow < (now : ℚ) - s.lastFailureTime then
    if 0 < s.failures then { s with failures := 0 } else s
  else s

/-- The open circuit whose timeout has passed lets a trial through. -/
def autoReset (now : ℕ) (s : CircuitState) : CircuitState :=
  if s.state = .opened ∧ s.nextAttempt ≤ now then { s with state := .halfOpen } else s

def updateState (o : CircuitBreakerOptions) (now : ℕ) (s : CircuitState) : CircuitState :=
  autoReset now (clearFailures o now s)

def getState (o : CircuitBreakerOptions) (now : ℕ) (s : CircuitState) : CircuitState :=
  updateState o now s

/-- The text of the error that a refused call gets. -/
def openError (s : CircuitState) (now : ℕ) : String :=
  "Circuit breaker is OPEN. Retry after " ++ toString ⌈(s.nextAttempt - now) / 1000⌉ ++ "s"

/-- What `execute` does before it calls its function: the state it leaves, and the error when it
throws instead.  The clock is read once by `updateState` and again while the circuit is open. -/
def enter (o : CircuitBreakerOptions) (now later : ℕ) (s : CircuitState) :
    CircuitState × Option String :=
  let s := updateState o now s
  if s.state = .opened then
    if (later : ℚ) < s.nextAttempt then (s, some (openError s later))
    else ({ s with state := .halfOpen }, none)
  else (s, none)

def onSuccess (s : CircuitState) : CircuitState :=
  if s.state = .halfOpen then { s with state := .closed, failures := 0 }
  else { s with failures := 0 }

/-- One more failure; `now` and `later` are the two readings of the clock. -/
def onFailure (o : CircuitBreakerOptions) (now later : ℕ) (s : CircuitState) : CircuitState :=
  let s := { s with failures := s.failures + 1, lastFailureTime := now }
  if o.failureThreshold ≤ s.failures then
    if s.state ≠ .opened then
      { s with state := .opened, nextAttempt := later + o.resetTimeout }
    else s
  else s

/-! ## What a call finds -/

variable {o : CircuitBreakerOptions} {s : CircuitState} {now later : ℕ}

@[simp] theorem clearFailures_state : (clearFailures o now s).state = s.state := by
  unfold clearFailures
  split
  · split <;> rfl
  · rfl

@[simp] theorem clearFailures_nextAttempt :
    (clearFailures o now s).nextAttempt = s.nextAttempt := by
  unfold clearFailures
  split
  · split <;> rfl
  · rfl

@[simp] theorem autoReset_nextAttempt : (autoReset now s).nextAttempt = s.nextAttempt := by
  unfold autoReset
  split <;> rfl

@[simp] theorem updateState_nextAttempt : (updateState o now s).nextAttempt = s.nextAttempt := by
  simp only [updateState, autoReset_nextAttempt, clearFailures_nextAttempt]

theorem updateState_state :
    (updateState o now s).state =
      if s.state = .opened ∧ s.nextAttempt ≤ now then .halfOpen else s.state := by
  simp only [updateState, autoReset, clearFailures_state, clearFailures_nextAttempt]
  split <;> simp only [clearFailures_state]

@[simp] theorem enter_nextAttempt : (enter o now later s).1.nextAttempt = s.nextAttempt := by
  simp only [enter]
  split
  · split <;> exact updateState_nextAttempt
  · exact updateState_nextAttempt

theorem enter_error (hle : now ≤ later) :
    (enter o now later s).2 ≠ none ↔ s.state = .opened ∧ (later : ℚ) < s.nextAttempt := by
  have hcast : (now : ℚ) ≤ later := by exact_mod_cast hle
  simp only [enter, updateState_state, updateState_nextAttempt]
  by_cases ho : s.state = .opened
  · by_cases hn : s.nextAttempt ≤ now
    · have hlate : s.nextAttempt ≤ later := hn.trans hcast
      simp [ho, hn, not_lt.2 hlate]
    · by_cases hl : (later : ℚ) < s.nextAttempt <;> simp [ho, hn, hl]
  · simp [ho]

theorem enter_state (hle : now ≤ later) :
    (enter o now later s).1.state =
      if s.state = .opened then
        if (later : ℚ) < s.nextAttempt then .opened else .halfOpen
      else s.state := by
  have hcast : (now : ℚ) ≤ later := by exact_mod_cast hle
  simp only [enter, updateState_state, updateState_nextAttempt]
  by_cases ho : s.state = .opened
  · by_cases hn : s.nextAttempt ≤ now
    · have hlate : s.nextAttempt ≤ later := hn.trans hcast
      simp [ho, hn, not_lt.2 hlate, updateState_state]
    · by_cases hl : (later : ℚ) < s.nextAttempt <;> simp [ho, hn, hl, updateState_state]
  · simp [ho, updateState_state]

/-! ## What the end of a call does -/

@[simp] theorem onSuccess_nextAttempt : (onSuccess s).nextAttempt = s.nextAttempt := by
  unfold onSuccess
  split <;> rfl

theorem onSuccess_state :
    (onSuccess s).state = if s.state = .halfOpen then .closed else s.state := by
  unfold onSuccess
  split <;> rfl

theorem onFailure_opens (now later : ℕ) (ho : s.state ≠ .opened) (hf : o.failureThreshold ≤ (s.failures : ℚ) + 1) :
    (onFailure o now later s).state = .opened ∧
      (onFailure o now later s).nextAttempt = later + o.resetTimeout := by
  have hf' : o.failureThreshold ≤ ((s.failures + 1 : ℕ) : ℚ) := by exact_mod_cast hf
  simp only [onFailure, if_pos hf', if_pos ho, and_self]

theorem onFailure_below (now later : ℕ) (hf : ¬o.failureThreshold ≤ (s.failures : ℚ) + 1) :
    (onFailure o now later s).state = s.state ∧
      (onFailure o now later s).nextAttempt = s.nextAttempt := by
  have hf' : ¬o.failureThreshold ≤ ((s.failures + 1 : ℕ) : ℚ) := by exact_mod_cast hf
  simp only [onFailure, if_neg hf', and_self]

theorem onFailure_opened (o : CircuitBreakerOptions) (now later : ℕ) (ho : s.state = .opened) :
    (onFailure o now later s).state = .opened ∧
      (onFailure o now later s).nextAttempt = s.nextAttempt := by
  simp only [onFailure]
  split
  · simp only [ho, ne_eq, not_true_eq_false, if_false, and_self]
  · exact ⟨ho, rfl⟩

end VibemeetBackend.Breaker
