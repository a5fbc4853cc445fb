import Mathlib.Tactic

/-!
# Transactions whose callback keeps documents in memory

A document that was loaded before a transaction keeps in memory what its callback assigned, also when
the transaction is aborted and the callback runs again.  A save writes the fields that were assigned
another value since they were last saved.
-/

namespace VibemeetBackend.Mongo

structure DocField (α : Type) where
  value : α
  modified : Bool

namespace DocField

variable {α : Type}

def load (a : α) : DocField α := ⟨a, false⟩

def set [DecidableEq α] (f : DocField α) (a : α) : DocField α := if a = f.value then f else ⟨a, true⟩

def saved (f : DocField α) : DocField α := ⟨f.value, false⟩

def write (f : DocField α) (stored : α) : α := if f.modified then f.value else stored

@[simp] theorem load_value (a : α) : (load a).value = a := rfl

@[simp] theorem saved_value (f : DocField α) : f.saved.value = f.value := rfl

@[simp] theorem saved_modified (f : DocField α) : f.saved.modified = false := rfl

variable {f : DocField α} {a : α}

theorem write_clean (h : f.modified = false) (stored : α) : f.write stored = stored := by
  unfold write
  rw [h]
  rfl

variable [DecidableEq α]

@[simp] theorem set_value (f : DocField α) (a : α) : (f.set a).value = a := by
  unfold set
  split
  · rename_i h
    exact h.symm
  · rfl

theorem set_same (h : a = f.value) : f.set a = f := if_pos h

theorem write_set (h : a ≠ f.value) (stored : α) : (f.set a).write stored = a := by
  unfold set
  rw [if_neg h]
  rfl

theorem write_load_set (stored a : α) : ((load stored).set a).write stored = a := by
  unfold set
  split
  · rename_i h
    exact h.symm
  · rfl

end DocField

/-- One awaited step of a callback: what it assigns before its command, the command, and how a
command that succeeds marks the memory. -/
structure Step (M S : Type) where
  assign : M → M
  command : M → S → Except String S
  settle : M → M

variable {ι M S : Type}

def runSteps : List (Step M S) → M → S → Except String (M × S)
  | [], m, s => .ok (m, s)
  | step :: steps, m, s => do
    let s' ← step.command (step.assign m) s
    runSteps steps (step.settle (step.assign m)) s'

/-- The memory after an attempt whose transaction is aborted in its step number `cut`, or in its
commit. -/
def abortSteps : List (Step M S) → ℕ → M → S → Except String M
  | [], _, m, _ => .ok m
  | step :: _, 0, m, _ => .ok (step.assign m)
  | step :: steps, cut + 1, m, s => do
    let s' ← step.command (step.assign m) s
    abortSteps steps cut (step.settle (step.assign m)) s'

/-- The memory after attempts that are all aborted; each starts from the stores. -/
def abortAll (body : ι → M → List (Step M S)) : List (ι × ℕ) → M → S → Except String M
  | [], m, _ => .ok m
  | (i, cut) :: attempts, m, s => do
    let m' ← abortSteps (body i m) cut m s
    abortAll body attempts m' s

def withTransaction (body : ι → M → List (Step M S)) (aborted : List (ι × ℕ)) (last : ι) (m : M)
    (s : S) : Except String (M × S) := do
  let m' ← abortAll body aborted m s
  runSteps (body last m') m' s

variable {body : ι → M → List (Step M S)}

variable {m : M} {s : S}

/-- The attempt that commits starts from the memory that the others left. -/
theorem ok_of_withTransaction {aborted : List (ι × ℕ)} {last : ι} {m'' : M} {s' : S}
    (h : withTransaction body aborted last m s = .ok (m'', s')) :
    ∃ m', abortAll body aborted m s = .ok m' ∧ runSteps (body last m') m' s = .ok (m'', s') := by
  unfold withTransaction at h
  cases hm : abortAll body aborted m s with
  | error e =>
    rw [hm] at h
    cases h
  | ok m' =>
    rw [hm] at h
    exact ⟨m', rfl, h⟩

variable {steps : List (Step M S)} {step : Step M S}

theorem runSteps_cons {m'' : M} {s'' : S} (h : runSteps (step :: steps) m s = .ok (m'', s'')) :
    ∃ s', step.command (step.assign m) s = .ok s' ∧
      runSteps steps (step.settle (step.assign m)) s' = .ok (m'', s'') := by
  unfold runSteps at h
  cases hs : step.command (step.assign m) s with
  | error e =>
    rw [hs] at h
    cases h
  | ok s' =>
    rw [hs] at h
    exact ⟨s', rfl, h⟩

variable {front : List (Step M S)}

theorem runSteps_append {back : List (Step M S)} {m'' : M} {s'' : S}
    (h : runSteps (front ++ back) m s = .ok (m'', s'')) :
    ∃ m' s', runSteps front m s = .ok (m', s') ∧ runSteps back m' s' = .ok (m'', s'') := by
  induction front generalizing m s with
  | nil => exact ⟨m, s, rfl, h⟩
  | cons step front ih =>
    obtain ⟨s₁, h₁, hrest⟩ := runSteps_cons h
    obtain ⟨m', s', hfront, hback⟩ := ih hrest
    refine ⟨m', s', ?_, hback⟩
    unfold runSteps
    rw [h₁]
    exact hfront

variable {cut : ℕ} {m' : M}

theorem abortSteps_cons (h : abortSteps (step :: steps) (cut + 1) m s = .ok m') :
    ∃ s', step.command (step.assign m) s = .ok s' ∧
      abortSteps steps cut (step.settle (step.assign m)) s' = .ok m' := by
  unfold abortSteps at h
  cases hs : step.command (step.assign m) s with
  | error e =>
    rw [hs] at h
    cases h
  | ok s' =>
    rw [hs] at h
    exact ⟨s', rfl, h⟩

/-- **The memory of an aborted attempt**: what its assignments and the marks of its saves keep. -/
theorem abortSteps_keeps {P : M → Prop} (hassign : ∀ step ∈ steps, ∀ m, P m → P (step.assign m))
    (hsettle : ∀ step ∈ steps, ∀ m, P m → P (step.settle m)) (hm : P m)
    (h : abortSteps steps cut m s = .ok m') : P m' := by
  induction steps generalizing cut m s with
  | nil =>
    obtain rfl : m = m' := Except.ok.inj h
    exact hm
  | cons step steps ih =>
    have hassigned := hassign step List.mem_cons_self m hm
    cases cut with
    | zero =>
      obtain rfl : step.assign m = m' := Except.ok.inj h
      exact hassigned
    | succ cut =>
      obtain ⟨s', -, hrest⟩ := abortSteps_cons h
      apply ih _ _ (hsettle step List.mem_cons_self _ hassigned) hrest
      · intro step' hmem
        exact hassign step' (List.mem_cons_of_mem step hmem)
      · intro step' hmem
        exact hsettle step' (List.mem_cons_of_mem step hmem)

theorem abortSteps_lt {back : List (Step M S)} (hcut : cut < front.length) (m : M) (s : S) :
    abortSteps (front ++ back) cut m s = abortSteps front cut m s := by
  induction front generalizing cut m s with
  | nil => cases hcut
  | cons step front ih =>
    cases cut with
    | zero => rfl
    | succ cut =>
      show Except.bind _ _ = Except.bind _ _
      apply congrArg
      funext s'
      exact ih (Nat.lt_of_succ_lt_succ hcut) _ s'

theorem abortSteps_reached {P : M → Prop} (hassign : ∀ st ∈ front, ∀ m, P m → P (st.assign m))
    (hsettle : ∀ st ∈ front, ∀ m, P m → P (st.settle m)) (hcut : front.length ≤ cut) (hm : P m)
    (h : abortSteps (front ++ [step]) cut m s = .ok m') :
    ∃ m₁, P m₁ ∧
      m' = if cut = front.length then step.assign m₁ else step.settle (step.assign m₁) := by
  induction front generalizing cut m s with
  | nil =>
    refine ⟨m, hm, ?_⟩
    cases cut with
    | zero => exact (Except.ok.inj h).symm
    | succ cut =>
      obtain ⟨s', -, hrest⟩ := abortSteps_cons h
      exact (Except.ok.inj hrest).symm
  | cons st front ih =>
    cases cut with
    | zero => cases hcut
    | succ cut =>
      obtain ⟨s', -, hrest⟩ := abortSteps_cons h
      have hkept := hsettle st List.mem_cons_self _ (hassign st List.mem_cons_self m hm)
      obtain ⟨m₁, hm₁, heq⟩ := ih (fun st' hmem => hassign st' (List.mem_cons_of_mem st hmem))
        (fun st' hmem => hsettle st' (List.mem_cons_of_mem st hmem)) (Nat.le_of_succ_le_succ hcut)
        hkept hrest
      refine ⟨m₁, hm₁, ?_⟩
      rw [heq, List.length_cons]
      by_cases hlast : cut = front.length
      · rw [if_pos hlast, if_pos (congrArg Nat.succ hlast)]
      · simp

variable {P : List (ι × ℕ) → M → Prop}

theorem aborted_after
    (hstep : ∀ done i cut m m', P done m → abortSteps (body i m) cut m s = .ok m' →
      P (done ++ [(i, cut)]) m') {attempts done : List (ι × ℕ)} (hm : P done m)
    (h : abortAll body attempts m s = .ok m') : P (done ++ attempts) m' := by
  induction attempts generalizing done m with
  | nil =>
    obtain rfl : m = m' := Except.ok.inj h
    rw [List.append_nil]
    exact hm
  | cons attempt attempts ih =>
    obtain ⟨i, cut⟩ := attempt
    unfold abortAll at h
    cases hone : abortSteps (body i m) cut m s with
    | error e =>
      rw [hone] at h
      cases h
    | ok m₁ =>
      rw [hone] at h
      have hrest := ih (hstep done i cut m m₁ hm hone) h
      rw [List.append_assoc] at hrest
      exact hrest

/-- **The invariant rule** for aborted attempts; `P` may speak of the attempts so far. -/
theorem aborted_invariant
    (hstep : ∀ done i cut m m', P done m → abortSteps (body i m) cut m s = .ok m' →
      P (done ++ [(i, cut)]) m') {attempts : List (ι × ℕ)} (hm : P [] m)
    (h : abortAll body attempts m s = .ok m') : P attempts m' := by
  have hafter := aborted_after hstep hm h
  rwa [List.nil_append] at hafter

end VibemeetBackend.Mongo
