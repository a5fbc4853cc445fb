import Mathlib.Tactic

/-!
# Runs of a deterministic step function

The steps of a run, each with the state it finds, and the rules that lift a fact about one step to
every step of a run.
-/

namespace VibemeetBackend.Async

variable {σ ι : Type}

/-- The steps of a run, each with the state it finds. -/
def stepLog (next : σ → ι → σ) : σ → List ι → List (σ × ι)
  | _, [] => []
  | s, i :: is => (s, i) :: stepLog next (next s i) is

def runFrom (next : σ → ι → σ) (s : σ) (is : List ι) : σ := is.foldl next s

variable {next : σ → ι → σ} {s : σ} {is : List ι}

@[simp] theorem runFrom_nil (s : σ) : runFrom next s [] = s := rfl

@[simp] theorem runFrom_cons (s : σ) (i : ι) (is : List ι) :
    runFrom next s (i :: is) = runFrom next (next s i) is := rfl

theorem runFrom_append (s : σ) (is js : List ι) :
    runFrom next s (is ++ js) = runFrom next (runFrom next s is) js :=
  List.foldl_append

variable {P : σ × ι → Prop}

@[simp] theorem forall_stepLog_cons {i : ι} :
    (∀ e ∈ stepLog next s (i :: is), P e) ↔ P (s, i) ∧ ∀ e ∈ stepLog next (next s i) is, P e :=
  List.forall_mem_cons

theorem stepLog_append (s : σ) (is js : List ι) :
    stepLog next s (is ++ js) = stepLog next s is ++ stepLog next (runFrom next s is) js := by
  induction is generalizing s with
  | nil => rfl
  | cons i is ih => exact congrArg ((s, i) :: ·) (ih (next s i))

theorem mem_of_mem_stepLog {e : σ × ι} (he : e ∈ stepLog next s is) : e.2 ∈ is := by
  induction is generalizing s with
  | nil => cases he
  | cons i is ih =>
    rcases List.mem_cons.1 he with rfl | he
    · exact List.mem_cons_self
    · exact List.mem_cons_of_mem i (ih he)

theorem exists_mem_stepLog {i : ι} (hi : i ∈ is) : ∃ s', (s', i) ∈ stepLog next s is := by
  induction is generalizing s with
  | nil => cases hi
  | cons j is ih =>
    rcases List.mem_cons.1 hi with rfl | hi
    · exact ⟨s, List.mem_cons_self⟩
    · obtain ⟨s', hs'⟩ := ih hi (s := next s j)
      exact ⟨s', List.mem_cons_of_mem _ hs'⟩

variable {G : σ × ι → Prop} {I : σ → Prop}

/-- The invariant rule: what every step that meets its condition keeps holds after the run. -/
theorem runFrom_invariant (h₀ : I s) (hstep : ∀ s i, I s → G (s, i) → I (next s i))
    (hG : ∀ e ∈ stepLog next s is, G e) : I (runFrom next s is) := by
  induction is generalizing s with
  | nil => exact h₀
  | cons i is ih =>
    rw [forall_stepLog_cons] at hG
    exact ih (hstep s i h₀ hG.1) hG.2

theorem forall_stepLog_split {i : ι} {js : List ι} (h : ∀ e ∈ stepLog next s (is ++ i :: js), P e) :
    P (runFrom next s is, i) ∧ ∀ e ∈ stepLog next (next (runFrom next s is) i) js, P e := by
  rw [stepLog_append] at h
  exact forall_stepLog_cons.1 fun e he => h e (List.mem_append_right _ he)

/-- What a step brings about and every later step keeps holds after the run. -/
theorem runFrom_after {i : ι} {js : List ι} (hi : I (next (runFrom next s is) i))
    (hstep : ∀ s i, I s → G (s, i) → I (next s i))
    (hG : ∀ e ∈ stepLog next (next (runFrom next s is) i) js, G e) :
    I (runFrom next s (is ++ i :: js)) := by
  rw [runFrom_append, runFrom_cons]
  exact runFrom_invariant hi hstep hG

/-- What a step brings about and every step keeps holds at the end of the run. -/
theorem runFrom_of_mem_stepLog {e : σ × ι} (he : e ∈ stepLog next s is) (hI : I (next e.1 e.2))
    (hstep : ∀ s i, I s → I (next s i)) : I (runFrom next s is) := by
  induction is generalizing s with
  | nil => cases he
  | cons i is ih =>
    rcases List.mem_cons.1 he with rfl | he
    · rw [runFrom_cons]
      exact runFrom_invariant (G := fun _ => True) hI (fun s i h _ => hstep s i h)
        fun _ _ => trivial
    · exact ih he

theorem trace_invariant (h₀ : I s) (hstep : ∀ s i, I s → G (s, i) → I (next s i))
    (hG : ∀ e ∈ stepLog next s is, G e) : ∀ e ∈ stepLog next s is, I e.1 := by
  induction is generalizing s with
  | nil => exact fun e he => nomatch he
  | cons i is ih =>
    rw [forall_stepLog_cons] at hG ⊢
    exact ⟨h₀, ih (hstep s i h₀ hG.1) hG.2⟩

/-- Two properties of a step agree on every run when they agree wherever an invariant holds that the
steps with the property keep. -/
theorem forall_trace_iff_of_mem (h₀ : I s) (hiff : ∀ s, ∀ i ∈ is, I s → (P (s, i) ↔ G (s, i)))
    (hstep : ∀ s, ∀ i ∈ is, I s → G (s, i) → I (next s i)) :
    (∀ e ∈ stepLog next s is, P e) ↔ ∀ e ∈ stepLog next s is, G e := by
  induction is generalizing s with
  | nil => exact iff_of_true (fun e he => nomatch he) fun e he => nomatch he
  | cons i is ih =>
    rw [forall_stepLog_cons, forall_stepLog_cons, hiff s i List.mem_cons_self h₀]
    apply and_congr_right
    intro hG
    apply ih (hstep s i List.mem_cons_self h₀ hG)
    · intro s i hi
      exact hiff s i (List.mem_cons_of_mem _ hi)
    · intro s i hi
      exact hstep s i (List.mem_cons_of_mem _ hi)

theorem forall_trace_iff (h₀ : I s) (hiff : ∀ s i, I s → (P (s, i) ↔ G (s, i)))
    (hstep : ∀ s i, I s → G (s, i) → I (next s i)) :
    (∀ e ∈ stepLog next s is, P e) ↔ ∀ e ∈ stepLog next s is, G e :=
  forall_trace_iff_of_mem h₀ (fun s i _ => hiff s i) fun s i _ => hstep s i

end VibemeetBackend.Async
