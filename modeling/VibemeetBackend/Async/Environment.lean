import VibemeetBackend.Async.Prog

/-!
# Programs in an environment

An environment answers every command, according to the command and to how many came before it, so a
program that runs in one always returns.
-/

namespace VibemeetBackend.Async

variable {C ρ σ α β : Type}

namespace Prog

/-- The run of the program in an environment, from its `n`-th command on. -/
def under (env : ℕ → C → ρ) (sem : C → ρ → σ → σ) : Prog C ρ σ α → ℕ → σ → α × σ
  | .ret a, _, s => (a, s)
  | .act c k, n, s => under env sem (k (env n c) s) (n + 1) (sem c (env n c) s)

/-- From `s`, when each command `c` is answered as `R c` allows, the value and the store satisfy
`Q`. -/
def Meets (R : C → ρ → Prop) (sem : C → ρ → σ → σ) :
    Prog C ρ σ α → (α → σ → Prop) → σ → Prop
  | .ret a, Q, s => Q a s
  | .act c k, Q, s => ∀ r, R c r → Meets R sem (k r s) Q (sem c r s)

variable {R : C → ρ → Prop} {sem : C → ρ → σ → σ} {s : σ}

variable {p : Prog C ρ σ α}

theorem meets_bind {f : α → Prog C ρ σ β} {Q : β → σ → Prop} :
    Meets R sem (p >>= f) Q s ↔ Meets R sem p (fun a s' => Meets R sem (f a) Q s') s := by
  induction p generalizing s with
  | ret a => exact Iff.rfl
  | act c k ih =>
    apply forall_congr'
    intro r
    apply imp_congr_right
    intro _
    exact ih r s

theorem meets_command_bind {c : C} {f : ρ × σ → Prog C ρ σ β} {Q : β → σ → Prop} :
    Meets R sem (command c >>= f) Q s ↔ ∀ r, R c r → Meets R sem (f (r, s)) Q (sem c r s) :=
  Iff.rfl

variable {Q : α → σ → Prop}

theorem Meets.mono {Q' : α → σ → Prop} (h : Meets R sem p Q s) (hq : ∀ a s', Q a s' → Q' a s') :
    Meets R sem p Q' s := by
  induction p generalizing s with
  | ret a => exact hq a s h
  | act c k ih =>
    intro r hr
    exact ih r s (h r hr)

theorem Holds.meets {I : σ → Prop} (h : Holds sem I p Q s) : Meets R sem p Q s := by
  induction p generalizing s with
  | ret a => exact h
  | act c k ih =>
    intro r _
    exact ih r s (h r).2

/-- **Soundness.** -/
theorem under_meets {env : ℕ → C → ρ} (henv : ∀ n c, R c (env n c)) (h : Meets R sem p Q s)
    (n : ℕ) : Q (p.under env sem n s).1 (p.under env sem n s).2 := by
  induction p generalizing s n with
  | ret a => exact h
  | act c k ih => exact ih (env n c) s (h (env n c) (henv n c)) (n + 1)

end Prog

end VibemeetBackend.Async
