import VibemeetBackend.Async.Prog

/-!
# Programs under answers that satisfy a condition

`Prog.Holds` speaks of every answer.  What a program does may depend on a fact about its environment
that each answer carries, such as a clock that does not run backwards.  `HoldsOn R` is the same
logic for the runs whose answers satisfy `R`.
-/

namespace VibemeetBackend.Async

variable {C ρ σ α β : Type}

namespace Prog

/-- `Holds` for runs whose answers satisfy `R`. -/
def HoldsOn (R : ρ → Prop) (sem : C → ρ → σ → σ) (I : σ → Prop) :
    Prog C ρ σ α → (α → σ → Prop) → σ → Prop
  | .ret a, Q, s => Q a s
  | .act c k, Q, s => ∀ r, R r → I (sem c r s) ∧ HoldsOn R sem I (k r s) Q (sem c r s)

variable {R : ρ → Prop} {sem : C → ρ → σ → σ} {I : σ → Prop}

variable {p : Prog C ρ σ α} {s : σ}

theorem holdsOn_bind {f : α → Prog C ρ σ β} {Q : β → σ → Prop} :
    HoldsOn R sem I (p >>= f) Q s ↔
      HoldsOn R sem I p (fun a s' => HoldsOn R sem I (f a) Q s') s := by
  induction p generalizing s with
  | ret a => exact Iff.rfl
  | act c k ih =>
    apply forall_congr'
    intro r
    apply imp_congr_right
    intro _
    apply and_congr_right
    intro _
    exact ih r s

theorem holdsOn_command_bind {c : C} {f : ρ × σ → Prog C ρ σ β} {Q : β → σ → Prop} :
    HoldsOn R sem I (command c >>= f) Q s ↔
      ∀ r, R r → I (sem c r s) ∧ HoldsOn R sem I (f (r, s)) Q (sem c r s) := Iff.rfl

variable {Q : α → σ → Prop}

theorem HoldsOn.mono {Q' : α → σ → Prop} (h : HoldsOn R sem I p Q s)
    (hq : ∀ a s', Q a s' → Q' a s') : HoldsOn R sem I p Q' s := by
  induction p generalizing s with
  | ret a => exact hq a s h
  | act c k ih =>
    intro r hr
    have hstep := h r hr
    exact ⟨hstep.1, ih r s hstep.2⟩

theorem Holds.on (h : Holds sem I p Q s) : HoldsOn R sem I p Q s := by
  induction p generalizing s with
  | ret a => exact h
  | act c k ih =>
    intro r _
    have hstep := h r
    exact ⟨hstep.1, ih r s hstep.2⟩

/-- **Soundness.**  What the logic proves holds of every run whose answers satisfy `R`. -/
theorem exec_of_holdsOn (hs : I s) (h : HoldsOn R sem I p Q s) {rs : List ρ} (hrs : ∀ r ∈ rs, R r) :
    I (p.exec sem rs s).1 ∧ ∀ a, (p.exec sem rs s).2 = some a → Q a (p.exec sem rs s).1 := by
  induction p generalizing s rs with
  | ret a =>
    refine ⟨hs, ?_⟩
    intro b hb
    obtain rfl : a = b := Option.some.inj hb
    exact h
  | act c k ih =>
    cases rs with
    | nil =>
      refine ⟨hs, ?_⟩
      intro b hb
      cases hb
    | cons r rs =>
      have hstep := h r (hrs r List.mem_cons_self)
      apply ih r s hstep.1 hstep.2
      intro x hx
      exact hrs x (List.mem_cons_of_mem r hx)

end Prog

end VibemeetBackend.Async
