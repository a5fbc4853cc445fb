import VibemeetBackend.Async.Protocol

/-!
# The run of one program among others

A run of a program that returns, while others work on the same store: before each of its commands
and after the last one the store may move as `G` allows.
-/

namespace VibemeetBackend.Async

variable {C ρ σ α Φ : Type}

namespace Prog

/-- The program runs from `s` to `s'` with these commands and returns the value. -/
inductive Among (sem : C → ρ → σ → σ) (G : σ → σ → Prop) :
    Prog C ρ σ α → σ → List (Event C ρ σ) → σ → α → Prop where
  | returned {a : α} {s s' : σ} : G s s' → Among sem G (.ret a) s [] s' a
  | step {c : C} {k : ρ → σ → Prog C ρ σ α} {s t s' : σ} {r : ρ} {es : List (Event C ρ σ)} {a : α} :
    G s t → Among sem G (k r t) (sem c r t) es s' a →
      Among sem G (.act c k) s (⟨t, c, r, sem c r t⟩ :: es) s' a

variable {sem : C → ρ → σ → σ} {G : σ → σ → Prop} {δ : Φ → C → ρ → σ → Option Φ}

/-- Where the others may leave the store as it is, a program may run alone. -/
theorem among_of_exec (hG : ∀ s, G s s) {p : Prog C ρ σ α} {rs : List ρ} {s s' : σ} {a : α}
    (h : p.exec sem rs s = (s', some a)) : Among sem G p s (p.events sem rs s) s' a := by
  induction p generalizing rs s with
  | ret b =>
    obtain ⟨rfl, hb⟩ := Prod.mk.inj h
    cases hb
    exact .returned (hG s)
  | act c k ih =>
    cases rs with
    | nil => cases (Prod.mk.inj h).2
    | cons r rs => exact .step (hG s) (ih r s h)

/-- **The invariant rule.**  `J` relates the phase, the commands so far and the store. -/
theorem Among.invariant {J : Φ → List (Event C ρ σ) → σ → Prop} {p : Prog C ρ σ α} {s s' : σ}
    {es log : List (Event C ρ σ)} {a : α} {φ : Φ} {Q : α → Φ → Prop}
    (hrun : Among sem G p s es s' a) (hp : p.Follows δ φ Q)
    (hstep : ∀ φ log t c r ψ, δ φ c r t = some ψ → J φ log t →
      J ψ (log ++ [⟨t, c, r, sem c r t⟩]) (sem c r t))
    (hG : ∀ φ log s t, G s t → J φ log s → J φ log t) (hs : J φ log s) :
    ∃ φ', Q a φ' ∧ J φ' (log ++ es) s' := by
  induction hrun generalizing φ log with
  | returned h =>
    rw [List.append_nil]
    exact ⟨φ, hp, hG φ log _ _ h hs⟩
  | @step c k s t s' r es a h hrun ih =>
    obtain ⟨ψ, hδ, hk⟩ := hp r t
    have hnext := hstep φ log t c r ψ hδ (hG φ log s t h hs)
    obtain ⟨φ', hQ, hJ⟩ := ih hk hnext
    rw [List.append_assoc] at hJ
    exact ⟨φ', hQ, hJ⟩

end Prog

end VibemeetBackend.Async
