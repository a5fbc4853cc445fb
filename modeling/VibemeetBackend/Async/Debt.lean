import VibemeetBackend.Async.Protocol

/-!
# Writes that are owed

A program that has made one of two writes owes the other one: `n` to an account `k`.  What all
programs in progress owe an account is the difference between the two sides of the books.
-/

namespace VibemeetBackend.Async

variable {K : Type} [DecidableEq K]

/-- Nothing, or an amount that is still to be written to an account. -/
abbrev Debt (K : Type) : Type := Option (K × ℤ)

def Debt.due (d : Debt K) (k : K) : ℤ :=
  match d with
  | some (k', n) => if k' = k then n else 0
  | none => 0

theorem Debt.due_owe (k : K) (n : ℤ) (k' : K) :
    Debt.due (some (k, n)) k' = if k = k' then n else 0 := rfl

theorem Debt.due_paid (k : K) : Debt.due none k = 0 := rfl

namespace Pool

variable {C ρ σ Φ : Type} {δ : Φ → C → ρ → σ → Option Φ} {R : Φ → Prop}

/-- What the programs in these phases owe an account. -/
def due (owes : Φ → Debt K) (φs : List Φ) (k : K) : ℤ := (φs.map fun φ => (owes φ).due k).sum

variable {owes : Φ → Debt K} {φs : List Φ}

theorem due_set {i : ℕ} {φ ψ : Φ} (hi : φs[i]? = some φ) (k : K) :
    due owes (φs.set i ψ) k = due owes φs k + ((owes ψ).due k - (owes φ).due k) :=
  sum_phases_set hi fun φ => (owes φ).due k

theorem due_append {φ : Φ} (h : owes φ = none) (k : K) :
    due owes (φs ++ [φ]) k = due owes φs k := by
  rw [due, List.map_append, List.sum_append, List.map_singleton, List.sum_singleton, h,
    Debt.due_paid, add_zero]
  rfl

theorem InPhases.due_eq_zero {procs : List (Prog C ρ σ Unit)} (h : InPhases δ R φs procs)
    (hpaid : ∀ p ∈ procs, ∀ φ, p.Follows δ φ (fun _ => R) → owes φ = none) (k : K) :
    due owes φs k = 0 := by
  apply List.sum_eq_zero
  intro n hn
  obtain ⟨φ, hφ, rfl⟩ := List.mem_map.1 hn
  obtain ⟨i, hi⟩ := List.mem_iff_getElem?.1 hφ
  obtain ⟨hlt, -⟩ := List.getElem?_eq_some_iff.1 hi
  have hat : ∃ p, procs[i]? = some p := ⟨_, List.getElem?_eq_getElem (h.length ▸ hlt)⟩
  obtain ⟨p, hproc⟩ := hat
  obtain ⟨φ', hφ', hfollows⟩ := h.follows i p hproc
  obtain rfl := Option.mem_unique hi hφ'
  rw [hpaid p (List.mem_of_getElem? hproc) φ hfollows, Debt.due_paid]

end Pool

end VibemeetBackend.Async
