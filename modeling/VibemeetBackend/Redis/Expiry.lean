import Mathlib.Data.Nat.Basic
import Mathlib.Logic.Function.Basic

/-!
# Keys that expire

A key-value store of Redis whose entries may carry the time (in milliseconds) at which they expire.
A key is found until its time has passed; nothing else removes it than a write.
-/

namespace VibemeetBackend.Redis

structure Expiring (α : Type) where
  value : α
  expiresAt : Option ℕ

def Expiring.alive {α : Type} (e : Expiring α) (now : ℕ) : Bool :=
  e.expiresAt.all (now < ·)

abbrev Keys (κ α : Type) := κ → Option (Expiring α)

namespace Keys

variable {κ α : Type} [DecidableEq κ]

def empty : Keys κ α := fun _ => none

def find (s : Keys κ α) (now : ℕ) (k : κ) : Option (Expiring α) :=
  (s k).filter (·.alive now)

/-- `SET`, and `SETEX` when there is a time of expiry. -/
def write (s : Keys κ α) (k : κ) (value : α) (expiresAt : Option ℕ) : Keys κ α :=
  Function.update s k (some ⟨value, expiresAt⟩)

def del (s : Keys κ α) (k : κ) : Keys κ α := Function.update s k none

variable {s : Keys κ α} {now : ℕ} {k j : κ} {e : Expiring α} {value : α} {expiresAt : Option ℕ}

omit [DecidableEq κ] in
theorem find_eq_some : s.find now k = some e ↔ s k = some e ∧ e.alive now := by
  unfold find
  rw [Option.filter_eq_some_iff]

@[simp] theorem write_self : s.write k value expiresAt k = some ⟨value, expiresAt⟩ :=
  Function.update_self ..

theorem write_of_ne (h : j ≠ k) : s.write k value expiresAt j = s j :=
  Function.update_of_ne h ..

@[simp] theorem del_self : s.del k k = none := Function.update_self ..

theorem del_of_ne (h : j ≠ k) : s.del k j = s j := Function.update_of_ne h ..

end Keys

end VibemeetBackend.Redis
