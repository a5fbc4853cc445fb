import Mathlib.Tactic
import Mathlib.Data.Int.Log

/-!
# Numbers of the source language

`Math.round` rounds to the nearest integer, halves towards positive infinity.  A product or quotient
is the double nearest to the exact one, ties to the even significand.
-/

namespace VibemeetBackend

/-- `Math.round`. -/
def mathRound (x : ℚ) : ℤ := ⌊x + 1 / 2⌋

theorem mathRound_intCast (n : ℤ) : mathRound n = n := by
  unfold mathRound
  rw [Int.floor_eq_iff]
  constructor
  · linarith
  · linarith

def roundTiesEven (x : ℚ) : ℤ :=
  if x - ⌊x⌋ < 1 / 2 ∨ (x - ⌊x⌋ = 1 / 2 ∧ Even ⌊x⌋) then ⌊x⌋ else ⌊x⌋ + 1

/-- The bits that a double near `x` has for its fraction, of 53 significant ones.  Integers are exact
in this development, also those beyond the safe ones. -/
def fractionBits (x : ℚ) : ℕ := (52 - Int.log 2 |x|).toNat

/-- The double that an operation with the exact result `x` gives. -/
def toDouble (x : ℚ) : ℚ := roundTiesEven (x * 2 ^ fractionBits x) / 2 ^ fractionBits x

variable {x : ℚ} {n : ℤ}

theorem le_roundTiesEven (h : n ≤ x) : n ≤ roundTiesEven x := by
  have hfloor : n ≤ ⌊x⌋ := Int.le_floor.2 h
  unfold roundTiesEven
  split <;> omega

theorem roundTiesEven_le (h : x ≤ n) : roundTiesEven x ≤ n := by
  have hfloor : ⌊x⌋ ≤ n := Int.floor_le_iff.2 (h.trans_lt (lt_add_one _))
  unfold roundTiesEven
  split
  · exact hfloor
  · rename_i hup
    -- rounded up, `x` is no integer
    refine Int.lt_iff_add_one_le.1 (lt_of_le_of_ne hfloor fun heq => hup (.inl ?_))
    rw [heq]
    linarith

theorem le_toDouble (h : n ≤ x) : n ≤ toDouble x := by
  have hpos : (0 : ℚ) < 2 ^ fractionBits x := by positivity
  have hround : n * 2 ^ fractionBits x ≤ roundTiesEven (x * 2 ^ fractionBits x) :=
    le_roundTiesEven (by push_cast; exact mul_le_mul_of_nonneg_right h hpos.le)
  exact (le_div_iff₀ hpos).2 (by exact_mod_cast hround)

theorem toDouble_le (h : x ≤ n) : toDouble x ≤ n := by
  have hpos : (0 : ℚ) < 2 ^ fractionBits x := by positivity
  have hround : roundTiesEven (x * 2 ^ fractionBits x) ≤ n * 2 ^ fractionBits x :=
    roundTiesEven_le (by push_cast; exact mul_le_mul_of_nonneg_right h hpos.le)
  exact (div_le_iff₀ hpos).2 (by exact_mod_cast hround)

theorem toDouble_intCast (n : ℤ) : toDouble n = n :=
  le_antisymm (toDouble_le le_rfl) (le_toDouble le_rfl)

theorem toDouble_natCast (n : ℕ) : toDouble n = n := by exact_mod_cast toDouble_intCast n

theorem toDouble_zero : toDouble 0 = 0 := by exact_mod_cast toDouble_natCast 0

theorem toDouble_one : toDouble 1 = 1 := by exact_mod_cast toDouble_natCast 1

theorem toDouble_mem (h : 0 ≤ x ∧ x ≤ n) : 0 ≤ toDouble x ∧ toDouble x ≤ n :=
  ⟨by exact_mod_cast @le_toDouble x 0 (by exact_mod_cast h.1), toDouble_le h.2⟩

end VibemeetBackend
