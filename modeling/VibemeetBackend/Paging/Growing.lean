import Mathlib.Data.List.Basic
import Mathlib.Data.List.Infix
import Mathlib.Data.Nat.Basic

/-!
# Reading a list that grows at its front by offsets

An element of a list that grows at its front moves towards larger offsets.  A reader that has had
every offset below `skip` has therefore had each of the elements it began with, or has it ahead:
`drop_subset_of_suffix` for the growth, `mem_page_or_ahead` for a page, `drop_eq_nil_of_short` for
the last one.
-/

namespace VibemeetBackend.Paging

variable {α : Type} {old new : List α} {skip count : ℕ}

def page (rows : List α) (skip count : ℕ) : List α := (rows.drop skip).take count

theorem page_subset (rows : List α) (skip count : ℕ) : page rows skip count ⊆ rows :=
  List.Subset.trans (List.take_subset count _) (List.drop_subset skip rows)

theorem mem_page_or_ahead {a : α} (h : a ∈ old.drop skip) :
    a ∈ page old skip count ∨ a ∈ old.drop (skip + count) := by
  rw [← List.take_append_drop count (old.drop skip), List.mem_append, List.drop_drop] at h
  exact h

theorem drop_subset_of_suffix (h : old <:+ new) (skip : ℕ) : old.drop skip ⊆ new.drop skip := by
  obtain ⟨front, rfl⟩ := h
  rw [List.drop_append]
  apply List.Subset.trans ?_ (List.subset_append_right _ _)
  have hdrop : old.drop skip =
      (old.drop (skip - front.length)).drop (skip - (skip - front.length)) := by
    rw [List.drop_drop]
    congr 1
    omega
  rw [hdrop]
  exact List.drop_subset _ _

theorem drop_eq_nil_of_short (h : (page old skip count).length < count) :
    old.drop (skip + count) = [] := by
  unfold page at h
  rw [List.length_take] at h
  rw [← List.drop_drop]
  apply List.drop_eq_nil_of_le
  omega

theorem le_length_of_full (h : ¬(page old skip count).length < count) (hcount : 0 < count) :
    skip + count ≤ old.length := by
  unfold page at h
  rw [List.length_take, List.length_drop] at h
  omega

def Grows (listed : ℕ → List α) : Prop := ∀ n, listed n <:+ listed (n + 1)

theorem Grows.filter {listed : ℕ → List α} (h : Grows listed) (keep : α → Bool) :
    Grows fun n => (listed n).filter keep :=
  fun n => (h n).filter keep

end VibemeetBackend.Paging
