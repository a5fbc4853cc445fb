import Mathlib.Tactic

/-!
# Documents found by a key

An update of the documents of one key value, in a collection kept as a list, and what a later lookup
by the key finds.
-/

namespace VibemeetBackend.Mongo

variable {D K : Type} [DecidableEq K] {key : D → K} {f : D → D}

theorem find?_update (hf : ∀ d, key (f d) = key d) (k k' : K) (docs : List D) :
    (docs.map fun d => if key d = k then f d else d).find? (fun d => key d == k') =
      if k = k' then (docs.find? fun d => key d == k').map f
      else docs.find? fun d => key d == k' := by
  have hcomp : (fun d => key d == k') ∘ (fun d => if key d = k then f d else d) =
      fun d => key d == k' := by
    funext d
    show (key (if key d = k then f d else d) == k') = (key d == k')
    split
    · rw [hf]
    · rfl
  rw [List.find?_map, hcomp]
  cases hd : docs.find? fun d => key d == k' with
  | none => rw [Option.map_none, Option.map_none, ite_self]
  | some d =>
    have hkey := List.find?_some hd
    have hkey : key d = k' := beq_iff_eq.1 hkey
    show some (if key d = k then f d else d) = if k = k' then some (f d) else some d
    by_cases h : k = k'
    · rw [if_pos h, if_pos (hkey.trans h.symm)]
    · rw [if_neg h, if_neg fun h' => h (h'.symm.trans hkey)]

end VibemeetBackend.Mongo
