import Mathlib.Data.List.Basic
import Mathlib.Order.Basic
import Mathlib.Tactic

/-!
# Following a paged listing to its end

A server answers a request `r : ρ` with a page `p : π`, and `next p` is the request
for the page after it, if the server says that there is one.  `follow` asks for pages
until none is announced.  The fuel bounds the number of requests: a listing that ends
is one for which some fuel is enough, and the pages then do not depend on it.
-/

namespace VibemeetBackend.Paging

variable {ρ π α : Type}

/-- The pages from the request `r` on; `none` when `fuel` requests are not enough. -/
def follow (serve : ρ → π) (next : π → Option ρ) : ℕ → ρ → Option (List π)
  | 0, _ => none
  | fuel + 1, r =>
    match next (serve r) with
    | none => some [serve r]
    | some r' => (follow serve next fuel r').map (serve r :: ·)

/-- From `r` the listing ends, after these pages. -/
def Listed (serve : ρ → π) (next : π → Option ρ) (r : ρ) (pages : List π) : Prop :=
  ∃ fuel, follow serve next fuel r = some pages

section Follow

variable {serve : ρ → π} {next : π → Option ρ}

variable {pages : List π} {r : ρ}

theorem follow_mono {fuel : ℕ} (h : follow serve next fuel r = some pages) {fuel' : ℕ}
    (hle : fuel ≤ fuel') : follow serve next fuel' r = some pages := by
  induction fuel generalizing r pages fuel' with
  | zero => cases h
  | succ fuel ih =>
    obtain ⟨n, rfl⟩ : ∃ n, fuel' = n + 1 := ⟨fuel' - 1, by omega⟩
    rw [follow] at h ⊢
    cases hn : next (serve r) with
    | none =>
      rw [hn] at h
      exact h
    | some r' =>
      rw [hn] at h
      obtain ⟨rest, hrest, rfl⟩ := Option.map_eq_some_iff.1 h
      show (follow serve next n r').map (serve r :: ·) = _
      rw [ih hrest (by omega)]
      rfl

theorem Listed.unique {pages' : List π} (h : Listed serve next r pages)
    (h' : Listed serve next r pages') : pages = pages' := by
  obtain ⟨n, hn⟩ := h
  obtain ⟨m, hm⟩ := h'
  have hn' := follow_mono hn (le_max_left n m)
  have hm' := follow_mono hm (le_max_right n m)
  exact Option.mem_unique hn' hm'

theorem listed_last (h : next (serve r) = none) : Listed serve next r [serve r] :=
  ⟨1, by simp [follow, h]⟩

theorem listed_more {r' : ρ} (h : next (serve r) = some r') (hrest : Listed serve next r' pages) :
    Listed serve next r (serve r :: pages) := by
  obtain ⟨fuel, hfuel⟩ := hrest
  exact ⟨fuel + 1, by simp [follow, h, hfuel]⟩

theorem Listed.map {π' : Type} {serve' : ρ → π'} {next' : π' → Option ρ} {g : π → π'}
    (hserve : ∀ r, serve' r = g (serve r)) (hnext : ∀ p, next' (g p) = next p)
    (h : Listed serve next r pages) : Listed serve' next' r (pages.map g) := by
  obtain ⟨fuel, h⟩ := h
  induction fuel generalizing r pages with
  | zero => cases h
  | succ fuel ih =>
    rw [follow] at h
    cases hn : next (serve r) with
    | none =>
      rw [hn] at h
      cases h
      rw [List.map_singleton, ← hserve]
      exact listed_last (by rw [hserve, hnext, hn])
    | some r' =>
      rw [hn] at h
      obtain ⟨rest, hrest, rfl⟩ := Option.map_eq_some_iff.1 h
      rw [List.map_cons, ← hserve]
      exact listed_more (by rw [hserve, hnext, hn]) (ih hrest)

end Follow

/-! ### Pages at an offset -/

section Offset

variable (serve : ℕ → π) (next : π → Option ℕ) (items : π → List α) {rows : List α} {limit : ℕ}

theorem offset_listed (hlimit : 0 < limit) {start : ℕ}
    (hitems : ∀ o, start ≤ o → items (serve o) = (rows.drop o).take limit)
    (hnext : ∀ o, start ≤ o →
      next (serve o) = if limit < (rows.drop o).length then some (o + limit) else none)
    {o : ℕ} (ho : start ≤ o) :
    ∃ pages, Listed serve next o pages ∧ pages.flatMap items = rows.drop o := by
  induction hk : rows.length - o using Nat.strong_induction_on generalizing o with
  | _ k ih =>
    by_cases hmore : limit < (rows.drop o).length
    · have hlen : limit < rows.length - o := by simpa using hmore
      obtain ⟨pages, hpages, hflat⟩ :=
        ih (rows.length - (o + limit)) (by omega) (o := o + limit) (by omega) rfl
      refine ⟨serve o :: pages, listed_more ?_ hpages, ?_⟩
      · rw [hnext o ho, if_pos hmore]
      simp_all
    · refine ⟨[serve o], listed_last ?_, ?_⟩
      · rw [hnext o ho, if_neg hmore]
      · rw [List.flatMap_cons, List.flatMap_nil, List.append_nil, hitems o ho]
        exact List.take_of_length_le (by omega)

end Offset

end VibemeetBackend.Paging
