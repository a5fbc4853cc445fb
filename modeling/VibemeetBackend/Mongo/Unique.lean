import Mathlib.Tactic

/-!
# Collections with a unique index

The documents of a collection, kept with the proof that no two of them have the same key.
-/

namespace VibemeetBackend.Mongo

structure Unique {D K : Type} (key : D → K) where
  rows : List D
  nodup : (rows.map key).Nodup

namespace Unique

variable {D K : Type} [DecidableEq K] {key : D → K}

def empty : Unique key := ⟨[], List.nodup_nil⟩

def get (c : Unique key) (k : K) : Option D := c.rows.find? fun d => key d == k

variable {c : Unique key}

theorem get_eq_none {k : K} : c.get k = none ↔ k ∉ c.rows.map key := by
  simp_all [get]

variable {d : D}

theorem mem_of_get {k : K} (h : c.get k = some d) : d ∈ c.rows ∧ key d = k := by
  have hk := List.find?_some h
  exact ⟨List.mem_of_find?_eq_some h, beq_iff_eq.1 hk⟩

theorem get_of_mem (h : d ∈ c.rows) : c.get (key d) = some d := by
  cases hd : c.get (key d) with
  | none => exact absurd (List.mem_map_of_mem h) (get_eq_none.1 hd)
  | some d' =>
    obtain ⟨hmem, hkey⟩ := mem_of_get hd
    rw [List.inj_on_of_nodup_map c.nodup hmem h hkey]

theorem countP_le_one (c : Unique key) (k : K) : c.rows.countP (fun d => key d == k) ≤ 1 := by
  have h := List.nodup_iff_count_le_one.1 c.nodup k
  rw [List.count, List.countP_map] at h
  exact h

def insert (c : Unique key) (d : D) : Unique key :=
  if h : key d ∈ c.rows.map key then c
  else
    { rows := c.rows ++ [d]
      nodup := by
        rw [List.map_append, List.map_singleton, List.nodup_append]
        refine ⟨c.nodup, List.nodup_singleton _, ?_⟩
        intro k hk k' hk'
        rw [List.mem_singleton] at hk'
        rintro rfl
        rw [hk'] at hk
        exact h hk }

theorem insert_rows (h : c.get (key d) = none) : (c.insert d).rows = c.rows ++ [d] := by
  rw [insert, dif_neg (get_eq_none.1 h)]

theorem insert_of_get {d' : D} (h : c.get (key d) = some d') : c.insert d = c := by
  obtain ⟨hmem, hkey⟩ := mem_of_get h
  rw [insert, dif_pos]
  rw [← hkey]
  exact List.mem_map_of_mem hmem

theorem get_insert (h : c.get (key d) = none) (k : K) :
    (c.insert d).get k = if key d = k then some d else c.get k := by
  rw [get, insert_rows h, List.find?_append, List.find?_singleton]
  by_cases hk : key d = k
  · subst hk
    have hnone : c.rows.find? (fun d' => key d' == key d) = none := h
    simp [hnone]
  · rw [if_neg hk, if_neg (mt beq_iff_eq.1 hk), Option.or_none]
    rfl

theorem mem_insert {d' : D} (h : d' ∈ (c.insert d).rows) : d' ∈ c.rows ∨ d' = d := by
  grind [insert]

theorem mem_insert_of_mem (d : D) {d' : D} (h : d' ∈ c.rows) : d' ∈ (c.insert d).rows := by
  unfold insert
  split
  · exact h
  · exact List.mem_append_left _ h

theorem exists_mem_insert (c : Unique key) (d : D) : ∃ d' ∈ (c.insert d).rows, key d' = key d := by
  grind [insert]

theorem countP_eq_one {p : D → Bool} (hd : d ∈ c.rows) (hp : p d = true)
    (h : ∀ d' ∈ c.rows, p d' = true → key d' = key d) : c.rows.countP p = 1 := by
  have hle := c.countP_le_one (key d)
  have hmono : c.rows.countP p ≤ c.rows.countP fun d' => key d' == key d :=
    List.countP_mono_left fun d' hd' hp' => beq_iff_eq.2 (h d' hd' hp')
  have hpos : 0 < c.rows.countP p := List.countP_pos_iff.2 ⟨d, hd, hp⟩
  omega

def put (c : Unique key) (d : D) : Unique key :=
  if c.get (key d) = none then c.insert d
  else
    { rows := c.rows.map fun d' => if key d' = key d then d else d'
      nodup := by
        have hkeys : (c.rows.map fun d' => if key d' = key d then d else d').map key =
            c.rows.map key := by
          rw [List.map_map]
          apply List.map_congr_left
          intro d' _
          show key (if key d' = key d then d else d') = key d'
          split
          · rename_i h
            exact h.symm
          · rfl
        rw [hkeys]
        exact c.nodup }

theorem get_put (c : Unique key) (d : D) (k : K) :
    (c.put d).get k = if key d = k then some d else c.get k := by
  unfold put
  split
  · rename_i h
    exact get_insert h k
  · rename_i h
    obtain ⟨d₀, hd₀⟩ := Option.ne_none_iff_exists'.1 h
    show (c.rows.map fun d' => if key d' = key d then d else d').find? (fun d' => key d' == k) = _
    have hcomp : (fun d' => key d' == k) ∘ (fun d' => if key d' = key d then d else d') =
        fun d' => key d' == k := by
      funext d'
      show (key (if key d' = key d then d else d') == k) = (key d' == k)
      split
      · rename_i h
        rw [h]
      · rfl
    rw [List.find?_map, hcomp]
    by_cases hk : key d = k
    · subst hk
      have hfind : c.rows.find? (fun d' => key d' == key d) = some d₀ := hd₀
      simp [hfind, (mem_of_get hd₀).2]
    · rw [if_neg hk]
      cases hd : c.get k with
      | none =>
        have hfind : c.rows.find? (fun d' => key d' == k) = none := hd
        rw [hfind]
        rfl
      | some d₁ =>
        have hfind : c.rows.find? (fun d' => key d' == k) = some d₁ := hd
        rw [hfind, Option.map_some, if_neg]
        intro heq
        exact hk (heq.symm.trans (mem_of_get hd).2)

def update (c : Unique key) (k : K) (f : D → D) : Unique key :=
  match c.get k with
  | none => c
  | some d => c.put (f d)

variable {f : D → D}

theorem get_update (hf : ∀ d, key (f d) = key d) (k k' : K) :
    (c.update k f).get k' = if k = k' then (c.get k').map f else c.get k' := by
  unfold update
  split
  · rename_i hk
    split
    · rename_i h
      subst h
      rw [hk]
      rfl
    · rfl
  · rename_i d hd
    rw [get_put, hf, (mem_of_get hd).2]
    split
    · rename_i h
      subst h
      rw [hd]
      rfl
    · rfl

def erase (c : Unique key) (k : K) : Unique key where
  rows := c.rows.filter fun d => key d ≠ k
  nodup := c.nodup.sublist (List.filter_sublist.map key)

theorem get_erase (c : Unique key) (k k' : K) :
    (c.erase k).get k' = if k = k' then none else c.get k' := by
  show (c.rows.filter fun d => decide (key d ≠ k)).find? (fun d => key d == k') = _
  rw [List.find?_filter]
  by_cases hk : k = k'
  · simp_all
  · rw [if_neg hk]
    apply congrArg (List.find? · c.rows)
    funext d
    rw [Bool.eq_iff_iff, decide_eq_true_eq, decide_eq_true_eq, beq_iff_eq]
    constructor
    · exact And.right
    · rintro rfl
      exact ⟨Ne.symm hk, rfl⟩

theorem map_get_update {α : Type} (hf : ∀ d, key (f d) = key d) {g : D → α}
    (hg : ∀ d, g (f d) = g d) (c : Unique key) (k k' : K) :
    ((c.update k f).get k').map g = (c.get k').map g := by
  rw [get_update hf]
  split
  · rw [Option.map_map]
    congr 1
    funext d
    exact hg d
  · rfl

theorem update_rows {k : K} (hf : ∀ d, key (f d) = key d) (hd : c.get k = some d) :
    (c.update k f).rows = c.rows.map fun d' => if key d' = key (f d) then f d else d' := by
  have hkey : c.get (key (f d)) = some d := by
    rw [hf, (mem_of_get hd).2]
    exact hd
  rw [update, hd]
  show (c.put (f d)).rows = _
  simp [put, hkey]

/-! ### Sums over the documents -/

theorem sum_replace {rows : List D} (hnodup : (rows.map key).Nodup) {d₀ : D} (hd₀ : d₀ ∈ rows)
    (hkey : key d₀ = key d) (g : D → ℕ) :
    ((rows.map fun d' => if key d' = key d then d else d').map g).sum + g d₀ =
      (rows.map g).sum + g d := by
  induction rows with
  | nil => cases hd₀
  | cons a rows ih =>
    have hall := hnodup
    rw [List.map_cons, List.nodup_cons] at hnodup
    simp only [List.map_cons, List.sum_cons]
    by_cases ha : key a = key d
    · -- the row itself: no other one has its key
      have hsame : d₀ = a :=
        List.inj_on_of_nodup_map hall hd₀ List.mem_cons_self (hkey.trans ha.symm)
      have hrest : rows.map (fun d' => if key d' = key d then d else d') = rows := by
        conv_rhs => rw [← List.map_id rows]
        apply List.map_congr_left
        intro b hb
        apply if_neg
        intro hbd
        rw [ha, ← hbd] at hnodup
        exact hnodup.1 (List.mem_map_of_mem hb)
      rw [if_pos ha, hrest, hsame]
      omega
    · have hmem : d₀ ∈ rows := by
        rcases List.mem_cons.1 hd₀ with rfl | h
        · exact absurd hkey ha
        · exact h
      have hsum := ih hnodup.2 hmem
      rw [if_neg ha]
      omega

theorem sum_update {k : K} (hf : ∀ d, key (f d) = key d) (hd : c.get k = some d) (g : D → ℕ) :
    ((c.update k f).rows.map g).sum + g d = (c.rows.map g).sum + g (f d) := by
  rw [update_rows hf hd]
  exact sum_replace c.nodup (mem_of_get hd).1 (hf d).symm g

theorem sum_update_same (hf : ∀ d, key (f d) = key d) {g : D → ℕ} (hg : ∀ d, g (f d) = g d)
    (k : K) : ((c.update k f).rows.map g).sum = (c.rows.map g).sum := by
  cases hd : c.get k with
  | none =>
    have hsame : c.update k f = c := by rw [update, hd]
    rw [hsame]
  | some d =>
    have hsum := sum_update hf hd g
    rw [hg] at hsum
    exact Nat.add_right_cancel hsum

/-! ### How many documents are of one kind -/

theorem countP_insert (h : c.get (key d) = none) (p : D → Bool) :
    (c.insert d).rows.countP p = c.rows.countP p + (p d).toNat := by
  rw [insert_rows h, List.countP_append, List.countP_singleton]
  cases p d <;> rfl

theorem countP_eq_sum (p : D → Bool) (rows : List D) :
    rows.countP p = (rows.map fun d => (p d).toNat).sum := by
  induction rows with
  | nil => rfl
  | cons d rows ih =>
    rw [List.countP_cons, List.map_cons, List.sum_cons, ih]
    cases p d <;> simp [add_comm]

theorem countP_update {k : K} (hf : ∀ d, key (f d) = key d) (hd : c.get k = some d) (p : D → Bool) :
    (c.update k f).rows.countP p + (p d).toNat = c.rows.countP p + (p (f d)).toNat := by
  rw [countP_eq_sum, countP_eq_sum]
  exact sum_update hf hd fun d => (p d).toNat

def insertAll (c : Unique key) (ds : List D) : Unique key := ds.foldl insert c

theorem mem_insertAll {ds : List D} (h : d ∈ (c.insertAll ds).rows) : d ∈ c.rows ∨ d ∈ ds := by
  induction ds generalizing c with
  | nil => exact .inl h
  | cons d₀ ds ih =>
    rcases ih h with h | h
    · rcases mem_insert h with h | rfl
      · exact .inl h
      · exact .inr List.mem_cons_self
    · exact .inr (List.mem_cons_of_mem _ h)

theorem mem_insertAll_of_mem (ds : List D) (h : d ∈ c.rows) : d ∈ (c.insertAll ds).rows := by
  induction ds generalizing c with
  | nil => exact h
  | cons d₀ ds ih => exact ih (mem_insert_of_mem d₀ h)

theorem exists_mem_insertAll (c : Unique key) {ds : List D} (h : d ∈ ds) :
    ∃ d' ∈ (c.insertAll ds).rows, key d' = key d := by
  induction ds generalizing c with
  | nil => cases h
  | cons d₀ ds ih =>
    rcases List.mem_cons.1 h with rfl | h
    · obtain ⟨d', hd', hkey⟩ := exists_mem_insert c d
      exact ⟨d', mem_insertAll_of_mem ds hd', hkey⟩
    · exact ih (c.insert d₀) h

theorem insertAll_rows {ds : List D} (hnew : ∀ d ∈ ds, c.get (key d) = none)
    (hds : (ds.map key).Nodup) : (c.insertAll ds).rows = c.rows ++ ds := by
  induction ds generalizing c with
  | nil =>
    show c.rows = c.rows ++ []
    rw [List.append_nil]
  | cons d ds ih =>
    rw [List.map_cons, List.nodup_cons] at hds
    have hrows := insert_rows (hnew d List.mem_cons_self)
    have hnew' : ∀ d' ∈ ds, (c.insert d).get (key d') = none := by
      intro d' hd'
      have hmem := get_eq_none.1 (hnew d' (List.mem_cons_of_mem _ hd'))
      grind [get_eq_none]
    show ((c.insert d).insertAll ds).rows = _
    rw [ih hnew' hds.2, hrows, List.append_assoc]
    rfl

end Unique

end VibemeetBackend.Mongo
