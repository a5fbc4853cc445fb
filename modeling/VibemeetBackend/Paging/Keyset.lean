import Mathlib.Data.List.Sort
import VibemeetBackend.Paging.Follow

/-!
# Pages cut below a key

Rows are listed by a key, the largest first.  A page shows the first `limit` rows, and
when more follow, the page after it is cut from the rows whose key is *below* that of
the last row shown.  Rows with that same key are then on neither page.
-/

namespace VibemeetBackend.Paging

variable {α κ ρ π : Type} [LinearOrder κ] (key : α → κ)

/-- The largest key first; rows with one key in any order. -/
def Descending (rows : List α) : Prop := rows.Pairwise fun a b => key b ≤ key a

/-- The rows that a cursor at `k` leaves. -/
def below (k : κ) (rows : List α) : List α := rows.filter fun a => decide (key a < k)

/-- The key that the page after this one is cut below. -/
def cursorOf (limit : ℕ) (rows : List α) : Option κ :=
  if limit < rows.length then (rows.take limit).getLast?.map key else none

/-- The largest key first, and rows with one key in the order that they come in. -/
def sortDown (rows : List α) : List α := rows.insertionSort fun a b => key b ≤ key a

variable {key}

variable {rows : List α}

theorem Descending.belowKey (h : Descending key rows) (k : κ) : Descending key (below key k rows) :=
  h.filter _

theorem Descending.drop (h : Descending key rows) (n : ℕ) : Descending key (rows.drop n) :=
  h.sublist (List.drop_sublist n rows)

variable {a : α}

/-! ### Sorting -/

section Sorting

variable (key)

theorem sortDown_perm (rows : List α) : (sortDown key rows).Perm rows :=
  List.perm_insertionSort _ rows

theorem mem_sortDown : a ∈ sortDown key rows ↔ a ∈ rows :=
  (sortDown_perm key rows).mem_iff

theorem sortDown_descending (rows : List α) : Descending key (sortDown key rows) := by
  have : Std.Total fun a b : α => key b ≤ key a := ⟨fun a b => le_total (key b) (key a)⟩
  have : IsTrans α fun a b => key b ≤ key a := ⟨fun a b c hab hbc => hbc.trans hab⟩
  exact List.pairwise_insertionSort _ rows

theorem filter_orderedInsert (p : α → Bool) (a : α) (h : Descending key rows) :
    (rows.orderedInsert (fun a b => key b ≤ key a) a).filter p =
      if p a then (rows.filter p).orderedInsert (fun a b => key b ≤ key a) a
      else rows.filter p := by
  induction rows with
  | nil => cases hp : p a <;> simp [hp]
  | cons b rows ih =>
    obtain ⟨hb, hrows⟩ := List.pairwise_cons.1 h
    rw [List.orderedInsert_cons]
    by_cases hle : key b ≤ key a
    · rw [if_pos hle]
      cases hp : p a with
      | false => simp [hp]
      | true =>
        rw [List.filter_cons_of_pos hp, if_pos rfl]
        -- everything that is left comes after the inserted row
        cases hrest : (b :: rows).filter p with
        | nil => rfl
        | cons c rest =>
          have hc : c ∈ b :: rows := (List.mem_filter.1 (hrest ▸ List.mem_cons_self)).1
          have hca : key c ≤ key a := by
            rcases List.mem_cons.1 hc with rfl | hc
            · exact hle
            · exact (hb c hc).trans hle
          rw [List.orderedInsert_cons, if_pos hca]
    · rw [if_neg hle]
      cases hpb : p b with
      | false =>
        rw [List.filter_cons_of_neg (by simp [hpb]), List.filter_cons_of_neg (by simp [hpb])]
        exact ih hrows
      | true =>
        rw [List.filter_cons_of_pos hpb, List.filter_cons_of_pos hpb, ih hrows]
        cases hp : p a <;> simp_all

theorem filter_sortDown (p : α → Bool) (rows : List α) :
    (sortDown key rows).filter p = sortDown key (rows.filter p) := by
  induction rows with
  | nil => rfl
  | cons a rows ih =>
    have h := filter_orderedInsert key p a (sortDown_descending key rows)
    rw [ih] at h
    show ((sortDown key rows).orderedInsert (fun a b => key b ≤ key a) a).filter p = _
    rw [h]
    cases hp : p a with
    | false => rw [List.filter_cons_of_neg (by simp [hp])]; rfl
    | true => rw [List.filter_cons_of_pos hp]; rfl

end Sorting

theorem below_below {k k' : κ} (h : k' ≤ k) (rows : List α) :
    below key k' (below key k rows) = below key k' rows := by
  rw [below, below, List.filter_filter]
  apply List.filter_congr
  intro a _
  by_cases hk : key a < k'
  · simp [hk, hk.trans_le h]
  · simp [hk]

theorem below_of_forall {k : κ} (h : ∀ a ∈ rows, key a < k) : below key k rows = rows :=
  List.filter_eq_self.2 fun a ha => decide_eq_true (h a ha)

theorem below_eq_nil {k : κ} (h : ∀ a ∈ rows, k ≤ key a) : below key k rows = [] :=
  List.filter_eq_nil_iff.2 fun a ha => by simp [h a ha]

omit [LinearOrder κ] in
theorem cursorOf_eq_none {limit : ℕ} (h : rows.length ≤ limit) : cursorOf key limit rows = none :=
  if_neg (by omega)

variable (key) in
omit [LinearOrder κ] in
theorem cursorOf_eq_some {limit : ℕ} (hlimit : 0 < limit) (h : limit < rows.length) :
    ∃ a, rows[limit - 1]? = some a ∧
      (rows.take limit).getLast? = some a ∧ cursorOf key limit rows = some (key a) := by
  obtain ⟨a, ha⟩ : ∃ a, rows[limit - 1]? = some a :=
    ⟨rows[limit - 1], List.getElem?_eq_getElem (by omega)⟩
  have hlast : (rows.take limit).getLast? = some a := by
    rw [List.getLast?_take, if_neg (by omega), ha]
    rfl
  exact ⟨a, ha, hlast, by rw [cursorOf, if_pos h, hlast]; rfl⟩

theorem below_last {limit : ℕ} (hlimit : 0 < limit) (h : Descending key rows)
    (ha : rows[limit - 1]? = some a) :
    below key (key a) rows = below key (key a) (rows.drop limit) := by
  conv_lhs => rw [← List.take_append_drop limit rows, below, List.filter_append]
  have hnil : below key (key a) (rows.take limit) = [] := by
    apply below_eq_nil
    intro b hb
    obtain ⟨i, hi, rfl⟩ := List.mem_iff_getElem.1 hb
    obtain ⟨hlt, rfl⟩ := List.getElem?_eq_some_iff.1 ha
    rw [List.length_take] at hi
    rw [List.getElem_take]
    rcases Nat.lt_or_ge i (limit - 1) with hlast | hlast
    · exact List.pairwise_iff_getElem.1 h i (limit - 1) (by omega) hlt hlast
    · have : i = limit - 1 := by omega
      subst this
      exact le_rfl
  rw [show (rows.take limit).filter (fun b => decide (key b < key a)) = [] from hnil]
  rfl

theorem below_length_lt {limit : ℕ} (hlimit : 0 < limit) (h : Descending key rows)
    (ha : rows[limit - 1]? = some a) : (below key (key a) rows).length < rows.length := by
  obtain ⟨hlt, -⟩ := List.getElem?_eq_some_iff.1 ha
  rw [below_last hlimit h ha]
  have : (below key (key a) (rows.drop limit)).length ≤ (rows.drop limit).length :=
    List.length_filter_le _ _
  rw [List.length_drop] at this
  omega

theorem countP_above_lt {limit : ℕ} (hlimit : 0 < limit) (h : Descending key rows)
    (ha : rows[limit - 1]? = some a) (k : κ) :
    rows.countP (fun b => decide (k < key b)) < limit ↔ key a ≤ k := by
  obtain ⟨hlt, rfl⟩ := List.getElem?_eq_some_iff.1 ha
  have hsorted := List.pairwise_iff_getElem.1 h
  constructor
  · intro hcount
    by_contra hk
    have hall : (rows.take limit).countP (fun b => decide (k < key b)) =
        (rows.take limit).length := by
      apply List.countP_eq_length.2
      intro b hb
      obtain ⟨i, hi, rfl⟩ := List.mem_iff_getElem.1 hb
      rw [List.length_take] at hi
      rw [List.getElem_take, decide_eq_true_eq]
      apply (not_le.1 hk).trans_le
      rcases Nat.lt_or_ge i (limit - 1) with hi' | hi'
      · exact hsorted i (limit - 1) (by omega) hlt hi'
      · exact le_of_eq (congrArg key (by congr 1; omega))
    have hle := (List.take_sublist limit rows).countP_le (p := fun b => decide (k < key b))
    rw [hall, List.length_take] at hle
    omega
  · intro hk
    have hnone : (rows.drop (limit - 1)).countP (fun b => decide (k < key b)) = 0 := by
      apply List.countP_eq_zero.2
      intro b hb
      obtain ⟨i, hi, rfl⟩ := List.mem_iff_getElem.1 hb
      rw [List.length_drop] at hi
      rw [List.getElem_drop, decide_eq_true_eq, not_lt]
      apply le_trans _ hk
      rcases Nat.eq_zero_or_pos i with rfl | hi'
      · rfl
      · exact hsorted (limit - 1) (limit - 1 + i) hlt (by omega) (by omega)
    rw [← List.take_append_drop (limit - 1) rows, List.countP_append, hnone]
    have hle : (rows.take (limit - 1)).countP (fun b => decide (k < key b)) ≤
        (rows.take (limit - 1)).length := List.countP_le_length
    rw [List.length_take] at hle
    omega

/-! ### The pages of a list of rows -/

/-- `limit` rows and then the pages below the last of them, for `fuel` pages. -/
def chunksFrom (key : α → κ) (limit : ℕ) : ℕ → List α → List (List α)
  | 0, _ => []
  | fuel + 1, rows =>
    match cursorOf key limit rows with
    | none => [rows.take limit]
    | some k => rows.take limit :: chunksFrom key limit fuel (below key k rows)

/-- All the pages: each of them shows a row that no later one has. -/
def chunks (key : α → κ) (limit : ℕ) (rows : List α) : List (List α) :=
  chunksFrom key limit (rows.length + 1) rows

theorem chunksFrom_enough {limit : ℕ} (hlimit : 0 < limit) {fuel : ℕ} (h : Descending key rows)
    (hfuel : rows.length < fuel) : chunksFrom key limit fuel rows = chunks key limit rows := by
  induction fuel using Nat.strong_induction_on generalizing rows with
  | _ fuel ih =>
    obtain ⟨n, rfl⟩ : ∃ n, fuel = n + 1 := ⟨fuel - 1, by omega⟩
    rw [chunks, chunksFrom, chunksFrom]
    by_cases hmore : limit < rows.length
    · obtain ⟨a, ha, -, hcursor⟩ := cursorOf_eq_some key hlimit hmore
      have hlt := below_length_lt hlimit h ha
      have hrows : rows.length ≤ n := by omega
      show _ = (match cursorOf key limit rows with
        | none => [rows.take limit]
        | some k => rows.take limit :: chunksFrom key limit rows.length (below key k rows))
      rw [hcursor]
      show rows.take limit :: chunksFrom key limit n (below key (key a) rows) = _
      rw [ih n (by omega) (h.belowKey (key a)) (by omega)]
      show _ = rows.take limit :: chunksFrom key limit rows.length (below key (key a) rows)
      rcases hrows.lt_or_eq with hn | hn
      · rw [ih rows.length (by omega) (h.belowKey (key a)) hlt]
      · rw [hn, ih n (by omega) (h.belowKey (key a)) (by omega)]
    · rw [cursorOf_eq_none (by omega)]

theorem chunks_last {limit : ℕ} (h : rows.length ≤ limit) : chunks key limit rows = [rows] := by
  rw [chunks, chunksFrom, cursorOf_eq_none h, List.take_of_length_le h]

theorem chunks_more {limit : ℕ} (hlimit : 0 < limit) (h : Descending key rows)
    (hmore : limit < rows.length) (ha : rows[limit - 1]? = some a) :
    chunks key limit rows =
      rows.take limit :: chunks key limit (below key (key a) (rows.drop limit)) := by
  obtain ⟨b, hb, -, hcursor⟩ := cursorOf_eq_some key hlimit hmore
  obtain rfl : b = a := Option.mem_unique hb ha
  rw [chunks, chunksFrom, hcursor, ← below_last hlimit h ha]
  show rows.take limit :: chunksFrom key limit rows.length (below key (key b) rows) = _
  rw [chunksFrom_enough hlimit (h.belowKey _) (below_length_lt hlimit h ha)]

theorem chunks_induction {limit : ℕ} (hlimit : 0 < limit)
    {motive : (rows : List α) → Descending key rows → Prop}
    (last : ∀ rows h, rows.length ≤ limit → motive rows h)
    (more : ∀ rows h a, limit < rows.length → rows[limit - 1]? = some a →
      motive (below key (key a) (rows.drop limit)) ((h.drop limit).belowKey _) → motive rows h)
    (rows : List α) (h : Descending key rows) : motive rows h := by
  induction hn : rows.length using Nat.strong_induction_on generalizing rows with
  | _ n ih =>
    rcases Nat.lt_or_ge limit rows.length with hmore | hlast
    · obtain ⟨a, ha, -, -⟩ := cursorOf_eq_some key hlimit hmore
      apply more rows h a hmore ha
      have hlt := below_length_lt hlimit h ha
      rw [below_last hlimit h ha] at hlt
      exact ih _ (by omega) _ _ rfl
    · exact last rows h hlast

theorem chunks_sublist {limit : ℕ} (hlimit : 0 < limit) (h : Descending key rows) :
    List.Sublist (chunks key limit rows).flatten rows := by
  induction rows, h using chunks_induction hlimit with
  | last rows h hlast => simp [chunks_last hlast]
  | more rows h a hmore ha ih =>
    rw [chunks_more hlimit h hmore ha, List.flatten_cons]
    have hrest : List.Sublist (chunks key limit (below key (key a) (rows.drop limit))).flatten
        (rows.drop limit) := ih.trans List.filter_sublist
    simpa using (List.Sublist.refl (rows.take limit)).append hrest

/-- The row after each page has a smaller key than the last row of the page. -/
def Apart (key : α → κ) (limit : ℕ) (rows : List α) : Prop :=
  ∀ n a b, rows[n * limit + (limit - 1)]? = some a → rows[(n + 1) * limit]? = some b →
    key b < key a

theorem apart_drop {limit : ℕ} (ha : rows[limit - 1]? = some a) : Apart key limit rows ↔
      (∀ b, rows[limit]? = some b → key b < key a) ∧ Apart key limit (rows.drop limit) := by
  constructor
  · intro h
    refine ⟨fun b hb => h 0 a b (by simpa using ha) (by simpa using hb), ?_⟩
    intro n b c hb hc
    rw [List.getElem?_drop] at hb hc
    apply h (n + 1) b c
    · rw [← hb]
      congr 1
      rw [Nat.succ_mul]
      omega
    · rw [← hc]
      congr 1
      rw [Nat.succ_mul (n + 1)]
      omega
  · rintro ⟨hfirst, hrest⟩ n b c hb hc
    cases n with
    | zero =>
      obtain rfl : b = a := by simpa [ha] using hb.symm
      exact hfirst c (by simpa using hc)
    | succ n =>
      apply hrest n b c
      · rw [List.getElem?_drop, ← hb]
        congr 1
        rw [Nat.succ_mul n]
        omega
      · rw [List.getElem?_drop, ← hc]
        congr 1
        rw [Nat.succ_mul (n + 1)]
        omega

theorem Descending.below_eq_self (h : Descending key rows) {k : κ} :
    below key k rows = rows ↔ ∀ b, rows.head? = some b → key b < k := by
  cases rows with
  | nil => simp [below]
  | cons b rest =>
    have hle := (List.pairwise_cons.1 h).1
    constructor
    · intro heq c hc
      obtain rfl : b = c := Option.some.inj hc
      exact of_decide_eq_true (List.filter_eq_self.1 heq b List.mem_cons_self)
    · intro hb
      apply below_of_forall
      intro a ha
      rcases List.mem_cons.1 ha with rfl | ha
      · exact hb _ rfl
      · exact (hle a ha).trans_lt (hb b rfl)

/-- Every row is listed exactly when no key stands on both sides of a page's end. -/
theorem chunks_complete_iff {limit : ℕ} (hlimit : 0 < limit) (h : Descending key rows) :
    (chunks key limit rows).flatten = rows ↔ Apart key limit rows := by
  induction rows, h using chunks_induction hlimit with
  | last rows h hlast =>
    refine iff_of_true (by simp [chunks_last hlast]) ?_
    intro n a b _ hb
    have := (List.getElem?_eq_some_iff.1 hb).1
    have : limit ≤ (n + 1) * limit := Nat.le_mul_of_pos_left _ (by omega)
    omega
  | more rows h a hmore ha ih =>
    rw [chunks_more hlimit h hmore ha, List.flatten_cons, apart_drop ha]
    have hdrop := (h.drop limit).below_eq_self (k := key a)
    rw [List.head?_drop] at hdrop
    have hsub := chunks_sublist hlimit ((h.drop limit).belowKey (key a))
    have hsub' : List.Sublist (below key (key a) (rows.drop limit)) (rows.drop limit) :=
      List.filter_sublist
    constructor
    · intro heq
      have hrest : (chunks key limit (below key (key a) (rows.drop limit))).flatten =
          rows.drop limit := by
        apply (List.append_cancel_left_eq (rows.take limit) _ _).mp
        rw [heq, List.take_append_drop]
      have hbelow : below key (key a) (rows.drop limit) = rows.drop limit := by
        apply hsub'.eq_of_length_le
        have := hsub.length_le
        rwa [hrest] at this
      rw [hbelow] at ih hrest
      exact ⟨hdrop.1 hbelow, ih.1 hrest⟩
    · rintro ⟨hfirst, hrest⟩
      rw [hdrop.2 hfirst] at ih ⊢
      rw [ih.2 hrest, List.take_append_drop]

/-- Keys that are all different never stand on both sides. -/
theorem apart_of_strict {limit : ℕ} (hlimit : 0 < limit)
    (h : rows.Pairwise fun a b => key b < key a) : Apart key limit rows := by
  intro n a b ha hb
  obtain ⟨hi, rfl⟩ := List.getElem?_eq_some_iff.1 ha
  obtain ⟨hj, rfl⟩ := List.getElem?_eq_some_iff.1 hb
  apply List.pairwise_iff_getElem.1 h
  have hlast : limit - 1 < limit := Nat.sub_lt hlimit one_pos
  rw [Nat.succ_mul]
  omega

/-! ### A server that cuts its pages so -/

theorem keyset_listed {β : Type} (serve : ρ → π) (next : π → Option ρ) (view : π → β)
    (shown : List α → β) (request : κ → ρ) {limit : ℕ} (hlimit : 0 < limit)
    (hrows : Descending key rows)
    (hview : ∀ k, view (serve (request k)) = shown ((below key k rows).take limit))
    (hnext : ∀ k, next (serve (request k)) = (cursorOf key limit (below key k rows)).map request)
    (k : κ) :
    ∃ pages, Listed serve next (request k) pages ∧
      pages.map view = (chunks key limit (below key k rows)).map shown := by
  induction hn : (below key k rows).length using Nat.strong_induction_on generalizing k with
  | _ n ih =>
    have h := hrows.belowKey k
    rcases Nat.lt_or_ge limit (below key k rows).length with hmore | hlast
    · obtain ⟨a, ha, -, hcursor⟩ := cursorOf_eq_some key hlimit hmore
      have hk : key a < k := by
        have := List.mem_of_getElem? ha
        exact of_decide_eq_true (List.mem_filter.1 this).2
      have hlt := below_length_lt hlimit h ha
      have hnested : below key (key a) (below key k rows) = below key (key a) rows :=
        below_below hk.le rows
      rw [hnested] at hlt
      obtain ⟨pages, hpages, hmap⟩ := ih _ (by omega) (key a) rfl
      refine ⟨serve (request k) :: pages, listed_more ?_ hpages, ?_⟩
      · rw [hnext, hcursor]
        rfl
      · simp [hview, hmap, chunks_more hlimit h hmore ha, ← below_last hlimit h ha, hnested]
    · refine ⟨[serve (request k)], listed_last ?_, ?_⟩
      · rw [hnext, cursorOf_eq_none hlast]
        rfl
      · rw [List.map_cons, hview, chunks_last hlast, List.take_of_length_le hlast]
        rfl

theorem forall_chunks_iff {P : List α → Prop} (hnil : P []) {limit : ℕ} (hlimit : 0 < limit)
    (h : Descending key rows) (hapart : Apart key limit rows) :
    (∀ chunk ∈ chunks key limit rows, P chunk) ↔
      ∀ n, P ((rows.drop (n * limit)).take limit) := by
  induction rows, h using chunks_induction hlimit with
  | last rows h hlast =>
    rw [chunks_last hlast, List.forall_mem_singleton]
    constructor
    · intro hP n
      cases n with
      | zero => rwa [Nat.zero_mul, List.drop_zero, List.take_of_length_le hlast]
      | succ n =>
        have hle : rows.length ≤ (n + 1) * limit :=
          hlast.trans (Nat.le_mul_of_pos_left _ (Nat.succ_pos n))
        rwa [List.drop_eq_nil_of_le hle, List.take_nil]
    · intro hP
      have hfirst := hP 0
      rwa [Nat.zero_mul, List.drop_zero, List.take_of_length_le hlast] at hfirst
  | more rows h a hmore ha ih =>
    obtain ⟨hfirst, hrest⟩ := (apart_drop ha).1 hapart
    have hdrop : below key (key a) (rows.drop limit) = rows.drop limit := by
      rw [(h.drop limit).below_eq_self, List.head?_drop]
      exact hfirst
    rw [hdrop] at ih
    rw [chunks_more hlimit h hmore ha, hdrop, List.forall_mem_cons, ih hrest]
    constructor
    · rintro ⟨hP, hrest'⟩ n
      cases n with
      | zero => rwa [Nat.zero_mul, List.drop_zero]
      | succ n =>
        have hn := hrest' n
        rwa [List.drop_drop, show limit + n * limit = (n + 1) * limit by ring] at hn
    · intro hP
      refine ⟨by simpa using hP 0, fun n => ?_⟩
      rw [List.drop_drop, show limit + n * limit = (n + 1) * limit by ring]
      exact hP (n + 1)

end VibemeetBackend.Paging
