import Mathlib.Data.List.AList
import Mathlib.Data.List.MinMax
import Mathlib.Data.List.Sort
import Mathlib.Data.Prod.Lex

/-!
# Sorted sets

A Redis key that holds a sorted set: members with scores, ordered by the score and then by the
member, and the time at which the key runs out.
-/

namespace VibemeetBackend.Redis

variable {α : Type}

structure Key (α : Type) where
  set : AList fun _ : α => ℤ
  expireAt : Option ℤ

namespace Key

def empty : Key α := ⟨∅, none⟩

/-- The key at a time: it is gone when it has run out. -/
def live (k : Key α) (now : ℤ) : Key α :=
  if (k.expireAt.any fun t => decide (t ≤ now)) = true then empty else k

theorem live_with_set (k : Key α) (now : ℤ) (set : AList fun _ : α => ℤ) :
    ({ k.live now with set } : Key α).live now = { k.live now with set } := by
  by_cases h : ((k.live now).expireAt.any fun t => decide (t ≤ now)) = true
  · by_cases hk : (k.expireAt.any fun t => decide (t ≤ now)) = true
    · rw [live, if_pos hk] at h
      cases h
    · have hlive : k.live now = k := if_neg hk
      rw [hlive] at h
      exact absurd h hk
  · exact if_neg h

variable [LinearOrder α]

def score (k : Key α) (now : ℤ) (m : α) : Option ℤ := (k.live now).set.lookup m

def place (score : ℤ) (m : α) : ℤ ×ₗ α := toLex (score, m)

def zadd (k : Key α) (now score : ℤ) (m : α) : Key α :=
  { k.live now with set := (k.live now).set.insert m score }

def zrem (k : Key α) (now : ℤ) (m : α) : Key α :=
  if ((k.live now).set.erase m).entries = [] then empty
  else { k.live now with set := (k.live now).set.erase m }

def expire (k : Key α) (now ttl : ℤ) : Key α :=
  if (k.live now).set.entries = [] then empty else { k.live now with expireAt := some (now + ttl) }

/-- `ZRANGE key 0 0`. -/
def first (k : Key α) (now : ℤ) : Option α :=
  -- the order of the integers is named, so that it is one that computes under any import
  (@List.argmin _ _ (@Prod.Lex.instPreorder ℤ α Int.instLinearOrder.toPreorder _) _
    (fun e : Sigma fun _ : α => ℤ => place e.2 e.1) (k.live now).set.entries).map fun e => e.1

def ranked (k : Key α) (now : ℤ) : List (Sigma fun _ : α => ℤ) :=
  (k.live now).set.entries.insertionSort fun a b => place b.2 b.1 ≤ place a.2 a.1

def ascending (k : Key α) (now : ℤ) : List (Sigma fun _ : α => ℤ) :=
  (k.live now).set.entries.insertionSort fun a b => place a.2 a.1 ≤ place b.2 b.1

/-- `ZRANGE key start stop`: both ends count. -/
def zrange (k : Key α) (now : ℤ) (start stop : ℕ) : List α :=
  (((k.ascending now).map fun e => e.1).drop start).take (stop + 1 - start)

def zcard (k : Key α) (now : ℤ) : ℕ := (k.live now).set.entries.length

/-- `ZREVRANGE key start stop`: both ends count. -/
def zrevrange (k : Key α) (now : ℤ) (start stop : ℕ) : List α :=
  (((k.ranked now).map fun e => e.1).drop start).take (stop + 1 - start)

/-- `ZRANGEBYSCORE key -inf max LIMIT 0 limit`. -/
def rangeByScore (k : Key α) (now max : ℤ) (limit : ℕ) : List α :=
  (((k.ascending now).filter fun e => decide (e.2 ≤ max)).map fun e => e.1).take limit

/-- `ZREMRANGEBYRANK key 0 -(n + 1)`: the `n` highest stay. -/
def keepHighest (k : Key α) (now : ℤ) (n : ℕ) : Key α :=
  (((k.ranked now).drop n).map fun e => e.1).foldl (fun k m => k.zrem now m) (k.live now)

/-- How many members are in front. -/
def zrank (k : Key α) (now : ℤ) (m : α) : Option ℕ :=
  (k.score now m).map fun x =>
    (k.live now).set.entries.countP fun e => decide (place e.2 e.1 < place x m)

variable {k : Key α} {now : ℤ}

theorem score_empty (now : ℤ) (m : α) : (empty : Key α).score now m = none := rfl

theorem score_zadd (k : Key α) (now x : ℤ) (m m' : α) :
    (k.zadd now x m).score now m' = if m' = m then some x else k.score now m' := by
  rw [score, zadd, live_with_set]
  by_cases h : m' = m
  · rw [if_pos h, h]
    exact AList.lookup_insert _
  · rw [if_neg h]
    exact AList.lookup_insert_ne h

theorem score_zrem (k : Key α) (now : ℤ) (m m' : α) :
    (k.zrem now m).score now m' = if m' = m then none else k.score now m' := by
  have herase : ((k.live now).set.erase m).lookup m' = if m' = m then none else k.score now m' := by
    by_cases h : m' = m
    · rw [if_pos h, h]
      exact AList.lookup_erase _ _
    · rw [if_neg h]
      exact AList.lookup_erase_ne h
  unfold zrem
  split
  · rename_i hempty
    rw [← herase, score_empty, AList.ext (t := ∅) hempty]
    rfl
  · rw [score, live_with_set]
    exact herase

variable {m : α} {x : ℤ}

/-- Renewing a key adds nobody. -/
theorem score_of_expire {ttl : ℤ} (h : (k.expire now ttl).score now m = some x) :
    k.score now m = some x := by
  unfold expire at h
  split at h
  · cases h
  · unfold score at h
    rw [live] at h
    split at h
    · cases h
    · exact h

theorem score_of_le {now' : ℤ} (hle : now ≤ now') (h : k.score now' m = some x) :
    k.score now m = some x := by
  unfold score live at h ⊢
  split at h
  · cases h
  rename_i hnow'
  rw [if_neg]
  · exact h
  · intro hnow
    apply hnow'
    rw [Option.any_eq_true] at hnow ⊢
    obtain ⟨t, ht, hle'⟩ := hnow
    refine ⟨t, ht, ?_⟩
    rw [decide_eq_true_eq] at hle' ⊢
    omega

theorem mem_entries : k.score now m = some x ↔ ⟨m, x⟩ ∈ (k.live now).set.entries :=
  AList.mem_lookup_iff

theorem first_spec (h : k.first now = some m) :
    ∃ x, k.score now m = some x ∧
      ∀ m' x', k.score now m' = some x' → place x m ≤ place x' m' := by
  obtain ⟨e, he, rfl⟩ := Option.map_eq_some_iff.1 h
  refine ⟨e.2, mem_entries.2 (List.argmin_mem he), ?_⟩
  intro m' x' hx'
  exact List.le_of_mem_argmin (mem_entries.1 hx') he

theorem first_eq_none (h : k.first now = none) (m : α) : k.score now m = none := by
  have hentries : (k.live now).set.entries = [] :=
    List.argmin_eq_none.1 (Option.map_eq_none_iff.1 h)
  rw [score, AList.ext (t := ∅) hentries]
  rfl

theorem mem_ascending : ⟨m, x⟩ ∈ k.ascending now ↔ k.score now m = some x := by
  rw [mem_entries]
  exact (List.perm_insertionSort _ _).mem_iff

theorem score_of_mem_rangeByScore {max : ℤ} {limit : ℕ} (h : m ∈ k.rangeByScore now max limit) :
    ∃ x, k.score now m = some x ∧ x ≤ max := by
  obtain ⟨e, he, rfl⟩ := List.mem_map.1 (List.mem_of_mem_take h)
  obtain ⟨hmem, hle⟩ := List.mem_filter.1 he
  exact ⟨e.2, mem_ascending.1 hmem, of_decide_eq_true hle⟩

theorem zcard_eq (k : Key α) (now : ℤ) : k.zcard now = (k.ascending now).length :=
  (List.length_insertionSort _ _).symm

/-- Every member is listed once. -/
theorem ascending_nodup (k : Key α) (now : ℤ) : ((k.ascending now).map fun e => e.1).Nodup := by
  have hperm := (List.perm_insertionSort (fun a b : Sigma fun _ : α => ℤ =>
    place a.2 a.1 ≤ place b.2 b.1) (k.live now).set.entries).map fun e => e.1
  exact hperm.nodup_iff.2 (k.live now).set.nodupKeys

theorem ascending_sorted (k : Key α) (now : ℤ) :
    (k.ascending now).Pairwise fun a b => a.2 ≤ b.2 := by
  have hsorted : (k.ascending now).Pairwise fun a b => place a.2 a.1 ≤ place b.2 b.1 :=
    List.pairwise_insertionSort _ _
  apply hsorted.imp
  intro a b hab
  obtain hlt | ⟨heq, -⟩ := Prod.Lex.le_iff.1 hab
  · exact hlt.le
  · exact heq.le

theorem place_lt {x' : ℤ} {m' : α} (hne : m ≠ m') (h : place x m ≤ place x' m') :
    place x m < place x' m' := by
  apply lt_of_le_of_ne h
  intro heq
  exact hne (congrArg Prod.snd (toLex.injective heq))

/-! ### Keys without an expiry -/

omit [LinearOrder α] in
theorem live_of_unexpiring (h : k.expireAt = none) (now : ℤ) : k.live now = k := by
  rw [live, if_neg]
  rw [h]
  nofun

theorem score_of_unexpiring (h : k.expireAt = none) (now now' : ℤ) (m : α) :
    k.score now m = k.score now' m := by
  simp [score, live_of_unexpiring h]

theorem zadd_unexpiring (h : k.expireAt = none) (now x : ℤ) (m : α) :
    (k.zadd now x m).expireAt = none := by
  show (k.live now).expireAt = none
  rw [live_of_unexpiring h]
  exact h

theorem zrem_unexpiring (h : k.expireAt = none) (now : ℤ) (m : α) :
    (k.zrem now m).expireAt = none := by
  unfold zrem
  split
  · rfl
  · show (k.live now).expireAt = none
    rw [live_of_unexpiring h]
    exact h

end Key

end VibemeetBackend.Redis
