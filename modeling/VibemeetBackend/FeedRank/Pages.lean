import VibemeetBackend.FeedRank.Index

/-!
# Pages by the index and by the documents
-/

namespace VibemeetBackend.FeedRank

open Moments (Text trim ObjectId)
open Presence

variable {cfg : FeedConfig} {s : FeedStore}

/-! ### What the index calls for -/

def expectedScore (cfg : FeedConfig) (s : FeedStore) (c : Creator) : ℤ :=
  encodeFeedRankScore (feedState cfg s c) c.createdAt

/-- The entry of an id: the score of a creator who is listed, and none otherwise. -/
def Right (cfg : FeedConfig) (s : FeedStore) (id : ObjectId) : Prop :=
  s.rank.score 0 id =
    ((s.creators.get id).filter fun c => !c.isDisabled).map (expectedScore cfg s)

/-- Creation times that differ have different tie-breaks. -/
def TimesApart (s : FeedStore) : Prop :=
  ∀ c ∈ s.listable, ∀ c' ∈ s.listable,
    tieBreak c.createdAt = tieBreak c'.createdAt → c.createdAt = c'.createdAt

theorem mem_listable {c : Creator} :
    c ∈ s.listable ↔ c ∈ s.creators.rows ∧ c.isDisabled = false := by
  unfold FeedStore.listable
  rw [List.mem_filter, Bool.not_eq_true']

theorem listable_nodup (s : FeedStore) : (s.listable.map (·.id)).Nodup :=
  s.creators.nodup.sublist (List.filter_sublist.map _)

theorem Right.score_eq_some {id : ObjectId} (h : Right cfg s id) {x : ℤ} :
    s.rank.score 0 id = some x ↔ ∃ c ∈ s.listable, c.id = id ∧ expectedScore cfg s c = x := by
  rw [h, Option.map_eq_some_iff]
  constructor
  · rintro ⟨c, hc, hx⟩
    obtain ⟨hget, hlisted⟩ := Option.filter_eq_some_iff.1 hc
    obtain ⟨hmem, hid⟩ := Mongo.Unique.mem_of_get hget
    exact ⟨c, mem_listable.2 ⟨hmem, by simpa using hlisted⟩, hid, hx⟩
  · rintro ⟨c, hc, rfl, hx⟩
    obtain ⟨hmem, hlisted⟩ := mem_listable.1 hc
    use c
    rw [Mongo.Unique.get_of_mem hmem, Option.filter_eq_some_iff, hlisted]
    exact ⟨⟨rfl, rfl⟩, hx⟩

/-! ### The order -/

def place (cfg : FeedConfig) (s : FeedStore) (c : Creator) : ℤ ×ₗ ℤ :=
  toLex (availabilityRank (feedState cfg s c), -c.createdAt)

def placeOf (cfg : FeedConfig) (s : FeedStore) (id : ObjectId) : Option (ℤ ×ₗ ℤ) :=
  (s.creators.get id).map (place cfg s)

theorem placeOf_id {c : Creator} (hc : c ∈ s.listable) :
    placeOf cfg s c.id = some (place cfg s c) := by
  unfold placeOf
  rw [Mongo.Unique.get_of_mem (mem_listable.1 hc).1]
  rfl

theorem tieBreak_le {t t' : ℤ} (h : t ≤ t') : tieBreak t' ≤ tieBreak t := by
  unfold tieBreak
  omega

theorem tieBreak_bounds (t : ℤ) : 0 ≤ tieBreak t ∧ tieBreak t ≤ MAX_TS := by
  unfold tieBreak MAX_TS
  omega

/-- **The scores are in the order of the sort.** -/
theorem place_le_of_score {c c' : Creator} (hapart : TimesApart s) (hc : c ∈ s.listable)
    (hc' : c' ∈ s.listable) (h : expectedScore cfg s c ≤ expectedScore cfg s c') :
    place cfg s c ≤ place cfg s c' := by
  unfold expectedScore encodeFeedRankScore at h
  have hbounds := tieBreak_bounds c.createdAt
  have hbounds' := tieBreak_bounds c'.createdAt
  unfold MAX_TS at hbounds hbounds'
  apply Prod.Lex.toLex_le_toLex.2
  by_cases hrank : availabilityRank (feedState cfg s c) = availabilityRank (feedState cfg s c')
  · right
    constructor
    · exact hrank
    · show -c.createdAt ≤ -c'.createdAt
      by_contra hlt
      have hle : tieBreak c'.createdAt ≤ tieBreak c.createdAt := tieBreak_le (by omega)
      have heq := hapart c hc c' hc' (by omega)
      omega
  · left
    show availabilityRank (feedState cfg s c) < availabilityRank (feedState cfg s c')
    omega

theorem availabilitySort_sorted (cfg : FeedConfig) (s : FeedStore) :
    (availabilitySort cfg s).Pairwise fun c c' => place cfg s c ≤ place cfg s c' := by
  have hplace : ∀ a b : Creator, (availabilityRank (feedState cfg s a) <
        availabilityRank (feedState cfg s b) ∨
      availabilityRank (feedState cfg s a) = availabilityRank (feedState cfg s b) ∧
        b.createdAt ≤ a.createdAt) ↔ place cfg s a ≤ place cfg s b := by
    intro a b
    simp [place, Prod.Lex.toLex_le_toLex]
  have : Std.Total fun a b : Creator => availabilityRank (feedState cfg s a) <
        availabilityRank (feedState cfg s b) ∨
      availabilityRank (feedState cfg s a) = availabilityRank (feedState cfg s b) ∧
        b.createdAt ≤ a.createdAt := by
    constructor
    intro a b
    rw [hplace, hplace]
    exact le_total _ _
  have : IsTrans Creator fun a b => availabilityRank (feedState cfg s a) <
        availabilityRank (feedState cfg s b) ∨
      availabilityRank (feedState cfg s a) = availabilityRank (feedState cfg s b) ∧
        b.createdAt ≤ a.createdAt := by
    constructor
    intro a b c
    simpa [hplace] using le_trans
  apply (List.pairwise_insertionSort _ s.listable).imp
  intro a b hab
  exact (hplace a b).1 hab

/-! ### Pages -/

/-- A page by the index; without one nothing is listed. -/
def rankPage (cfg : FeedConfig) (s : FeedStore) (skip limit : ℕ) : AvailabilityFeedPage :=
  (getAvailabilityFeedPageFromRank cfg s skip limit).getD ⟨[], 0⟩

/-- The pages by the index are those of a list of exactly the creators who are listed, in the order
of the sort up to creators with one creation time in one tier, and with the same total. -/
structure PagesAgree (cfg : FeedConfig) (s : FeedStore) : Prop where
  listed : ∃ ids : List ObjectId, ids.Perm (s.listable.map (·.id)) ∧
    ∀ skip limit, 0 < limit → (rankPage cfg s skip limit).pageIds = (ids.drop skip).take limit
  ordered : ∀ skip limit, 0 < limit → (rankPage cfg s skip limit).pageIds.map (placeOf cfg s) =
    (buildLegacyAvailabilityPage cfg s skip limit).pageIds.map (placeOf cfg s)
  total : ∀ skip limit, (rankPage cfg s skip limit).total =
    (buildLegacyAvailabilityPage cfg s skip limit).total

def members (s : FeedStore) : List ObjectId := (s.rank.ascending 0).map fun e => e.1

theorem members_perm (hright : ∀ id, Right cfg s id) :
    (members s).Perm (s.listable.map (·.id)) := by
  apply (List.perm_ext_iff_of_nodup (s.rank.ascending_nodup 0) (listable_nodup s)).2
  intro id
  rw [List.mem_map, List.mem_map]
  constructor
  · rintro ⟨e, he, rfl⟩
    obtain ⟨c, hc, hid, -⟩ := (hright e.1).score_eq_some.1 (Redis.Key.mem_ascending.1 he)
    exact ⟨c, hc, hid⟩
  · rintro ⟨c, hc, rfl⟩
    have hscore := (hright c.id).score_eq_some.2 ⟨c, hc, rfl, rfl⟩
    exact ⟨_, Redis.Key.mem_ascending.2 hscore, rfl⟩

theorem zcard_listable (hright : ∀ id, Right cfg s id) :
    s.rank.zcard 0 = s.listable.length := by
  have hlength := (members_perm hright).length_eq
  simpa [members, Redis.Key.zcard_eq] using hlength

def NotBelow (x y : Option (ℤ ×ₗ ℤ)) : Prop := ∀ p ∈ x, ∀ q ∈ y, p ≤ q

theorem members_places (hright : ∀ id, Right cfg s id) (hapart : TimesApart s) :
    (members s).map (placeOf cfg s) =
      ((availabilitySort cfg s).map (·.id)).map (placeOf cfg s) := by
  have hsort : (availabilitySort cfg s).Perm s.listable := List.perm_insertionSort _ _
  have hanti : ∀ x y, x ∈ (members s).map (placeOf cfg s) →
      y ∈ ((availabilitySort cfg s).map (·.id)).map (placeOf cfg s) →
      NotBelow x y → NotBelow y x → x = y := by
    intro x y hx hy hxy hyx
    obtain ⟨id, hid, rfl⟩ := List.mem_map.1 hx
    obtain ⟨c, hc, rfl⟩ := List.mem_map.1 ((members_perm hright).mem_iff.1 hid)
    obtain ⟨id', hid', rfl⟩ := List.mem_map.1 hy
    obtain ⟨c', hc', rfl⟩ := List.mem_map.1 hid'
    have hc' := hsort.mem_iff.1 hc'
    rw [placeOf_id hc, placeOf_id hc'] at hxy hyx ⊢
    apply congrArg
    exact le_antisymm (hxy _ rfl _ rfl) (hyx _ rfl _ rfl)
  have hmembers : ((members s).map (placeOf cfg s)).Pairwise NotBelow := by
    rw [members, List.map_map, List.pairwise_map]
    apply List.Pairwise.imp_of_mem _ (s.rank.ascending_sorted 0)
    intro e e' he he' hle p hp q hq
    obtain ⟨c, hc, hid, hscore⟩ := (hright e.1).score_eq_some.1 (Redis.Key.mem_ascending.1 he)
    obtain ⟨c', hc', hid', hscore'⟩ :=
      (hright e'.1).score_eq_some.1 (Redis.Key.mem_ascending.1 he')
    rw [Function.comp_apply, ← hid, placeOf_id hc] at hp
    rw [Function.comp_apply, ← hid', placeOf_id hc'] at hq
    rw [← Option.some.inj hp, ← Option.some.inj hq]
    rw [← hscore, ← hscore'] at hle
    exact place_le_of_score hapart hc hc' hle
  have hsorted : (((availabilitySort cfg s).map (·.id)).map (placeOf cfg s)).Pairwise NotBelow := by
    rw [List.map_map, List.pairwise_map]
    apply List.Pairwise.imp_of_mem _ (availabilitySort_sorted cfg s)
    intro c c' hc hc' hle p hp q hq
    rw [Function.comp_apply, placeOf_id (hsort.mem_iff.1 hc)] at hp
    rw [Function.comp_apply, placeOf_id (hsort.mem_iff.1 hc')] at hq
    rw [← Option.some.inj hp, ← Option.some.inj hq]
    exact hle
  have hperm := ((members_perm hright).trans (hsort.map _).symm).map (placeOf cfg s)
  exact hperm.eq_of_pairwise hanti hmembers hsorted

theorem rankPage_ids {skip limit : ℕ} (hlimit : 0 < limit) :
    (rankPage cfg s skip limit).pageIds = ((members s).drop skip).take limit := by
  unfold rankPage getAvailabilityFeedPageFromRank
  dsimp only
  split
  · rename_i hempty
    rw [Redis.Key.zcard_eq, List.length_eq_zero_iff] at hempty
    rw [members, hempty]
    simp
  · show s.rank.zrange 0 skip (skip + limit - 1) = _
    unfold Redis.Key.zrange
    have hcount : skip + limit - 1 + 1 - skip = limit := by omega
    rw [hcount]
    rfl

/-- **Where every entry is right, the pages agree.** -/
theorem pages_agree (hright : ∀ id, Right cfg s id) (hapart : TimesApart s)
    (hcap : s.listable.length ≤ cfg.readCreatorFeedAvailabilityMaxCatalog) : PagesAgree cfg s where
  listed := ⟨members s, members_perm hright, fun _ _ hlimit => rankPage_ids hlimit⟩
  ordered := by
    intro skip limit hlimit
    have hplaces := members_places hright hapart
    simp [rankPage_ids hlimit, hplaces, buildLegacyAvailabilityPage]
  total := by
    intro skip limit
    have hcard := zcard_listable hright
    unfold rankPage getAvailabilityFeedPageFromRank buildLegacyAvailabilityPage
    dsimp only
    split
    · rename_i hempty
      rw [← hcard, hempty]
      rfl
    · show min (s.rank.zcard 0) _ = s.listable.length
      rw [hcard]
      exact min_eq_left hcap

end VibemeetBackend.FeedRank
