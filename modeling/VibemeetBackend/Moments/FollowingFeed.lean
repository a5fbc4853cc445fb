import VibemeetBackend.Paging.Keyset
import VibemeetBackend.Redis.SortedSet
import VibemeetBackend.Moments.Store

/-!
# The following feed

`buildFollowingFeedOrdering` of `moments-feed.service.ts`, and the list of moment ids that
`feed-fanout.service.ts` keeps for each follower.  A page is at an offset: the first one shows
the followed creators' previews and then other moments of theirs, a later one skips as many of
*all* their moments as were shown.
-/

namespace VibemeetBackend.Moments

open Paging Redis

/-! ### The cached ids -/

def pushToFollowingFeedCache (ttlSec : ℤ) (key : Key ObjectId) (now score : ℤ)
    (momentId : ObjectId) : Key ObjectId :=
  (((key.zadd now score momentId).keepHighest now 500)).expire now (1000 * ttlSec)

def getFollowingFeedFromCache (key : Key ObjectId) (now : ℤ) (offset limit : ℕ) :
    Option (List ObjectId) :=
  let ids := key.zrevrange now offset (offset + limit)
  if ids = [] then none else some ids

def orderMomentsByIds (moments : List CreatorMoment) (ids : List ObjectId) :
    List CreatorMoment :=
  ids.filterMap fun id => moments.find? fun m => m.id == id

/-! ### The feed -/

def Store.followedCreatorIds (s : Store) (userId : ObjectId) : List ObjectId :=
  (s.follows.filter fun f => f.1 == userId).map fun f => f.2

/-- `CreatorMoment.find(query).sort({ createdAt: -1 })`: moments of one time stay as they are
stored, an order that the database leaves open. -/
def findFollowing (s : Store) (creatorIds excludeIds : List ObjectId) : List CreatorMoment :=
  sortDown CreatorMoment.createdAt
    (s.visible.filter fun m => creatorIds.contains m.creatorId && !excludeIds.contains m.id)

def orderedMoments (s : Store) (excludeIds cachedIds : List ObjectId) : List CreatorMoment :=
  let found := s.visible.filter fun m => cachedIds.contains m.id
  (orderMomentsByIds found cachedIds).filter fun m => !excludeIds.contains m.id

/-- The page of the cached ids, and whether there are more; nothing when the ids are too few, or
too few of their moments may be shown. -/
def cachedPage (s : Store) (limit : ℕ) (excludeIds cachedIds : List ObjectId) :
    List CreatorMoment × Bool :=
  let ordered := orderedMoments s excludeIds cachedIds
  if limit < cachedIds.length ∧ limit < ordered.length then (ordered.take limit, true)
  else ([], false)

def databasePage (s : Store) (limit offset : ℕ) (creatorIds excludeIds : List ObjectId) :
    List CreatorMoment × Bool :=
  let docs := ((findFollowing s creatorIds excludeIds).drop offset).take (limit + 1)
  (docs.take limit, decide (limit < docs.length))

def buildFollowingFeedOrdering (s : Store) (now : ℤ) (cache : PreviewCache s now)
    (userId : ObjectId) (limit offset : ℕ) (cachedIds : Option (List ObjectId)) :
    FeedOrderingResult :=
  let creatorIds := s.followedCreatorIds userId
  let previews :=
    if offset = 0 then
      (getActivePreviewMoments s now cache).filter fun p => creatorIds.contains p.moment.creatorId
    else []
  let excludeIds := previews.map fun p => p.moment.id
  -- no list counts as an empty one
  let cached := cachedPage s limit excludeIds (cachedIds.getD [])
  -- a list that is too short does not decide: the database does
  let page :=
    if cached.1 = [] ∧ creatorIds ≠ [] then databasePage s limit offset creatorIds excludeIds
    else cached
  { moments := previews.map previewItem ++ page.1.map (feedItem s)
    previewEndIndex := previews.length
    hasMore := some page.2
    nextOffset := some (offset + page.1.length) }

/-! ### Pages as parts of the followed moments -/

section Pages

variable (s : Store) (now : ℤ) (cache : PreviewCache s now) (userId : ObjectId) (limit : ℕ)

def followedPreviewItems : List PreviewMoment :=
  (loadPreviewMomentsFromDb s true now).filter fun p =>
    (s.followedCreatorIds userId).contains p.moment.creatorId

def followedPreviews : List CreatorMoment := (followedPreviewItems s now userId).map (·.moment)

def followedVisible : List CreatorMoment :=
  s.visible.filter fun m => (s.followedCreatorIds userId).contains m.creatorId

/-- The same in feed order. -/
def followedMoments : List CreatorMoment := sortDown CreatorMoment.createdAt (followedVisible s userId)

def otherMoments : List CreatorMoment :=
  (followedMoments s userId).filter fun m => !(followedPreviews s now userId).contains m

def previewsAt (offset : ℕ) : List PreviewMoment :=
  if offset = 0 then followedPreviewItems s now userId else []

def rowsAt (offset : ℕ) : List CreatorMoment :=
  if offset = 0 then otherMoments s now userId else followedMoments s userId

theorem mem_followedPreviewItems {p : PreviewMoment} (h : p ∈ followedPreviewItems s now userId) :
    p.moment ∈ followedVisible s userId := by
  obtain ⟨hp, hfollowed⟩ := List.mem_filter.1 h
  exact List.mem_filter.2 ⟨(publicMoment_spec (mem_loadPreviewMomentsFromDb hp)).1, hfollowed⟩

theorem followedPreviews_nodup : (followedPreviews s now userId).Nodup := by
  have h : ((followedPreviewItems s now userId).map fun p => p.moment.id).Nodup :=
    (loadPreviewMomentsFromDb_nodup s true now).sublist (List.filter_sublist.map _)
  rw [show (fun p : PreviewMoment => p.moment.id) = CreatorMoment.id ∘ (·.moment) from rfl,
    ← List.map_map] at h
  exact h.of_map

theorem findFollowing_rowsAt (offset : ℕ) :
    findFollowing s (s.followedCreatorIds userId)
      ((previewsAt s now userId offset).map fun p => p.moment.id) = rowsAt s now userId offset := by
  have hfind : ∀ excludeIds : List ObjectId,
      findFollowing s (s.followedCreatorIds userId) excludeIds =
        (followedMoments s userId).filter fun m => !excludeIds.contains m.id := by
    intro excludeIds
    rw [followedMoments, filter_sortDown, followedVisible, List.filter_filter, findFollowing]
    congr 2
    funext m
    exact Bool.and_comm _ _
  rw [hfind]
  by_cases h : offset = 0
  · rw [previewsAt, rowsAt, if_pos h, if_pos h, otherMoments]
    apply List.filter_congr
    intro m hm
    have hmem : m ∈ followedVisible s userId := (mem_sortDown _).1 hm
    rw [contains_ids s (fun p hp => List.mem_of_mem_filter (mem_followedPreviewItems s now userId hp))
      (List.mem_of_mem_filter hmem)]
    rfl
  · simp [previewsAt, rowsAt, h]

theorem rowsAt_of_nil (h : s.followedCreatorIds userId = []) (offset : ℕ) :
    rowsAt s now userId offset = [] := by
  have hvisible : followedVisible s userId = [] := by
    simp [followedVisible, h]
  have hmoments : followedMoments s userId = [] := by
    rw [followedMoments, hvisible]
    rfl
  rw [rowsAt, otherMoments, hmoments]
  simp

def followingPage (offset : ℕ) (page : List CreatorMoment × Bool) : FeedOrderingResult where
  moments := (previewsAt s now userId offset).map previewItem ++ page.1.map (feedItem s)
  previewEndIndex := (previewsAt s now userId offset).length
  hasMore := some page.2
  nextOffset := some (offset + page.1.length)

theorem followingPage_listed (offset : ℕ) (page : List CreatorMoment × Bool) :
    (followingPage s now userId offset page).listed =
      (previewsAt s now userId offset).map (·.moment) ++ page.1 := by
  show ((previewsAt s now userId offset).map previewItem ++ page.1.map (feedItem s)).map
    (·.moment) = _
  rw [List.map_append, map_feedItem, List.map_map]
  rfl

def dbPage (offset : ℕ) : List CreatorMoment × Bool :=
  (((rowsAt s now userId offset).drop offset).take limit,
    decide (limit < ((rowsAt s now userId offset).drop offset).length))

variable {limit} in
theorem cachedPage_of_nil (hlimit : 0 < limit) {excludeIds cachedIds : List ObjectId}
    (h : (cachedPage s limit excludeIds cachedIds).1 = []) :
    cachedPage s limit excludeIds cachedIds = ([], false) := by
  by_cases hlong : limit < cachedIds.length ∧ limit < (orderedMoments s excludeIds cachedIds).length
  · have hpage : cachedPage s limit excludeIds cachedIds =
        ((orderedMoments s excludeIds cachedIds).take limit, true) := if_pos hlong
    rw [hpage] at h
    have hlength := congrArg List.length h
    rw [List.length_take] at hlength
    have hzero : min limit (orderedMoments s excludeIds cachedIds).length = 0 := hlength
    omega
  · exact if_neg hlong

theorem serve (hlimit : 0 < limit) (offset : ℕ) (cachedIds : Option (List ObjectId)) :
    buildFollowingFeedOrdering s now cache userId limit offset cachedIds =
      followingPage s now userId offset
        (if (cachedPage s limit ((previewsAt s now userId offset).map fun p => p.moment.id)
            (cachedIds.getD [])).1 = [] then dbPage s now userId limit offset
        else cachedPage s limit ((previewsAt s now userId offset).map fun p => p.moment.id)
          (cachedIds.getD [])) := by
  have hpreviews : (if offset = 0 then
      (getActivePreviewMoments s now cache).filter fun p =>
        (s.followedCreatorIds userId).contains p.moment.creatorId
      else []) = previewsAt s now userId offset := by
    rw [getActivePreviewMoments_eq]
    rfl
  have hdb : databasePage s limit offset (s.followedCreatorIds userId)
      ((previewsAt s now userId offset).map fun p => p.moment.id) =
      dbPage s now userId limit offset := by
    rw [databasePage, findFollowing_rowsAt, dbPage]
    refine Prod.ext ?_ (decide_eq_decide.2 ?_)
    · show ((((rowsAt s now userId offset).drop offset).take (limit + 1)).take limit) = _
      rw [List.take_take, min_eq_left (by omega)]
    · rw [List.length_take]
      omega
  have hbuild : buildFollowingFeedOrdering s now cache userId limit offset cachedIds =
      followingPage s now userId offset
        (if (cachedPage s limit ((previewsAt s now userId offset).map fun p => p.moment.id)
            (cachedIds.getD [])).1 = [] ∧ s.followedCreatorIds userId ≠ [] then
          databasePage s limit offset (s.followedCreatorIds userId)
            ((previewsAt s now userId offset).map fun p => p.moment.id)
        else cachedPage s limit ((previewsAt s now userId offset).map fun p => p.moment.id)
          (cachedIds.getD [])) := by
    rw [followingPage, ← hpreviews]
    rfl
  rw [hbuild, hdb]
  congr 1
  by_cases hcached : (cachedPage s limit
      ((previewsAt s now userId offset).map fun p => p.moment.id) (cachedIds.getD [])).1 = []
  · rw [if_pos hcached]
    by_cases hnone : s.followedCreatorIds userId = []
    · simp [cachedPage_of_nil s hlimit hcached, dbPage, rowsAt_of_nil s now userId hnone]
    · rw [if_pos ⟨hcached, hnone⟩]
  · rw [if_neg hcached, if_neg fun h => hcached h.1]

theorem serve_db (hlimit : 0 < limit) (offset : ℕ) :
    buildFollowingFeedOrdering s now cache userId limit offset none =
      followingPage s now userId offset (dbPage s now userId limit offset) := by
  rw [serve s now cache userId limit hlimit]
  rfl

/-! ### When the pages are a partition -/

def nextOffsetOf (r : FeedOrderingResult) : Option ℕ :=
  if r.hasMore = some true then r.nextOffset else none

/-- The pages from the database end, and list every followed moment once. -/
def FollowingPartition : Prop :=
  ∃ pages,
    Listed (fun offset => buildFollowingFeedOrdering s now cache userId limit offset none)
      nextOffsetOf 0 pages ∧
    (pages.flatMap (·.listed)).Perm (followedVisible s userId)

def PreviewsFit : Prop :=
  followedPreviews s now userId = [] ∨ (otherMoments s now userId).length ≤ limit

theorem next_db (hlimit : 0 < limit) (offset : ℕ) :
    nextOffsetOf (buildFollowingFeedOrdering s now cache userId limit offset none) =
      if limit < ((rowsAt s now userId offset).drop offset).length then some (offset + limit)
      else none := by
  rw [serve_db s now cache userId limit hlimit]
  show (if some (decide (limit < ((rowsAt s now userId offset).drop offset).length)) = some true then
    some (offset + (((rowsAt s now userId offset).drop offset).take limit).length) else none) = _
  by_cases h : limit < ((rowsAt s now userId offset).drop offset).length
  · rw [decide_eq_true h, if_pos rfl, if_pos h, List.length_take, min_eq_left h.le]
  · rw [decide_eq_false h, if_neg (by simp), if_neg h]

theorem listed_db (hlimit : 0 < limit) (offset : ℕ) :
    (buildFollowingFeedOrdering s now cache userId limit offset none).listed =
      (previewsAt s now userId offset).map (·.moment) ++
        ((rowsAt s now userId offset).drop offset).take limit := by
  rw [serve_db s now cache userId limit hlimit, followingPage_listed]
  rfl

theorem following_listed (hlimit : 0 < limit) :
    ∃ pages,
      Listed (fun offset => buildFollowingFeedOrdering s now cache userId limit offset none)
        nextOffsetOf 0 pages ∧
      pages.flatMap (·.listed) =
        followedPreviews s now userId ++ (otherMoments s now userId).take limit ++
          if limit < (otherMoments s now userId).length then (followedMoments s userId).drop limit
          else [] := by
  have hfirst := listed_db s now cache userId limit hlimit 0
  have hnext := next_db s now cache userId limit hlimit 0
  simp only [previewsAt, rowsAt, if_true, List.drop_zero, Nat.zero_add] at hfirst hnext
  by_cases hmore : limit < (otherMoments s now userId).length
  · rw [if_pos hmore] at hnext ⊢
    have hshown : ∀ o, 1 ≤ o →
        (buildFollowingFeedOrdering s now cache userId limit o none).listed =
          ((followedMoments s userId).drop o).take limit := by
      intro o ho
      have hne : o ≠ 0 := by omega
      simpa [previewsAt, rowsAt, hne] using listed_db s now cache userId limit hlimit o
    have hnexts : ∀ o, 1 ≤ o →
        nextOffsetOf (buildFollowingFeedOrdering s now cache userId limit o none) =
          if limit < ((followedMoments s userId).drop o).length then some (o + limit) else none := by
      intro o ho
      have hne : o ≠ 0 := by omega
      simpa [rowsAt, hne] using next_db s now cache userId limit hlimit o
    obtain ⟨pages, hpages, hflat⟩ := offset_listed
      (fun offset => buildFollowingFeedOrdering s now cache userId limit offset none) nextOffsetOf
      (·.listed) hlimit hshown hnexts (o := limit) hlimit
    refine ⟨_, listed_more hnext hpages, ?_⟩
    rw [List.flatMap_cons, hfirst, hflat]
    rfl
  · rw [if_neg hmore] at hnext ⊢
    refine ⟨_, listed_last hnext, ?_⟩
    rw [List.flatMap_singleton, hfirst, List.append_nil]
    rfl

theorem previews_append_other_perm :
    (followedPreviews s now userId ++ otherMoments s now userId).Perm (followedVisible s userId) := by
  have hnodup : (followedVisible s userId).Nodup := s.visible_nodup.filter _
  have hperm := sortDown_perm CreatorMoment.createdAt (followedVisible s userId)
  have hpreviews : (followedPreviews s now userId).Perm
      ((followedMoments s userId).filter (followedPreviews s now userId).contains) := by
    apply (List.perm_ext_iff_of_nodup (followedPreviews_nodup s now userId)
      ((hperm.nodup_iff.2 hnodup).filter _)).2
    intro m
    rw [List.mem_filter, List.contains_iff_mem]
    constructor
    · intro h
      obtain ⟨p, hp, rfl⟩ := List.mem_map.1 h
      exact ⟨(mem_sortDown _).2 (mem_followedPreviewItems s now userId hp), h⟩
    · exact fun h => h.2
  exact (hpreviews.append_right _).trans
    ((List.filter_append_perm (followedPreviews s now userId).contains _).trans hperm)

theorem following_partition_iff (hlimit : 0 < limit) :
    FollowingPartition s now cache userId limit ↔ PreviewsFit s now userId limit := by
  obtain ⟨pages, hpages, hflat⟩ := following_listed s now cache userId limit hlimit
  have hiff : FollowingPartition s now cache userId limit ↔
      (pages.flatMap (·.listed)).Perm (followedVisible s userId) := by
    constructor
    · rintro ⟨pages', hpages', h⟩
      rwa [hpages.unique hpages']
    · exact fun h => ⟨pages, hpages, h⟩
  have hperm := previews_append_other_perm s now userId
  have hall := sortDown_perm CreatorMoment.createdAt (followedVisible s userId)
  rw [hiff, hflat, PreviewsFit]
  by_cases hmore : limit < (otherMoments s now userId).length
  · rw [if_pos hmore]
    constructor
    · intro h
      have hlength := h.length_eq
      have hlength' := hall.length_eq
      have hother : (otherMoments s now userId).length ≤ (followedMoments s userId).length :=
        List.length_filter_le _ _
      simp only [List.length_append, List.length_take, List.length_drop, followedMoments]
        at hlength hother
      refine .inl (List.eq_nil_of_length_eq_zero ?_)
      omega
    · intro h
      have hnone : followedPreviews s now userId = [] := by
        rcases h with h | h
        · exact h
        · omega
      have hsame : otherMoments s now userId = followedMoments s userId := by
        simp [otherMoments, hnone]
      rw [hnone, hsame, List.nil_append, List.take_append_drop]
      exact hall
  · rw [if_neg hmore, List.append_nil, List.take_of_length_le (by omega)]
    exact iff_of_true hperm (.inr (by omega))

/-! ### When the cached ids give the same pages -/

/-- All the cached ids, the highest score first. -/
def cachedList (key : Key ObjectId) (time : ℤ) : List ObjectId := (key.ranked time).map fun e => e.1

theorem getFollowingFeedFromCache_getD (key : Key ObjectId) (time : ℤ) (offset : ℕ) :
    (getFollowingFeedFromCache key time offset limit).getD [] =
      ((cachedList key time).drop offset).take (limit + 1) := by
  have hwindow : key.zrevrange time offset (offset + limit) =
      ((cachedList key time).drop offset).take (limit + 1) := by
    rw [Key.zrevrange, show offset + limit + 1 - offset = limit + 1 by omega]
    rfl
  rw [getFollowingFeedFromCache, hwindow]
  by_cases h : ((cachedList key time).drop offset).take (limit + 1) = []
  · rw [if_pos h, h]
    rfl
  · rw [if_neg h]
    rfl

/-- The moment of a cached id, if the page may show it. -/
def shownMoment (excludeIds : List ObjectId) (id : ObjectId) : Option CreatorMoment :=
  (s.publicMoment id).filter fun m => !excludeIds.contains m.id

theorem shownMoment_spec {excludeIds : List ObjectId} {id : ObjectId} {m : CreatorMoment}
    (h : shownMoment s excludeIds id = some m) : m ∈ s.visible ∧ m.id = id :=
  publicMoment_spec (Option.filter_eq_some_iff.1 h).1

theorem find?_visible {ids : List ObjectId} {id : ObjectId} (hid : id ∈ ids) :
    (s.visible.filter fun m => ids.contains m.id).find? (fun m => m.id == id) =
      s.publicMoment id := by
  cases h : s.publicMoment id with
  | some m =>
    obtain ⟨hm, rfl⟩ := publicMoment_spec h
    have hmem : m ∈ s.visible.filter fun m => ids.contains m.id :=
      List.mem_filter.2 ⟨hm, List.contains_iff_mem.2 hid⟩
    cases hfind : (s.visible.filter fun m => ids.contains m.id).find? (fun m' => m'.id == m.id) with
    | none =>
      have hno := List.find?_eq_none.1 hfind m hmem
      exact absurd (beq_self_eq_true m.id) hno
    | some m' =>
      have hm' := List.mem_of_mem_filter (List.mem_of_find?_eq_some hfind)
      have hbeq := List.find?_some hfind
      have hid' : m'.id = m.id := beq_iff_eq.1 hbeq
      rw [Store.visible_inj hm' hm hid']
  | none =>
    apply List.find?_eq_none.2
    intro m hm hid'
    simp [← beq_iff_eq.1 hid', publicMoment_of_visible (List.mem_of_mem_filter hm)] at h

theorem orderedMoments_eq (excludeIds ids : List ObjectId) :
    orderedMoments s excludeIds ids = ids.filterMap (shownMoment s excludeIds) := by
  have hordered : orderMomentsByIds (s.visible.filter fun m => ids.contains m.id) ids =
      ids.filterMap s.publicMoment :=
    List.filterMap_congr fun id hid => find?_visible s hid
  rw [orderedMoments, hordered, List.filter_filterMap]
  rfl

theorem filterMap_ids {ms : List CreatorMoment} (h : ∀ m ∈ ms, m ∈ s.visible) :
    (ms.map (·.id)).filterMap s.publicMoment = ms := by
  rw [List.filterMap_map]
  conv_rhs => rw [← List.filterMap_some (l := ms)]
  exact List.filterMap_congr fun m hm => publicMoment_of_visible (h m hm)

theorem filterMap_length_iff {α β : Type} (f : α → Option β) (l : List α) :
    (l.filterMap f).length = l.length ↔ ∀ a ∈ l, (f a).isSome = true := by
  induction l with
  | nil => simp
  | cons a l ih =>
    have hle : (l.filterMap f).length ≤ l.length := List.length_filterMap_le f l
    rw [List.filterMap_cons]
    cases hf : f a with
    | none =>
      refine iff_of_false ?_ ?_
      · show ¬ (l.filterMap f).length = l.length + 1
        omega
      · intro h
        have := h a List.mem_cons_self
        rw [hf] at this
        cases this
    | some b =>
      simp [hf]

theorem map_id_shown {excludeIds ids : List ObjectId}
    (h : ∀ id ∈ ids, (shownMoment s excludeIds id).isSome = true) :
    (ids.filterMap (shownMoment s excludeIds)).map (·.id) = ids := by
  induction ids with
  | nil => rfl
  | cons id ids ih =>
    obtain ⟨m, hm⟩ := Option.isSome_iff_exists.1 (h id List.mem_cons_self)
    rw [List.filterMap_cons_some hm, List.map_cons, (shownMoment_spec s hm).2,
      ih fun id' hid' => h id' (List.mem_cons_of_mem _ hid')]

def CacheAgrees (key : Key ObjectId) (time : ℤ) : Prop :=
  ∀ offset, (buildFollowingFeedOrdering s now cache userId limit offset
      (getFollowingFeedFromCache key time offset limit)).listed =
    (buildFollowingFeedOrdering s now cache userId limit offset none).listed

/-- Where `limit + 1` cached ids in a row are of moments that the page may show, the first
`limit` of them are those of the followed moments that stand there. -/
def CacheAligned (key : Key ObjectId) (time : ℤ) : Prop :=
  ∀ offset,
    (((cachedList key time).drop offset).take (limit + 1)).length = limit + 1 →
    (∀ id ∈ ((cachedList key time).drop offset).take (limit + 1),
      (shownMoment s ((previewsAt s now userId offset).map fun p => p.moment.id) id).isSome = true) →
    ((cachedList key time).drop offset).take limit =
      (((rowsAt s now userId offset).drop offset).take limit).map (·.id)

theorem mem_rowsAt {offset : ℕ} {m : CreatorMoment} (h : m ∈ rowsAt s now userId offset) :
    m ∈ s.visible := by
  have hmem : m ∈ followedMoments s userId := by
    rw [rowsAt] at h
    by_cases ho : offset = 0
    · rw [if_pos ho] at h
      exact List.mem_of_mem_filter h
    · rw [if_neg ho] at h
      exact h
  exact List.mem_of_mem_filter ((mem_sortDown _).1 hmem)

theorem cache_agrees_iff (hlimit : 0 < limit) (key : Key ObjectId) (time : ℤ) :
    CacheAgrees s now cache userId limit key time ↔ CacheAligned s now userId limit key time := by
  apply forall_congr'
  intro offset
  rw [listed_db s now cache userId limit hlimit, serve s now cache userId limit hlimit,
    followingPage_listed, getFollowingFeedFromCache_getD, List.append_cancel_left_eq]
  generalize hids : ((cachedList key time).drop offset).take (limit + 1) = ids
  generalize (previewsAt s now userId offset).map (fun p => p.moment.id) = excludeIds
  have hbefore : ((cachedList key time).drop offset).take limit = ids.take limit := by
    rw [← hids, List.take_take, min_eq_left (by omega)]
  have hlength : ids.length ≤ limit + 1 := by
    simp [← hids]
  have hrows : ∀ m ∈ ((rowsAt s now userId offset).drop offset).take limit, m ∈ s.visible :=
    fun m hm => mem_rowsAt s now userId (List.mem_of_mem_drop (List.mem_of_mem_take hm))
  rw [hbefore]
  have hle := List.length_filterMap_le (shownMoment s excludeIds) ids
  by_cases hfull : ids.length = limit + 1 ∧
      ∀ id ∈ ids, (shownMoment s excludeIds id).isSome = true
  · obtain ⟨hlen, hshown⟩ := hfull
    have hcount := (filterMap_length_iff (shownMoment s excludeIds) ids).2 hshown
    have hpage : cachedPage s limit excludeIds ids =
        ((ids.filterMap (shownMoment s excludeIds)).take limit, true) := by
      rw [cachedPage, orderedMoments_eq]
      exact if_pos (by omega)
    have hne : ¬ (ids.filterMap (shownMoment s excludeIds)).take limit = [] := by
      intro h
      have := congrArg List.length h
      rw [List.length_take, List.length_nil] at this
      omega
    have hmap : ((ids.filterMap (shownMoment s excludeIds)).take limit).map (·.id) =
        ids.take limit := by
      rw [List.map_take, map_id_shown s hshown]
    have hpublic : ∀ m ∈ (ids.filterMap (shownMoment s excludeIds)).take limit, m ∈ s.visible := by
      intro m hm
      obtain ⟨id, -, hid⟩ := List.mem_filterMap.1 (List.mem_of_mem_take hm)
      exact (shownMoment_spec s hid).1
    rw [hpage, if_neg hne]
    show (ids.filterMap (shownMoment s excludeIds)).take limit = _ ↔ _
    constructor
    · intro h _ _
      rw [← hmap, h]
    · intro h
      rw [← filterMap_ids s hpublic, hmap, h hlen hshown, filterMap_ids s hrows]
  · have hpage : cachedPage s limit excludeIds ids = ([], false) := by
      rw [cachedPage, orderedMoments_eq]
      refine if_neg fun h => hfull ?_
      have hlen : ids.length = limit + 1 := by omega
      exact ⟨hlen, (filterMap_length_iff _ _).1 (by omega)⟩
    rw [hpage, if_pos rfl]
    exact iff_of_true rfl fun hlen hshown => absurd ⟨hlen, hshown⟩ hfull

/-- The pages are a partition and the cache agrees with the database, exactly when the previews
fit and the cached ids stand where the database has them. -/
theorem following_feed_iff (hlimit : 1 ≤ limit) (key : Key ObjectId) (time : ℤ) :
    (FollowingPartition s now cache userId limit ∧ CacheAgrees s now cache userId limit key time) ↔
      PreviewsFit s now userId limit ∧ CacheAligned s now userId limit key time :=
  and_congr (following_partition_iff s now cache userId limit hlimit)
    (cache_agrees_iff s now cache userId limit hlimit key time)

end Pages

theorem onePreview_nodup :
    (([{ momentId := 1, order := 0 }] : List FreePreviewMoment).map
      FreePreviewMoment.momentId).Nodup := by
  decide

def followedStore : Store where
  moments :=
    { rows := [(4, 7), (3, 8), (2, 8), (1, 8)].map fun m =>
        { id := m.1, creatorId := m.2, processingStatus := .ready, feedScore := m.1.val,
          createdAt := m.1.val }
      nodup := by decide }
  previews := { rows := [{ momentId := 1, order := 0 }], nodup := onePreview_nodup }
  creators := fun _ => none
  users := fun _ => none
  follows := [(9, 7), (9, 8)]

/-- A week passes after the newest moment was pushed, and then creator 8 is followed. -/
def refilledKey : Key ObjectId :=
  let ttlSec := 7 * 24 * 3600
  let uploaded := pushToFollowingFeedCache ttlSec Key.empty 0 4 4
  let followedAt := 1000 * ttlSec + 1
  [3, 2, 1].foldl
    (fun key (m : ObjectId) => pushToFollowingFeedCache ttlSec key followedAt m.val m) uploaded

def plainStore : Store := { followedStore with previews := ⟨[], List.nodup_nil⟩ }

def pushedKey : Key ObjectId :=
  [4, 3, 2, 1].foldl
    (fun key (m : ObjectId) => pushToFollowingFeedCache 604800 key 0 m.val m) Key.empty

/-- Two pages without a preview, from the database and from the ids that were pushed. -/
theorem following_feed_plainStore :
    FollowingPartition plainStore 0 (coldCache plainStore 0) 9 2 ∧
      CacheAgrees plainStore 0 (coldCache plainStore 0) 9 2 pushedKey 0 := by
  apply (following_feed_iff plainStore 0 (coldCache plainStore 0) 9 2 (by decide) pushedKey 0).2
  refine ⟨.inl (by decide +kernel), ?_⟩
  intro offset hlength _
  have hlist : cachedList pushedKey 0 = [4, 3, 2, 1] := by decide +kernel
  rw [hlist] at hlength ⊢
  have hoffset : offset < 2 := by
    rw [List.length_take, List.length_drop] at hlength
    simp only [List.length_cons, List.length_nil] at hlength
    omega
  interval_cases offset <;> decide +kernel

/-- With one moment to a page the preview is listed again, and the list of ids skips the newest
moment. -/
theorem following_repeats_and_skips :
    ¬ FollowingPartition followedStore 0 (coldCache followedStore 0) 9 1 ∧
      ¬ CacheAgrees followedStore 0 (coldCache followedStore 0) 9 1 refilledKey 604800002 := by
  constructor
  · rintro ⟨pages, hpages, hperm⟩
    have hrun : (follow (fun offset =>
        buildFollowingFeedOrdering followedStore 0 (coldCache followedStore 0) 9 1 offset none)
        nextOffsetOf 4 0).map (fun pages => (pages.flatMap (·.listed)).map (·.id)) =
          some [1, 4, 3, 2, 1] := by
      decide +kernel
    obtain ⟨pages', hfollow, hids⟩ := Option.map_eq_some_iff.1 hrun
    have hlength := (hperm.map CreatorMoment.id).length_eq
    rw [hpages.unique ⟨4, hfollow⟩, hids] at hlength
    exact absurd hlength (by decide +kernel)
  · intro h
    exact absurd (congrArg (List.map CreatorMoment.id) (h 0)) (by decide +kernel)

end VibemeetBackend.Moments
