import VibemeetBackend.Paging.Keyset
import VibemeetBackend.Moments.Store

/-!
# The popular feed

`buildPopularFeedOrdering` of `moments-feed.service.ts`.  The first page shows the active
previews and then the first moments that are no previews; a later page is cut below the last
moment of the page before it, from all public moments.
-/

namespace VibemeetBackend.Moments

open Paging

/-! ### Feed order -/

/-- The place of a moment in `{ feedScore, _id }`; the feed shows the highest first. -/
def CreatorMoment.place (m : CreatorMoment) : ℤ ×ₗ ObjectId := toLex (m.feedScore, m.id)

/-- `.sort({ feedScore: -1, _id: -1 })`, which has no ties. -/
def sortPopular (ms : List CreatorMoment) : List CreatorMoment := sortDown CreatorMoment.place ms

def beforeCursor (cursor : Text) (m : CreatorMoment) : Bool :=
  match decodePopularFeedCursor cursor with
  | some decoded =>
    (m.feedScore : ℚ) < decoded.feedScore ∨
      (m.feedScore : ℚ) = decoded.feedScore ∧ m.id < decoded.id
  | none =>
    -- a cursor of an older server is a score alone
    match finiteNumber cursor with
    | some cursorScore => (m.feedScore : ℚ) < cursorScore
    | none => true

/-- `CreatorMoment.find(query)` in feed order. -/
def findPopular (s : Store) (cursor : Option Text) (excludeIds : List ObjectId) :
    List CreatorMoment :=
  sortPopular (s.visible.filter fun m =>
    cursor.all (beforeCursor · m) && !excludeIds.contains m.id)

/-- The page of the previews and the first `limit` of the moments found; one more is asked
for, to see whether there are more. -/
def popularPage (s : Store) (limit : ℕ) (previews : List PreviewMoment)
    (found : List CreatorMoment) : FeedOrderingResult :=
  let feedDocs := found.take (limit + 1)
  let feedSlice := feedDocs.take limit
  { moments := previews.map previewItem ++ feedSlice.map (feedItem s)
    previewEndIndex := previews.length
    nextCursor :=
      if limit < feedDocs.length then
        feedSlice.getLast?.map fun lastFeed =>
          encodePopularFeedCursor lastFeed.feedScore lastFeed.id
      else none }

def buildPopularFeedOrdering (s : Store) (now : ℤ) (cache : PreviewCache s now) (limit : ℕ)
    (cursor : Option Text) : FeedOrderingResult :=
  -- an empty cursor counts as none
  let cursor := cursor.filter (· ≠ [])
  let previews := if cursor.isNone then getActivePreviewMoments s now cache else []
  popularPage s limit previews (findPopular s cursor (previews.map fun p => p.moment.id))

/-! ### Pages as parts of the order -/

def placeText (k : ℤ ×ₗ ObjectId) : Text := encodePopularFeedCursor (ofLex k).1 (ofLex k).2

variable (k : ℤ ×ₗ ObjectId)

theorem placeText_ne_nil : placeText k ≠ [] := by
  exact List.append_ne_nil_of_right_ne_nil _ (List.cons_ne_nil _ _)

theorem beforeCursor_placeText (m : CreatorMoment) :
    beforeCursor (placeText k) m = decide (m.place < k) := by
  rw [beforeCursor, placeText, decode_encode]
  apply decide_eq_decide.2
  rw [CreatorMoment.place, Prod.Lex.lt_iff]
  simp

theorem popularPage_listed (s : Store) (limit : ℕ) (previews : List PreviewMoment)
    (found : List CreatorMoment) :
    (popularPage s limit previews found).listed =
      previews.map (·.moment) ++ found.take limit := by
  show ((previews.map previewItem ++ ((found.take (limit + 1)).take limit).map (feedItem s)).map
    (·.moment)) = _
  rw [List.map_append, map_feedItem, List.map_map, List.take_take, min_eq_left (by omega)]
  rfl

theorem popularPage_nextCursor (s : Store) (limit : ℕ) (previews : List PreviewMoment)
    (found : List CreatorMoment) :
    (popularPage s limit previews found).nextCursor =
      (cursorOf CreatorMoment.place limit found).map placeText := by
  show (if limit < (found.take (limit + 1)).length then
    ((found.take (limit + 1)).take limit).getLast?.map _ else none) = _
  rw [List.take_take, min_eq_left (by omega), cursorOf, List.length_take]
  by_cases h : limit < found.length
  · rw [if_pos h, if_pos (by omega), Option.map_map]
    rfl
  · rw [if_neg h, if_neg (by omega)]
    rfl

section Pages

variable (s : Store) (now : ℤ) (cache : PreviewCache s now) (limit : ℕ)

def previewMoments : List CreatorMoment :=
  (loadPreviewMomentsFromDb s true now).map (·.moment)

def isPreview (m : CreatorMoment) : Bool := (previewMoments s now).contains m

def feedMoments : List CreatorMoment := s.visible.filter fun m => !isPreview s now m

theorem previewMoments_nodup : (previewMoments s now).Nodup := by
  have h := loadPreviewMomentsFromDb_nodup s true now
  rw [show (fun p : PreviewMoment => p.moment.id) = CreatorMoment.id ∘ (·.moment) from rfl,
    ← List.map_map] at h
  exact h.of_map

theorem previewMoments_visible {m : CreatorMoment} (h : m ∈ previewMoments s now) :
    m ∈ s.visible := by
  obtain ⟨p, hp, rfl⟩ := List.mem_map.1 h
  exact (publicMoment_spec (mem_loadPreviewMomentsFromDb hp)).1

theorem filter_excludeIds :
    (s.visible.filter fun m =>
      !((loadPreviewMomentsFromDb s true now).map fun p => p.moment.id).contains m.id) =
      feedMoments s now := by
  apply List.filter_congr
  intro m hm
  congr 1
  exact contains_ids s (fun p hp => (publicMoment_spec (mem_loadPreviewMomentsFromDb hp)).1) hm

theorem serve_first : buildPopularFeedOrdering s now cache limit none =
    popularPage s limit (loadPreviewMomentsFromDb s true now)
      (sortPopular (feedMoments s now)) := by
  rw [← filter_excludeIds, ← getActivePreviewMoments_eq s now cache]
  rfl

theorem serve_later :
    buildPopularFeedOrdering s now cache limit (some (placeText k)) =
      popularPage s limit [] (below CreatorMoment.place k (sortPopular s.visible)) := by
  have hcursor : (some (placeText k)).filter (· ≠ []) = some (placeText k) :=
    Option.filter_some_pos (by simpa using placeText_ne_nil k)
  have hfound : findPopular s (some (placeText k)) [] =
      below CreatorMoment.place k (sortPopular s.visible) := by
    rw [findPopular, below, sortPopular, sortPopular, filter_sortDown]
    congr 1
    apply List.filter_congr
    intro m _
    simp [beforeCursor_placeText]
  rw [buildPopularFeedOrdering, hcursor, ← hfound]
  rfl

def nextPage (r : FeedOrderingResult) : Option (Option Text) := r.nextCursor.map some

theorem sortPopular_strict :
    (sortPopular s.visible).Pairwise fun a b => b.place < a.place := by
  have hnodup : (sortPopular s.visible).Pairwise fun a b => a.id ≠ b.id := by
    have h : ((sortPopular s.visible).map CreatorMoment.id).Nodup :=
      ((sortDown_perm _ s.visible).map _).nodup_iff.2 s.visible_ids_nodup
    exact List.pairwise_map.1 h
  apply (sortDown_descending CreatorMoment.place s.visible).imp₂ _ hnodup
  intro a b hle hne
  apply lt_of_le_of_ne hle
  intro heq
  exact hne (congrArg (fun k => (ofLex k).2) heq.symm)

theorem later_listed (hlimit : 0 < limit) (k : ℤ ×ₗ ObjectId) :
    ∃ pages, Listed (buildPopularFeedOrdering s now cache limit) nextPage
        (some (placeText k)) pages ∧
      pages.flatMap (·.listed) = below CreatorMoment.place k (sortPopular s.visible) := by
  have hdesc : Descending CreatorMoment.place (sortPopular s.visible) := sortDown_descending _ _
  have hlisted : ∀ k, (buildPopularFeedOrdering s now cache limit (some (placeText k))).listed =
      (below CreatorMoment.place k (sortPopular s.visible)).take limit := by
    intro k
    rw [serve_later, popularPage_listed]
    rfl
  have hnext : ∀ k,
      nextPage (buildPopularFeedOrdering s now cache limit (some (placeText k))) =
        (cursorOf CreatorMoment.place limit
          (below CreatorMoment.place k (sortPopular s.visible))).map fun k => some (placeText k) := by
    intro k
    rw [nextPage, serve_later, popularPage_nextCursor, Option.map_map]
    rfl
  obtain ⟨pages, hpages, hmap⟩ := keyset_listed (buildPopularFeedOrdering s now cache limit)
    nextPage (·.listed) id (fun k => some (placeText k)) hlimit hdesc hlisted hnext k
  have hstrict : Apart CreatorMoment.place limit
      (below CreatorMoment.place k (sortPopular s.visible)) :=
    apart_of_strict hlimit ((sortPopular_strict s).filter _)
  refine ⟨pages, hpages, ?_⟩
  rw [List.flatMap_def, hmap, List.map_id]
  exact (chunks_complete_iff hlimit (hdesc.belowKey k)).2 hstrict

/-- What all pages list: the previews, the first of the other moments, and then whatever is
below the last of these. -/
theorem listed_pages (hlimit : 0 < limit) :
    ∃ pages, Listed (buildPopularFeedOrdering s now cache limit) nextPage none pages ∧
      pages.flatMap (·.listed) =
        previewMoments s now ++ (sortPopular (feedMoments s now)).take limit ++
          match cursorOf CreatorMoment.place limit (sortPopular (feedMoments s now)) with
          | some k => below CreatorMoment.place k (sortPopular s.visible)
          | none => [] := by
  have hlisted : (buildPopularFeedOrdering s now cache limit none).listed =
      previewMoments s now ++ (sortPopular (feedMoments s now)).take limit := by
    rw [serve_first, popularPage_listed]
    rfl
  have hnext : nextPage (buildPopularFeedOrdering s now cache limit none) =
      (cursorOf CreatorMoment.place limit (sortPopular (feedMoments s now))).map
        fun k => some (placeText k) := by
    rw [nextPage, serve_first, popularPage_nextCursor, Option.map_map]
    rfl
  cases hcursor : cursorOf CreatorMoment.place limit (sortPopular (feedMoments s now)) with
  | none =>
    rw [hcursor] at hnext
    refine ⟨_, listed_last hnext, ?_⟩
    rw [List.flatMap_singleton, hlisted, List.append_nil]
  | some k =>
    rw [hcursor] at hnext
    obtain ⟨pages, hpages, hflat⟩ := later_listed s now cache limit hlimit k
    refine ⟨_, listed_more hnext hpages, ?_⟩
    rw [List.flatMap_cons, hlisted, hflat]

/-! ### A partition -/

/-- Following the cursor ends, and the pages list every public moment once. -/
def PopularPartition : Prop :=
  ∃ pages, Listed (buildPopularFeedOrdering s now cache limit) nextPage none pages ∧
    (pages.flatMap (·.listed)).Perm s.visible

/-- The moments that are no previews fit the first page, or fewer than a page of them stand
above each preview. -/
def PreviewsOnTop : Prop :=
  (feedMoments s now).length ≤ limit ∨
    ∀ p ∈ previewMoments s now,
      (feedMoments s now).countP (fun m => decide (p.place < m.place)) < limit

theorem previews_append_perm :
    (previewMoments s now ++ sortPopular (feedMoments s now)).Perm s.visible := by
  have hpreviews : (previewMoments s now).Perm (s.visible.filter (isPreview s now)) := by
    apply (List.perm_ext_iff_of_nodup (previewMoments_nodup s now) (s.visible_nodup.filter _)).2
    intro m
    rw [List.mem_filter, isPreview, List.contains_iff_mem]
    exact ⟨fun h => ⟨previewMoments_visible s now h, h⟩, fun h => h.2⟩
  exact (hpreviews.append (sortDown_perm _ _)).trans
    (List.filter_append_perm (isPreview s now) s.visible)

theorem sortPopular_feedMoments :
    sortPopular (feedMoments s now) =
      (sortPopular s.visible).filter fun m => !isPreview s now m := by
  rw [sortPopular, sortPopular, filter_sortDown]
  rfl

theorem below_eq_drop (hlimit : 0 < limit) {a : CreatorMoment}
    (ha : (sortPopular (feedMoments s now))[limit - 1]? = some a)
    (h : ∀ p ∈ previewMoments s now, a.place ≤ p.place) :
    below CreatorMoment.place a.place (sortPopular s.visible) =
      (sortPopular (feedMoments s now)).drop limit := by
  have hdesc : Descending CreatorMoment.place (sortPopular (feedMoments s now)) :=
    sortDown_descending _ _
  have hnone : below CreatorMoment.place a.place (sortPopular s.visible) =
      below CreatorMoment.place a.place (sortPopular (feedMoments s now)) := by
    rw [sortPopular_feedMoments, below, below, List.filter_filter]
    apply List.filter_congr
    intro m _
    by_cases hm : isPreview s now m = true
    · have hle := h m (List.contains_iff_mem.1 hm)
      simp [hm, hle]
    · simp [hm]
  have hstrict : (sortPopular (feedMoments s now)).Pairwise fun a b => b.place < a.place := by
    rw [sortPopular_feedMoments]
    exact (sortPopular_strict s).filter _
  rw [hnone, below_last hlimit hdesc ha, (hdesc.drop limit).below_eq_self, List.head?_drop]
  intro b hb
  have happart := apart_of_strict hlimit hstrict 0 a b
  simp only [Nat.zero_mul, Nat.zero_add, Nat.one_mul] at happart
  exact happart ha hb

/-- The pages list every public moment once exactly when the previews are on top. -/
theorem popular_partition_iff (hlimit : 1 ≤ limit) :
    PopularPartition s now cache limit ↔ PreviewsOnTop s now limit := by
  have hdesc : Descending CreatorMoment.place (sortPopular (feedMoments s now)) :=
    sortDown_descending _ _
  have hlength : (sortPopular (feedMoments s now)).length = (feedMoments s now).length :=
    (sortDown_perm _ _).length_eq
  have hperm := previews_append_perm s now
  obtain ⟨pages, hpages, hflat⟩ := listed_pages s now cache limit hlimit
  have hiff : PopularPartition s now cache limit ↔
      (pages.flatMap (·.listed)).Perm s.visible := by
    constructor
    · rintro ⟨pages', hpages', h⟩
      rwa [hpages.unique hpages']
    · exact fun h => ⟨pages, hpages, h⟩
  rw [hiff, hflat]
  rcases Nat.lt_or_ge limit (feedMoments s now).length with hmore | hfit
  · obtain ⟨a, ha, -, hcursor⟩ :=
      cursorOf_eq_some CreatorMoment.place hlimit (hlength.symm ▸ hmore)
    have hcount : ∀ p : CreatorMoment,
        (feedMoments s now).countP (fun m => decide (p.place < m.place)) < limit ↔
          a.place ≤ p.place := by
      intro p
      rw [← countP_above_lt hlimit hdesc ha p.place, sortPopular,
        (sortDown_perm CreatorMoment.place (feedMoments s now)).countP_eq]
    rw [hcursor]
    show (_ ++ below CreatorMoment.place a.place (sortPopular s.visible)).Perm s.visible ↔ _
    constructor
    · intro h
      refine .inr fun p hp => (hcount p).2 ?_
      have hnodup := h.nodup_iff.2 s.visible_nodup
      by_contra hlt
      -- a preview below the end of the first page is listed there and on top
      have hbelow : p ∈ below CreatorMoment.place a.place (sortPopular s.visible) := by
        refine List.mem_filter.2 ⟨?_, decide_eq_true (not_le.1 hlt)⟩
        exact (mem_sortDown _).2 (previewMoments_visible s now hp)
      exact List.disjoint_of_nodup_append hnodup (List.mem_append_left _ hp) hbelow
    · intro h
      rcases h with h | h
      · omega
      · rw [below_eq_drop s now limit hlimit ha fun p hp => (hcount p).1 (h p hp),
          List.append_assoc, List.take_append_drop]
        exact hperm
  · rw [cursorOf_eq_none (by omega), List.take_of_length_le (by omega)]
    refine iff_of_true ?_ (.inl hfit)
    show (_ ++ []).Perm s.visible
    rw [List.append_nil]
    exact hperm

end Pages

def oldestPreviewed : Store where
  moments :=
    { rows := [3, 2, 1].map fun i =>
        { id := i, creatorId := 7, processingStatus := .ready, feedScore := i.val, createdAt := i.val }
      nodup := by decide }
  previews := { rows := [{ momentId := 1, order := 0 }], nodup := by decide }
  creators := fun _ => none
  users := fun _ => none
  follows := []

/-- The three fit the first page. -/
theorem popular_partition_oldestPreviewed :
    PopularPartition oldestPreviewed 0 (coldCache oldestPreviewed 0) 2 :=
  (popular_partition_iff oldestPreviewed 0 (coldCache oldestPreviewed 0) 2 (by decide)).2
    (.inl (by decide +kernel))

theorem popular_repeats_preview :
    ¬ ∀ (s : Store) (now : ℤ) (cache : PreviewCache s now) (limit : ℕ), 1 ≤ limit →
      PopularPartition s now cache limit := by
  intro h
  obtain ⟨pages, hpages, hperm⟩ := h oldestPreviewed 0 (coldCache oldestPreviewed 0) 1 le_rfl
  have hrun : (follow (buildPopularFeedOrdering oldestPreviewed 0 (coldCache oldestPreviewed 0) 1)
      nextPage 3 none).map (fun pages => (pages.flatMap (·.listed)).map (·.id)) =
        some [1, 3, 2, 1] := by
    decide +kernel
  obtain ⟨pages', hfollow, hids⟩ := Option.map_eq_some_iff.1 hrun
  have hlength := (hperm.map CreatorMoment.id).length_eq
  rw [hpages.unique ⟨3, hfollow⟩, hids] at hlength
  exact absurd hlength (by decide +kernel)

end VibemeetBackend.Moments
