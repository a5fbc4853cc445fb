import VibemeetBackend.Moments.Access

/-!
# The lock shown and the lock enforced
-/

namespace VibemeetBackend.Moments

open Referral (UserRole)

/-! ### Labels -/

section labels

variable {w : Instant} {userId : ObjectId} {role : UserRole} {req : FeedRequest}
  {item : FeedOrderingItem}

variable {s : Store}

theorem section_of_page {previews : List PreviewMoment} {docs : List CreatorMoment}
    (hdocs : ∀ m ∈ docs, m.id ∉ previews.map fun p => p.moment.id)
    (h : item ∈ previews.map previewItem ++ docs.map (feedItem s)) :
    item.section = .preview ↔ item.moment.id ∈ previews.map fun p => p.moment.id := by
  obtain h | h := List.mem_append.1 h
  · obtain ⟨p, hp, rfl⟩ := List.mem_map.1 h
    exact iff_of_true rfl (List.mem_map_of_mem hp)
  · obtain ⟨m, hm, rfl⟩ := List.mem_map.1 h
    apply iff_of_false
    · intro hlabel
      cases hlabel
    · exact hdocs m hm

variable {excludeIds : List ObjectId} {m : CreatorMoment}

theorem mem_findPopular {cursor : Option Text} (h : m ∈ findPopular s cursor excludeIds) :
    m ∈ s.visible ∧ m.id ∉ excludeIds := by
  unfold findPopular sortPopular at h
  rw [Paging.mem_sortDown, List.mem_filter, Bool.and_eq_true] at h
  refine ⟨h.1, ?_⟩
  have hexcluded := h.2.2
  simpa using hexcluded

theorem mem_databasePage {limit offset : ℕ} {creatorIds : List ObjectId}
    (h : m ∈ (databasePage s limit offset creatorIds excludeIds).1) :
    m ∈ s.visible ∧ m.id ∉ excludeIds := by
  have hfound : m ∈ findFollowing s creatorIds excludeIds :=
    List.mem_of_mem_drop (List.mem_of_mem_take (List.mem_of_mem_take h))
  unfold findFollowing at hfound
  rw [Paging.mem_sortDown, List.mem_filter, Bool.and_eq_true] at hfound
  refine ⟨hfound.1, ?_⟩
  have hexcluded := hfound.2.2
  simpa using hexcluded

theorem mem_cachedPage {limit : ℕ} {cachedIds : List ObjectId}
    (h : m ∈ (cachedPage s limit excludeIds cachedIds).1) : m ∈ s.visible ∧ m.id ∉ excludeIds := by
  unfold cachedPage at h
  dsimp only at h
  split at h
  · have hordered := List.mem_of_mem_take h
    obtain ⟨hordered, hexcluded⟩ := List.mem_filter.1 hordered
    obtain ⟨id, -, hfind⟩ := List.mem_filterMap.1 hordered
    have hfound := List.mem_of_find?_eq_some hfind
    exact ⟨List.mem_of_mem_filter hfound, by simpa using hexcluded⟩
  · cases h

theorem mem_followingDocs {c : Prop} [Decidable c] {limit offset : ℕ}
    {creatorIds cachedIds : List ObjectId}
    (h : m ∈ (if c then databasePage s limit offset creatorIds excludeIds
      else cachedPage s limit excludeIds cachedIds).1) : m ∈ s.visible ∧ m.id ∉ excludeIds := by
  split at h
  · exact mem_databasePage h
  · exact mem_cachedPage h

def showsPreview (w : Instant) (userId : ObjectId) (m : CreatorMoment) : FeedRequest → Bool
  | .popular _ cursor => (cursor.filter (· ≠ [])).isNone
  | .following _ offset _ =>
    offset = 0 && (w.store.followedCreatorIds userId).contains m.creatorId

theorem feedOrdering_parts (w : Instant) (userId : ObjectId) (req : FeedRequest) :
    ∃ (previews : List PreviewMoment) (docs : List CreatorMoment),
      (buildFeedOrdering w userId req).moments =
        previews.map previewItem ++ docs.map (feedItem w.store) ∧
      (∀ m ∈ docs, m ∈ w.store.visible ∧ m.id ∉ previews.map fun p => p.moment.id) ∧
      ∀ p, p ∈ previews ↔ p ∈ getActivePreviewMoments w.store w.now w.cache ∧
        showsPreview w userId p.moment req = true := by
  cases req with
  | popular limit cursor =>
    refine ⟨_, _, rfl, ?_, ?_⟩
    · intro m hm
      exact mem_findPopular (List.mem_of_mem_take (List.mem_of_mem_take hm))
    · intro p
      show p ∈ (if (cursor.filter (· ≠ [])).isNone then _ else []) ↔
        _ ∧ (cursor.filter (· ≠ [])).isNone = true
      split <;> simp_all
  | following limit offset cachedIds =>
    refine ⟨_, _, rfl, ?_, ?_⟩
    · intro m hm
      exact mem_followingDocs hm
    · intro p
      show p ∈ (if offset = 0 then _ else []) ↔ _ ∧ (decide (offset = 0) && _) = true
      split
      · rename_i h
        simp [h]
      · rename_i h
        simp [h]

theorem activePreview_visible {p : PreviewMoment}
    (h : p ∈ getActivePreviewMoments w.store w.now w.cache) : p.moment ∈ w.store.visible := by
  rw [getActivePreviewMoments_eq] at h
  exact (publicMoment_spec (mem_loadPreviewMomentsFromDb h)).1

theorem feedOrdering_visible (h : item ∈ (buildFeedOrdering w userId req).moments) :
    item.moment ∈ w.store.visible := by
  obtain ⟨previews, docs, hpage, hdocs, hpreviews⟩ := feedOrdering_parts w userId req
  rw [hpage] at h
  obtain h | h := List.mem_append.1 h
  · obtain ⟨p, hp, rfl⟩ := List.mem_map.1 h
    exact activePreview_visible ((hpreviews p).1 hp).1
  · obtain ⟨m, hm, rfl⟩ := List.mem_map.1 h
    exact (hdocs m hm).1

/-- **The label of a moment**: a preview is labelled as one where the page has a rail for it. -/
theorem section_iff (h : item ∈ (buildFeedOrdering w userId req).moments) :
    item.section = .preview ↔
      isPreviewMoment w item.moment.id = true ∧ showsPreview w userId item.moment req = true := by
  have hvisible := feedOrdering_visible h
  obtain ⟨previews, docs, hpage, hdocs, hpreviews⟩ := feedOrdering_parts w userId req
  rw [hpage] at h
  rw [section_of_page (fun m hm => (hdocs m hm).2) h, List.mem_map]
  unfold isPreviewMoment
  rw [List.any_eq_true]
  constructor
  · rintro ⟨p, hp, hid⟩
    obtain ⟨hactive, hshows⟩ := (hpreviews p).1 hp
    have hsame := Store.visible_inj (activePreview_visible hactive) hvisible hid
    refine ⟨⟨p, hactive, beq_iff_eq.2 hid⟩, ?_⟩
    rw [← hsame]
    exact hshows
  · rintro ⟨⟨p, hactive, hid⟩, hshows⟩
    have hid := beq_iff_eq.1 hid
    have hsame := Store.visible_inj (activePreview_visible hactive) hvisible hid
    refine ⟨p, (hpreviews p).2 ⟨hactive, ?_⟩, hid⟩
    rw [hsame]
    exact hshows

theorem feedPage_section_iff (h : item ∈ feedPage w userId role req) :
    item.moment ∈ w.store.visible ∧
      (item.section = .preview ↔
        (resolvePremiumFeedTier w userId role || w.freeAccessMode) = false ∧
        isPreviewMoment w item.moment.id = true ∧
        showsPreview w userId item.moment req = true) := by
  unfold feedPage applyAudienceToFeedOrdering at h
  cases haudience : (resolvePremiumFeedTier w userId role || w.freeAccessMode) with
  | true =>
    rw [haudience] at h
    obtain ⟨item₀, hitem₀, rfl⟩ := List.mem_map.1 h
    have hvisible := feedOrdering_visible hitem₀
    split
    · refine ⟨hvisible, iff_of_false ?_ ?_⟩
      · intro hlabel
        cases hlabel
      · intro hfalse
        cases hfalse.1
    · rename_i hlabel
      refine ⟨hvisible, iff_of_false hlabel ?_⟩
      intro hfalse
      cases hfalse.1
  | false =>
    rw [haudience] at h
    refine ⟨feedOrdering_visible h, ?_⟩
    rw [section_iff h]
    simp

end labels

/-! ### The two decisions -/

section decisions

variable {w : Instant} {userId : ObjectId} {role : UserRole} {req : FeedRequest}
  {item : FeedOrderingItem} {m : CreatorMoment}

/-- What opens a moment to a viewer who is neither its owner nor a creator or admin. -/
def Opens (w : Instant) (userId : ObjectId) (m : CreatorMoment) (preview : Prop) : Prop :=
  w.vipActive userId = true ∨
    w.tier m = .everyone ∧ (w.premiumActive userId = true ∨ preview)

theorem resolve_allowed {context : MomentAccessContext} (hfree : w.freeAccessMode = false)
    (hstaff : context.isStaffAdmin = false) :
    (resolveMomentAccess w (some userId) context).allowed = true ↔
      context.isCreatorOwner = true ∨ context.isCreatorRole = true ∨
        w.vipActive userId = true ∨ context.visibilityTier = .everyone ∧
          (w.premiumActive userId = true ∨ context.isPreviewMoment = true) := by
  obtain ⟨owner, preview, staff, creator, tier⟩ := context
  obtain rfl : staff = false := hstaff
  unfold resolveMomentAccess
  dsimp only
  rw [hfree]
  cases owner with
  | true => simp
  | false =>
    cases creator with
    | true => simp
    | false =>
      cases tier <;> grind

/-- **The lock that is shown.** -/
theorem presentItem_locked (h : item ∈ feedPage w userId role req) :
    ∃ dto, presentItem w userId role item = some dto ∧
      (dto.locked = false ↔ w.freeAccessMode = true ∨ isCreatorOrAdminRole role = true ∨
        Opens w userId item.moment (isPreviewMoment w item.moment.id = true ∧
          showsPreview w userId item.moment req = true)) := by
  obtain ⟨hvisible, hlabel⟩ := feedPage_section_iff h
  have hpublic := List.of_mem_filter hvisible
  unfold CreatorMoment.isPublic at hpublic
  simp only [Bool.and_eq_true, Bool.not_eq_true', beq_iff_eq] at hpublic
  obtain ⟨⟨hdeleted, hready⟩, happroved⟩ := hpublic
  unfold presentItem presentationFromFeedOrderingItem toMomentPresentationDTO
  rw [if_neg (by simp [hready, happroved]), hdeleted]
  refine ⟨_, rfl, ?_⟩
  show (!(presentedAccess w item.moment _ _).allowed) = false ↔ _
  rw [Bool.not_eq_false']
  unfold presentedAccess
  cases hfree : w.freeAccessMode with
  | true => exact iff_of_true rfl (.inl rfl)
  | false =>
    rw [if_neg Bool.false_ne_true]
    refine (resolve_allowed hfree rfl).trans ?_
    have hrole : (buildMomentsViewer (some (userId, role)) none).isCreatorRole.getD false =
        isCreatorOrAdminRole role := rfl
    have howner : (buildMomentsViewer (some (userId, role)) none).isCreatorOwner.getD false =
        false := rfl
    unfold Opens
    dsimp only
    rw [hrole, howner, decide_eq_true_iff, hlabel, hfree]
    unfold resolvePremiumFeedTier
    cases isCreatorOrAdminRole role <;> cases w.premiumActive userId <;> simp

/-- **The lock that is enforced.** -/
theorem engagement_allowed (hrole : w.role userId = some role) :
    assertMomentEngagementAccess w userId m = true ↔
      w.freeAccessMode = true ∨ isCreatorOrAdminRole role = true ∨ isOwner w userId m = true ∨
        Opens w userId m (isPreviewMoment w m.id = true) := by
  unfold assertMomentEngagementAccess
  cases hfree : w.freeAccessMode with
  | true => simp
  | false =>
    have hany : (some role).any isCreatorOrAdminRole = isCreatorOrAdminRole role := rfl
    rw [if_neg Bool.false_ne_true, resolve_allowed hfree rfl, hrole, hany]
    unfold Opens
    cases isOwner w userId m <;> cases isCreatorOrAdminRole role <;> simp

/-- The viewers for whom both agree: an owner who is no creator needs what opens the moment to
others, and a preview opens it only on a page that has a rail for it. -/
def LockSound (w : Instant) (userId : ObjectId) (role : UserRole) (req : FeedRequest)
    (m : CreatorMoment) : Prop :=
  w.freeAccessMode = true ∨ isCreatorOrAdminRole role = true ∨ w.vipActive userId = true ∨
    if isOwner w userId m then
      w.tier m = .everyone ∧ (w.premiumActive userId = true ∨
        isPreviewMoment w m.id = true ∧ showsPreview w userId m req = true)
    else
      w.tier m = .vip ∨ w.premiumActive userId = true ∨
        (isPreviewMoment w m.id = true → showsPreview w userId m req = true)

instance (w : Instant) (userId : ObjectId) (role : UserRole) (req : FeedRequest)
    (m : CreatorMoment) : Decidable (LockSound w userId role req m) := by
  unfold LockSound
  infer_instance

def LockAgrees (w : Instant) (userId : ObjectId) (role : UserRole) (item : FeedOrderingItem) :
    Prop :=
  ∃ dto, presentItem w userId role item = some dto ∧
    (dto.locked = false ↔ assertMomentEngagementAccess w userId item.moment = true)

/-- **The lock shown on a moment is the lock enforced** exactly where the viewer is sound. -/
theorem lock_shown_iff (hrole : w.role userId = some role)
    (h : item ∈ feedPage w userId role req) :
    LockAgrees w userId role item ↔ LockSound w userId role req item.moment := by
  obtain ⟨dto, hdto, hlocked⟩ := presentItem_locked h
  have hagrees : LockAgrees w userId role item ↔
      (dto.locked = false ↔ assertMomentEngagementAccess w userId item.moment = true) := by
    constructor
    · rintro ⟨dto', hdto', hiff⟩
      obtain rfl := Option.mem_unique hdto hdto'
      exact hiff
    · exact fun hiff => ⟨dto, hdto, hiff⟩
  rw [hagrees, hlocked, engagement_allowed hrole]
  unfold LockSound Opens
  have htier : w.tier item.moment = .vip ↔ ¬w.tier item.moment = .everyone := by
    cases w.tier item.moment <;> simp
  rw [htier]
  cases isOwner w userId item.moment with
  | true => simp
  | false =>
    rw [if_neg Bool.false_ne_true]
    by_cases hfree : w.freeAccessMode = true
    · simp [hfree]
    by_cases hcreator : isCreatorOrAdminRole role = true
    · simp [hcreator]
    by_cases hvip : w.vipActive userId = true
    · simp [hvip]
    by_cases heveryone : w.tier item.moment = .everyone
    · by_cases hpremium : w.premiumActive userId = true
      · simp [heveryone, hpremium]
      · simp [hfree, hcreator, hvip, heveryone, hpremium]
    · simp [hfree, hcreator, hvip, heveryone]

end decisions

/-! ### Samples -/

/-- A signed-in user who pays for nothing, and a moment that is an active preview. -/
def previewedInstant : Instant where
  store := oldestPreviewed
  now := 0
  cache := coldCache oldestPreviewed 0
  freeAccessMode := false
  visibilityTier := fun _ => none
  role := fun _ => some .user
  vipActive := fun _ => false
  premiumActive := fun _ => false

def previewAsFeed : FeedOrderingItem :=
  feedItem oldestPreviewed
    { id := 1, creatorId := 7, processingStatus := .ready, feedScore := 1, createdAt := 1 }

def previewOnRail : FeedOrderingItem := { previewAsFeed with
  «section» := .preview
  creatorMeta := resolveCreatorMeta oldestPreviewed 7 }

theorem lock_shown_on_rail : LockAgrees previewedInstant 5 .user previewOnRail := by
  have hpage : previewOnRail ∈ feedPage previewedInstant 5 .user (.popular 1 none) := by
    decide +kernel
  exact (lock_shown_iff rfl hpage).2 (by decide +kernel)

theorem lock_shown_not_enforced :
    previewAsFeed ∈ feedPage previewedInstant 5 .user (.popular 1 (some (placeText (toLex (2, 2))))) ∧
      ¬LockAgrees previewedInstant 5 .user previewAsFeed := by
  refine ⟨by decide +kernel, ?_⟩
  rintro ⟨dto, hdto, hiff⟩
  have hlocked : (presentItem previewedInstant 5 .user previewAsFeed).map (·.locked) = some true := by
    decide +kernel
  rw [hdto] at hlocked
  have hlocked : dto.locked = true := Option.some.inj hlocked
  have hallowed : assertMomentEngagementAccess previewedInstant 5 previewAsFeed.moment = true := by
    decide +kernel
  simp [hiff.2 hallowed] at hlocked

end VibemeetBackend.Moments
