import VibemeetBackend.Mongo.Unique
import VibemeetBackend.Moments.Cursor

/-!
# Moments, their creators and the free previews

The collections that the feeds read, `free-preview.service.ts` and
`creator-meta.service.ts`.  The list of active previews is kept in Redis as ids with the
creator's data, and is filled up with the moments at each read.
-/

namespace VibemeetBackend.Moments

open Mongo

/-! ### Collections -/

inductive ProcessingStatus
  | uploading | processing | ready | failed
  deriving DecidableEq

inductive ContentModerationStatus
  | pending | approved | rejected | flagged | underReview | ageRestricted
  deriving DecidableEq

structure CreatorMoment where
  id : ObjectId
  creatorId : ObjectId
  isDeleted : Bool := false
  processingStatus : ProcessingStatus := .uploading
  moderationStatus : ContentModerationStatus := .approved
  feedScore : ℤ
  createdAt : ℤ
  deriving DecidableEq

/-- A row of the preview list; `momentId` has a unique index. -/
structure FreePreviewMoment where
  momentId : ObjectId
  order : ℤ
  enabled : Bool := true
  startsAt : Option ℤ := none
  endsAt : Option ℤ := none

/-- `avatarUrl` is the small url of the creator's image. -/
structure Creator where
  name : Option Text
  avatarUrl : Option Text
  userId : Option ObjectId

/-- `avatarUrl` is the small url of the user's image. -/
structure User where
  avatarUrl : Option Text
  username : Option Text
  displayName : Option Text
  email : Option Text
  phone : Option Text

/-- `follows` are the pairs of a follower and a creator. -/
structure Store where
  moments : Unique CreatorMoment.id
  previews : Unique FreePreviewMoment.momentId
  creators : ObjectId → Option Creator
  users : ObjectId → Option User
  follows : List (ObjectId × ObjectId)

/-- `publicMomentQuery`, `publicMomentFilter`. -/
def CreatorMoment.isPublic (m : CreatorMoment) : Bool :=
  !m.isDeleted && m.processingStatus == .ready && m.moderationStatus == .approved

def Store.visible (s : Store) : List CreatorMoment := s.moments.rows.filter (·.isPublic)

/-! ### Creators -/

structure PreviewCreatorMeta where
  id : ObjectId
  name : Text
  avatarUrl : Option Text
  verified : Bool
  deriving DecidableEq

def genericName : Text := ['C', 'r', 'e', 'a', 't', 'o', 'r']

def isGenericCreatorName (name : Option Text) : Bool :=
  let trimmed := trim (name.getD [])
  trimmed = [] ∨ trimmed.map Char.toLower = genericName.map Char.toLower

def trimmed (text : Option Text) : Option Text := (text.map trim).filter (· ≠ [])

def displayNameFromUser (user : Option User) : Option Text :=
  user.bind fun u =>
    trimmed u.username <|> trimmed u.displayName <|>
      trimmed (u.email.map fun email => email.takeWhile (· ≠ '@')) <|> trimmed u.phone

def resolveCreatorMeta (s : Store) (creatorId : ObjectId) : PreviewCreatorMeta :=
  match s.creators creatorId with
  | none => ⟨creatorId, genericName, none, false⟩
  | some creator => ⟨creatorId, creator.name.getD [], creator.avatarUrl, false⟩

def resolveCreatorMetaForMoment (s : Store) (creatorId : ObjectId) : PreviewCreatorMeta :=
  match s.creators creatorId with
  | none => ⟨creatorId, genericName, none, false⟩
  | some creator =>
    let name := trim (creator.name.getD [])
    let name :=
      match creator.userId with
      | some userId =>
        if isGenericCreatorName (some name) then
          (displayNameFromUser (s.users userId)).getD genericName
        else name
      | none => name
    ⟨creatorId, if name = [] then genericName else name, creator.avatarUrl, false⟩

/-! ### Previews -/

structure PreviewMoment where
  moment : CreatorMoment
  creator : PreviewCreatorMeta

structure PreviewCacheEntry where
  momentId : ObjectId
  creator : PreviewCreatorMeta

def isPreviewRowVisible (row : FreePreviewMoment) (now : ℤ) : Bool :=
  row.enabled && row.startsAt.all (· ≤ now) && row.endsAt.all (now ≤ ·)

/-- `CreatorMoment.findOne` of a public moment. -/
def Store.publicMoment (s : Store) (id : ObjectId) : Option CreatorMoment :=
  (s.moments.get id).filter (·.isPublic)

/-- The rows by `order`; rows of one order stay as they are stored. -/
def Store.previewRows (s : Store) : List FreePreviewMoment :=
  s.previews.rows.insertionSort fun a b => a.order ≤ b.order

def loadPreviewMomentsFromDb (s : Store) (visibleOnly : Bool) (now : ℤ) : List PreviewMoment :=
  (s.previewRows.filter fun row => !visibleOnly || isPreviewRowVisible row now).filterMap fun row =>
    (s.publicMoment row.momentId).map fun m => ⟨m, resolveCreatorMeta s m.creatorId⟩

/-- The ids are looked up together, and the entries keep their order. -/
def hydratePreviewMomentsFromCache (s : Store) (entries : List PreviewCacheEntry) :
    List PreviewMoment :=
  entries.filterMap fun entry =>
    (s.publicMoment entry.momentId).map fun m => ⟨m, entry.creator⟩

def toPreviewCacheEntries (items : List PreviewMoment) : List PreviewCacheEntry :=
  items.map fun item => ⟨item.moment.id, item.creator⟩

/-- What Redis has under the preview key while the collections and the active previews do not
change: nothing, or what an earlier request has put there. -/
structure PreviewCache (s : Store) (now : ℤ) where
  entries : Option (List PreviewCacheEntry)
  written : ∀ e, entries = some e → e = toPreviewCacheEntries (loadPreviewMomentsFromDb s true now)

def coldCache (s : Store) (now : ℤ) : PreviewCache s now := ⟨none, fun _ h => absurd h (by simp)⟩

def getActivePreviewMoments (s : Store) (now : ℤ) (cache : PreviewCache s now) :
    List PreviewMoment :=
  match cache.entries with
  | some entries => hydratePreviewMomentsFromCache s entries
  | none => loadPreviewMomentsFromDb s true now

variable {m : CreatorMoment} {s : Store}

theorem publicMoment_spec {id : ObjectId} (h : s.publicMoment id = some m) :
    m ∈ s.visible ∧ m.id = id := by
  obtain ⟨hget, hpublic⟩ := Option.filter_eq_some_iff.1 h
  have ⟨hmem, hid⟩ := Unique.mem_of_get hget
  exact ⟨List.mem_filter.2 ⟨hmem, hpublic⟩, hid⟩

theorem publicMoment_of_visible (h : m ∈ s.visible) : s.publicMoment m.id = some m := by
  obtain ⟨hmem, hpublic⟩ := List.mem_filter.1 h
  rw [Store.publicMoment, Unique.get_of_mem hmem]
  exact Option.filter_some_pos hpublic

/-! ### Feeds -/

inductive FeedSection
  | preview | feed
  deriving DecidableEq

structure FeedOrderingItem where
  moment : CreatorMoment
  «section» : FeedSection
  creatorMeta : PreviewCreatorMeta
  deriving DecidableEq

/-- `previewEndIndex` is the field of `sections`. -/
structure FeedOrderingResult where
  moments : List FeedOrderingItem
  previewEndIndex : ℕ
  nextCursor : Option Text := none
  hasMore : Option Bool := none
  nextOffset : Option ℕ := none

def previewItem (p : PreviewMoment) : FeedOrderingItem := ⟨p.moment, .preview, p.creator⟩

def feedItem (s : Store) (m : CreatorMoment) : FeedOrderingItem :=
  ⟨m, .feed, resolveCreatorMetaForMoment s m.creatorId⟩

def FeedOrderingResult.listed (r : FeedOrderingResult) : List CreatorMoment :=
  r.moments.map (·.moment)

theorem map_feedItem (s : Store) (ms : List CreatorMoment) :
    (ms.map (feedItem s)).map (·.moment) = ms := by
  rw [List.map_map]
  exact List.map_id ms

/-! ### The active previews -/

theorem mem_loadPreviewMomentsFromDb {visibleOnly : Bool} {now : ℤ} {p : PreviewMoment}
    (h : p ∈ loadPreviewMomentsFromDb s visibleOnly now) :
    s.publicMoment p.moment.id = some p.moment := by
  obtain ⟨row, -, hp⟩ := List.mem_filterMap.1 h
  obtain ⟨m, hm, rfl⟩ := Option.map_eq_some_iff.1 hp
  show s.publicMoment m.id = some m
  rw [(publicMoment_spec hm).2]
  exact hm

theorem filterMap_keys_sublist {α β κ : Type} (f : α → Option β) (key : α → κ) (key' : β → κ)
    (h : ∀ a b, f a = some b → key' b = key a) (l : List α) :
    List.Sublist ((l.filterMap f).map key') (l.map key) := by
  induction l with
  | nil => exact List.Sublist.refl []
  | cons a l ih =>
    grind

theorem loadPreviewMomentsFromDb_nodup (s : Store) (visibleOnly : Bool) (now : ℤ) :
    ((loadPreviewMomentsFromDb s visibleOnly now).map fun p => p.moment.id).Nodup := by
  have hrows : (s.previewRows.map FreePreviewMoment.momentId).Nodup :=
    (((List.perm_insertionSort _ s.previews.rows).map _).nodup_iff).2 s.previews.nodup
  apply List.Nodup.sublist _ hrows
  have hsub := filterMap_keys_sublist
    (fun row => (s.publicMoment row.momentId).map fun m =>
      (⟨m, resolveCreatorMeta s m.creatorId⟩ : PreviewMoment))
    FreePreviewMoment.momentId (fun p : PreviewMoment => p.moment.id)
    (by
      intro row p hp
      obtain ⟨m, hm, rfl⟩ := Option.map_eq_some_iff.1 hp
      exact (publicMoment_spec hm).2)
    (s.previewRows.filter fun row => !visibleOnly || isPreviewRowVisible row now)
  exact hsub.trans (List.filter_sublist.map _)

theorem hydrate_toPreviewCacheEntries {items : List PreviewMoment}
    (h : ∀ p ∈ items, s.publicMoment p.moment.id = some p.moment) :
    hydratePreviewMomentsFromCache s (toPreviewCacheEntries items) = items := by
  rw [hydratePreviewMomentsFromCache, toPreviewCacheEntries, List.filterMap_map]
  have hself : items.filterMap some = items := List.filterMap_some
  conv_rhs => rw [← hself]
  apply List.filterMap_congr
  intro p hp
  show (s.publicMoment p.moment.id).map (fun m => (⟨m, p.creator⟩ : PreviewMoment)) = some p
  rw [h p hp]
  rfl

theorem getActivePreviewMoments_eq (s : Store) (now : ℤ) (cache : PreviewCache s now) :
    getActivePreviewMoments s now cache = loadPreviewMomentsFromDb s true now := by
  rw [getActivePreviewMoments]
  cases hentries : cache.entries with
  | none => rfl
  | some entries =>
    show hydratePreviewMomentsFromCache s entries = _
    rw [cache.written entries hentries]
    exact hydrate_toPreviewCacheEntries fun p => mem_loadPreviewMomentsFromDb

theorem Store.visible_ids_nodup (s : Store) : (s.visible.map CreatorMoment.id).Nodup :=
  s.moments.nodup.sublist (List.filter_sublist.map _)

theorem Store.visible_nodup (s : Store) : s.visible.Nodup := s.visible_ids_nodup.of_map

theorem Store.visible_inj {m' : CreatorMoment} (h : m ∈ s.visible) (h' : m' ∈ s.visible)
    (hid : m.id = m'.id) : m = m' :=
  List.inj_on_of_nodup_map s.visible_ids_nodup h h' hid

theorem contains_ids (s : Store) {previews : List PreviewMoment}
    (h : ∀ p ∈ previews, p.moment ∈ s.visible) (hm : m ∈ s.visible) :
    (previews.map fun p => p.moment.id).contains m.id =
      (previews.map (·.moment)).contains m := by
  rw [Bool.eq_iff_iff, List.contains_iff_mem, List.contains_iff_mem, List.mem_map, List.mem_map]
  constructor
  · rintro ⟨p, hp, hid⟩
    exact ⟨p, hp, Store.visible_inj (h p hp) hm hid⟩
  · rintro ⟨p, hp, rfl⟩
    exact ⟨p, hp, rfl⟩

end VibemeetBackend.Moments
