import Mathlib.Data.List.DropRight
import VibemeetBackend.Referral.Apply

/-!
# Reordering the gallery of a creator

`reorderGalleryImages` of `creator.controller.ts` and `serializeCreatorGallery` of
`creator-image-helpers.ts`, for any image asset and any view of it.  A save casts each item by the
schema of `creator.model.ts`; errors of the database are left out.
-/

namespace VibemeetBackend.Gallery

open Billing (isTrimmed)
open Moments (Text trim)
open Referral (UserRole)

/-! ### Texts -/

theorem trim_trim (text : Text) : trim (trim text) = trim text := by
  have htrim : ∀ text : Text, trim text = (text.dropWhile isTrimmed).rdropWhile isTrimmed :=
    fun _ => rfl
  rw [htrim (trim text), htrim text]
  have hfront : ((text.dropWhile isTrimmed).rdropWhile isTrimmed).dropWhile isTrimmed =
      (text.dropWhile isTrimmed).rdropWhile isTrimmed := by
    rw [List.dropWhile_eq_self_iff]
    intro hl
    have hpre := List.rdropWhile_prefix isTrimmed (l := text.dropWhile isTrimmed)
    have hlong : 0 < (text.dropWhile isTrimmed).length := hl.trans_le hpre.length_le
    have hhead := List.dropWhile_get_zero_not isTrimmed text hlong
    have hsame := hpre.getElem hl
    simpa [hsame] using hhead
  rw [hfront, List.rdropWhile_idempotent]

/-! ### Documents -/

structure GalleryItem (Asset : Type) where
  id : Text
  asset : Option Asset
  position : ℤ
  createdAt : ℤ

structure SerializedGalleryItem (View : Type) where
  id : Text
  position : ℕ
  createdAt : ℤ
  image : Option View

def CREATOR_GALLERY_MAX_IMAGES : ℕ := 6

variable {Asset View : Type} (serializeImageAsset : Option Asset → Option View)

def sortGallery (items : List (GalleryItem Asset)) : List (GalleryItem Asset) :=
  items.insertionSort fun a b =>
    a.position < b.position ∨ a.position = b.position ∧ a.createdAt ≤ b.createdAt

def serializeCreatorGallery (items : List (GalleryItem Asset)) :
    List (SerializedGalleryItem View) :=
  (sortGallery items).mapIdx fun idx item =>
    ⟨item.id, idx, item.createdAt, serializeImageAsset item.asset⟩

/-- `imageMap.get`: of views with one id the last one is found. -/
def imageMap (views : List (SerializedGalleryItem View)) (id : Text) :
    Option (SerializedGalleryItem View) :=
  views.reverse.find? fun view => view.id == id

/-- What the schema makes of a view: ids are trimmed, `image` is no field, and `asset` is absent. -/
def castItem (view : SerializedGalleryItem View) : GalleryItem Asset :=
  ⟨trim view.id, none, view.position, view.createdAt⟩

/-- The new array, from an index on; the ids are known to be there. -/
def rebuild (views : List (SerializedGalleryItem View)) : ℕ → List Text → List (GalleryItem Asset)
  | _, [] => []
  | index, id :: ids =>
    match imageMap views (trim id) with
    | some view => castItem { view with position := index } :: rebuild views (index + 1) ids
    | none => rebuild views (index + 1) ids

/-! ### Requests -/

structure Session (Asset : Type) where
  authenticated : Bool
  user : Option UserRole
  creator : Option (List (GalleryItem Asset))

/-- `none` is not an array, or not a string. -/
abbrev Payload : Type := Option (List (Option Text))

structure Refusal where
  status : ℕ
  error : String

def isSuperAdminRole (role : UserRole) : Bool := role == .admin || role == .superAdmin

def authorize (session : Session Asset) : Except Refusal (List (GalleryItem Asset)) :=
  if !session.authenticated then .error ⟨401, "Unauthorized"⟩
  else
    match session.user with
    | none => .error ⟨404, "User not found"⟩
    | some role =>
      if role ≠ .creator ∧ isSuperAdminRole role = false then
        .error ⟨403, "Forbidden: Only creators can reorder gallery images"⟩
      else
        match session.creator with
        | none => .error ⟨404, "Creator profile not found"⟩
        | some gallery => .ok gallery

def payloadIds (imageIds : Payload) : Option (List Text) :=
  imageIds.bind fun ids => ids.mapM fun id => id.filter fun text => trim text ≠ []

def checkPayload (views : List (SerializedGalleryItem View)) (imageIds : Payload) :
    Except Refusal (List Text) :=
  match payloadIds imageIds with
  | none => .error ⟨400, "imageIds must be a non-empty array of strings"⟩
  | some ids =>
    if ids.length ≠ views.length then
      .error ⟨400, "imageIds length mismatch with existing gallery images"⟩
    else
      match ids.find? fun id => !(views.map (·.id)).contains (trim id) with
      | some id => .error ⟨422, "Unknown imageId in reorder payload: " ++ String.ofList id⟩
      | none => .ok ids

/-- `creator.save()`, of the new array. -/
def saveGallery (items : List (GalleryItem Asset)) : Except Refusal (List (GalleryItem Asset)) :=
  if CREATOR_GALLERY_MAX_IMAGES < items.length then .error ⟨500, "Internal server error"⟩
  else .ok items

def reorderedGallery (session : Session Asset) (imageIds : Payload) :
    Except Refusal (List (GalleryItem Asset)) := do
  let gallery ← authorize session
  let existingImages := serializeCreatorGallery serializeImageAsset gallery
  let ids ← checkPayload existingImages imageIds
  saveGallery (rebuild existingImages 0 ids)

def reorderGalleryImages (session : Session Asset) (imageIds : Payload) :
    Except Refusal (List (SerializedGalleryItem View)) × Option (List (GalleryItem Asset)) :=
  match reorderedGallery serializeImageAsset session imageIds with
  | .error refusal => (.error refusal, session.creator)
  | .ok items => (.ok (serializeCreatorGallery serializeImageAsset items), some items)

variable {views : List (SerializedGalleryItem View)}

/-! ### The rebuilt items -/

section rebuilt

variable {serializeImageAsset} {gallery : List (GalleryItem Asset)} {ids : List Text}

theorem mem_serialize {view : SerializedGalleryItem View}
    (h : view ∈ serializeCreatorGallery serializeImageAsset gallery) :
    ∃ item ∈ gallery, view.id = item.id ∧ view.createdAt = item.createdAt := by
  obtain ⟨idx, hidx, rfl⟩ := List.mem_mapIdx.1 h
  exact ⟨_, (List.perm_insertionSort _ gallery).mem_iff.1 (List.getElem_mem hidx), rfl, rfl⟩

theorem serialize_length :
    (serializeCreatorGallery serializeImageAsset gallery).length = gallery.length := by
  unfold serializeCreatorGallery sortGallery
  rw [List.length_mapIdx, List.length_insertionSort]

theorem imageMap_spec {id : Text} (h : id ∈ views.map (·.id)) :
    ∃ view ∈ views, imageMap views id = some view ∧ view.id = id := by
  unfold imageMap
  cases hfind : views.reverse.find? fun view => view.id == id with
  | none =>
    obtain ⟨view, hview, rfl⟩ := List.mem_map.1 h
    have hnone := List.find?_eq_none.1 hfind view (List.mem_reverse.2 hview)
    simp at hnone
  | some view =>
    have hid := List.find?_some hfind
    have hmem := List.mem_of_find?_eq_some hfind
    exact ⟨view, List.mem_reverse.1 hmem, rfl, by simpa using hid⟩

variable (Asset) in
/-- **The rebuilt items**: the ids of the payload at their places, without assets, and with the
times of stored items. -/
theorem rebuild_spec (h : ∀ id ∈ ids, trim id ∈ views.map (·.id)) (index : ℕ) :
    (rebuild views index ids : List (GalleryItem Asset)).map (·.id) = ids.map trim ∧
      (rebuild views index ids : List (GalleryItem Asset)).map (·.position) =
        (List.range' index ids.length).map Nat.cast ∧
      ∀ item ∈ (rebuild views index ids : List (GalleryItem Asset)), item.asset = none ∧
        ∃ view ∈ views, item.id = view.id ∧ item.createdAt = view.createdAt := by
  induction ids generalizing index with
  | nil => exact ⟨rfl, rfl, fun item hitem => nomatch hitem⟩
  | cons id ids ih =>
    obtain ⟨view, hview, hmap, hid⟩ := imageMap_spec (h id List.mem_cons_self)
    obtain ⟨hids, hpositions, hitems⟩ := ih (fun id hmem => h id (List.mem_cons_of_mem _ hmem))
      (index + 1)
    unfold rebuild
    rw [hmap]
    have htrimmed : trim view.id = view.id := by
      rw [hid]
      exact trim_trim id
    refine ⟨?_, ?_, ?_⟩
    · rw [List.map_cons, List.map_cons, hids]
      show trim view.id :: _ = _
      rw [htrimmed, hid]
    · rw [List.map_cons, hpositions, List.length_cons, List.range'_succ, List.map_cons]
      rfl
    · intro item hitem
      obtain rfl | hitem := List.mem_cons.1 hitem
      · exact ⟨rfl, view, hview, htrimmed, rfl⟩
      · exact hitems item hitem

end rebuilt

/-! ### What a reordering is -/

/-- What a reordering may not touch: the id, the asset with its moderation, and the time. -/
def GalleryItem.content (item : GalleryItem Asset) : Text × Option Asset × ℤ :=
  (item.id, item.asset, item.createdAt)

structure Reordered (gallery : List (GalleryItem Asset)) (ids : List Text)
    (items : List (GalleryItem Asset)) : Prop where
  perm : (items.map (·.content)).Perm (gallery.map (·.content))
  once : (items.map (·.id)).Nodup
  order : items.map (·.id) = ids.map trim
  positions : items.map (·.position) = (List.range items.length).map Nat.cast

section reordered

variable {serializeImageAsset} {gallery : List (GalleryItem Asset)} {ids : List Text}

theorem serialize_ids :
    ((serializeCreatorGallery serializeImageAsset gallery).map (·.id)).Perm
      (gallery.map (·.id)) := by
  have hsorted : (serializeCreatorGallery serializeImageAsset gallery).map (·.id) =
      (sortGallery gallery).map (·.id) := by
    apply List.ext_getElem?
    intro place
    unfold serializeCreatorGallery
    rw [List.getElem?_map, List.getElem?_mapIdx, List.getElem?_map, Option.map_map]
    rfl
  rw [hsorted]
  exact (List.perm_insertionSort _ gallery).map _

/-- **When the rebuilt items are a reordering**: of ids that are there, none is repeated, and no
stored item has an asset. -/
theorem reordered_iff (hlength : ids.length = gallery.length)
    (hknown : ∀ id ∈ ids, trim id ∈ gallery.map (·.id)) :
    Reordered gallery ids
        (rebuild (serializeCreatorGallery serializeImageAsset gallery) 0 ids) ↔
      (ids.map trim).Nodup ∧ ∀ item ∈ gallery, item.asset = none := by
  have hviews : ∀ id ∈ ids,
      trim id ∈ (serializeCreatorGallery serializeImageAsset gallery).map (·.id) :=
    fun id hid => serialize_ids.mem_iff.2 (hknown id hid)
  obtain ⟨hids, hpositions, hitems⟩ := rebuild_spec Asset hviews 0
  generalize hitems' : (rebuild _ 0 ids : List (GalleryItem Asset)) = items at hids hpositions hitems ⊢
  have hcount : items.length = ids.length := by
    have hmapped := congrArg List.length hids
    rwa [List.length_map, List.length_map] at hmapped
  constructor
  · intro h
    constructor
    · rw [← h.order]
      exact h.once
    · intro item hitem
      have hmem : item.content ∈ items.map (·.content) :=
        h.perm.mem_iff.2 (List.mem_map_of_mem hitem)
      obtain ⟨other, hother, hcontent⟩ := List.mem_map.1 hmem
      have hasset : other.asset = item.asset := congrArg (·.2.1) hcontent
      rw [← hasset]
      exact (hitems other hother).1
  · rintro ⟨hnodup, hassets⟩
    have honce : (items.map (·.id)).Nodup := by
      rw [hids]
      exact hnodup
    have hcontents : (items.map (·.content)).Nodup := by
      apply List.Nodup.of_map (·.1)
      rw [List.map_map]
      exact honce
    have hsubset : items.map (·.content) ⊆ gallery.map (·.content) := by
      intro content hcontent
      obtain ⟨item, hitem, rfl⟩ := List.mem_map.1 hcontent
      obtain ⟨hasset, view, hview, hid, htime⟩ := hitems item hitem
      obtain ⟨stored, hstored, hviewId, hviewTime⟩ := mem_serialize hview
      apply List.mem_map.2
      use stored, hstored
      show (stored.id, stored.asset, stored.createdAt) = (item.id, item.asset, item.createdAt)
      rw [hassets stored hstored, hasset, hid, htime, hviewId, hviewTime]
    have hlong : (gallery.map (·.content)).length ≤ (items.map (·.content)).length := by
      rw [List.length_map, List.length_map]
      omega
    have hrange : items.map (·.position) = (List.range items.length).map Nat.cast := by
      rw [hpositions, hcount, List.range_eq_range']
    exact ⟨(hcontents.subperm hsubset).perm_of_length_le hlong, honce, hids, hrange⟩

end reordered

/-! ### Requests that only reorder -/

/-- An accepted request reorders the stored items; a refused one leaves them as they are. -/
def ReorderKept (session : Session Asset) (imageIds : Payload) : Prop :=
  match reorderGalleryImages serializeImageAsset session imageIds with
  | (.ok _, stored) =>
    ∃ gallery ids items, session.creator = some gallery ∧ payloadIds imageIds = some ids ∧
      stored = some items ∧ Reordered gallery ids items
  | (.error _, stored) => stored = session.creator

section requests

variable {serializeImageAsset} {session : Session Asset} {imageIds : Payload}
  {gallery : List (GalleryItem Asset)} {ids : List Text}

theorem creator_of_authorize (h : authorize session = .ok gallery) :
    session.creator = some gallery := by
  unfold authorize at h
  split at h
  · nomatch h
  · split at h
    · nomatch h
    · split at h
      · nomatch h
      · split at h
        · nomatch h
        · rename_i hcreator
          rw [hcreator, Except.ok.inj h]

/-- **The checks of a payload**: as many ids as items, each of an item. -/
theorem checkPayload_spec (h : checkPayload views imageIds = .ok ids) :
    payloadIds imageIds = some ids ∧ ids.length = views.length ∧
      ∀ id ∈ ids, trim id ∈ views.map (·.id) := by
  unfold checkPayload at h
  split at h
  · nomatch h
  · rename_i found hfound
    split at h
    · nomatch h
    · rename_i hlength
      split at h
      · nomatch h
      · rename_i hnone
        cases h
        have hknown := List.find?_eq_none.1 hnone
        exact ⟨hfound, not_not.1 hlength, fun id hid => by simpa using hknown id hid⟩

theorem reorderedGallery_eq_ok {items : List (GalleryItem Asset)} :
    reorderedGallery serializeImageAsset session imageIds = .ok items ↔
      ∃ gallery ids, authorize session = .ok gallery ∧
        checkPayload (serializeCreatorGallery serializeImageAsset gallery) imageIds = .ok ids ∧
        gallery.length ≤ CREATOR_GALLERY_MAX_IMAGES ∧
        rebuild (serializeCreatorGallery serializeImageAsset gallery) 0 ids = items := by
  unfold reorderedGallery
  cases hauth : authorize session with
  | error refusal =>
    constructor
    · intro h
      nomatch h
    · rintro ⟨gallery, ids, hgallery, _⟩
      nomatch hgallery
  | ok gallery =>
    cases hcheck : checkPayload (serializeCreatorGallery serializeImageAsset gallery) imageIds with
    | error refusal =>
      simp [bind, Except.bind, hcheck]
    | ok ids =>
      obtain ⟨_, hlength, hknown⟩ := checkPayload_spec hcheck
      obtain ⟨hids, _⟩ := rebuild_spec Asset hknown 0
      have hcount := congrArg List.length hids
      rw [List.length_map, List.length_map, hlength, serialize_length] at hcount
      simp only [bind, Except.bind, hcheck, saveGallery, hcount, Except.ok.injEq]
      constructor
      · intro h
        split at h
        · nomatch h
        · rename_i hshort
          exact ⟨gallery, ids, rfl, hcheck, not_lt.1 hshort, Except.ok.inj h⟩
      simp_all

/-- **Which requests only reorder**: those that are refused, and those that name every item once of
a gallery without assets. -/
theorem reorder_kept_iff (serializeImageAsset : Option Asset → Option View)
    (session : Session Asset) (imageIds : Payload) :
    ReorderKept serializeImageAsset session imageIds ↔
      ∀ gallery ids, authorize session = .ok gallery →
        checkPayload (serializeCreatorGallery serializeImageAsset gallery) imageIds = .ok ids →
        gallery.length ≤ CREATOR_GALLERY_MAX_IMAGES →
        (ids.map trim).Nodup ∧ ∀ item ∈ gallery, item.asset = none := by
  unfold ReorderKept reorderGalleryImages
  cases hresult : reorderedGallery serializeImageAsset session imageIds with
  | error refusal =>
    apply iff_of_true rfl
    intro gallery ids hgallery hids hshort
    have hok := reorderedGallery_eq_ok.2 ⟨gallery, ids, hgallery, hids, hshort, rfl⟩
    rw [hresult] at hok
    nomatch hok
  | ok items =>
    obtain ⟨gallery, ids, hgallery, hcheck, hshort, rfl⟩ := reorderedGallery_eq_ok.1 hresult
    obtain ⟨hpayload, hlength, hknown⟩ := checkPayload_spec hcheck
    rw [serialize_length] at hlength
    have hiff : Reordered gallery ids
        (rebuild (serializeCreatorGallery serializeImageAsset gallery) 0 ids) ↔ _ :=
      reordered_iff hlength fun id hid => serialize_ids.mem_iff.1 (hknown id hid)
    constructor
    · rintro ⟨gallery', ids', items, hcreator, hpayload', hitems, hreordered⟩
      cases hitems
      rw [creator_of_authorize hgallery] at hcreator
      cases hcreator
      rw [hpayload] at hpayload'
      cases hpayload'
      intro other ids' hother hids' _
      obtain rfl := Except.ok.inj (hgallery.symm.trans hother)
      obtain rfl := Except.ok.inj (hcheck.symm.trans hids')
      exact hiff.1 hreordered
    · intro h
      exact ⟨gallery, ids, _, creator_of_authorize hgallery, hpayload, rfl,
        hiff.2 (h gallery ids hgallery hcheck hshort)⟩

/-- Two items with assets, in their own order: both assets are lost. -/
theorem reorder_not_kept :
    ¬ ReorderKept (fun asset : Option ℕ => asset)
      ⟨true, some .creator, some [⟨['a'], some 1, 0, 0⟩, ⟨['b'], some 2, 1, 0⟩]⟩
      (some [some ['a'], some ['b']]) := by
  have hstored : reorderGalleryImages (fun asset : Option ℕ => asset)
      ⟨true, some .creator, some [⟨['a'], some 1, 0, 0⟩, ⟨['b'], some 2, 1, 0⟩]⟩
      (some [some ['a'], some ['b']]) =
        (.ok [⟨['a'], 0, 0, none⟩, ⟨['b'], 1, 0, none⟩],
          some [⟨['a'], none, 0, 0⟩, ⟨['b'], none, 1, 0⟩]) := by
    rfl
  unfold ReorderKept
  rw [hstored]
  rintro ⟨gallery, ids, items, hgallery, _, hitems, hreordered⟩
  cases hgallery
  cases hitems
  have hmem := hreordered.perm.mem_iff.2 (List.mem_cons_self)
  simp [GalleryItem.content] at hmem

end requests

end VibemeetBackend.Gallery
