import VibemeetBackend.Async.Given
import VibemeetBackend.Images.UploadSession
import VibemeetBackend.VideoUpload.StreamSession

/-!
# The upload of a moment

`createMomentHandler` of `moments.controller.ts` and `commitImageAsset` of `commit-image-asset.ts`,
with the image and video sessions that they consume.

`Outcomes` has one outcome for each step of a request; no step is made twice.  The texts of the
video sessions are lists of characters.  Left out are the record of the quota and the job of the
blurhash, whose failures are caught where they happen, the notifications, logs and counters, and
what the answer shows of a moment that has been created.
-/

namespace VibemeetBackend.MomentUpload

open Async
open Images (UploadPurpose UploadSession UploadFlow consumeSession)
open Moments (ContentModerationStatus ProcessingStatus Text trimmed)
open VideoUpload (StreamFlow StreamUploadSession consumeStreamUploadSession)

/-! ### Rows -/

inductive MomentType where
  | photo
  | video

inductive ImageModerationStatus where
  | pending
  | autoOk

/-- What `makeImageAssetDoc` gives; there is no blurhash yet. -/
structure ImageAsset where
  imageId : String
  uploadedBy : String
  width : Option ℕ
  height : Option ℕ
  mimeType : String
  moderationStatus : ImageModerationStatus
  createdAt : ℤ

structure CreatorMoment where
  id : ℕ
  creatorId : String
  type : MomentType
  feedScore : ℤ
  caption : Option Text
  processingStatus : ProcessingStatus
  moderationStatus : ContentModerationStatus
  imageAsset : Option ImageAsset
  streamVideoId : Option Text
  durationSeconds : Option ℚ
  thumbnailAsset : Option ImageAsset

structure Moments where
  rows : List CreatorMoment
  next : ℕ
  fresh : ∀ row ∈ rows, row.id < next

namespace Moments

def create (ms : Moments) (moment : ℕ → CreatorMoment) (hid : ∀ id, (moment id).id = id) :
    Moments where
  rows := ms.rows ++ [moment ms.next]
  next := ms.next + 1
  fresh row hrow := by
    rcases List.mem_append.1 hrow with hrow | hrow
    · exact (ms.fresh row hrow).trans (Nat.lt_succ_self _)
    · rw [List.mem_singleton.1 hrow, hid]
      exact Nat.lt_succ_self _

/-- `moment.save()`. -/
def save (ms : Moments) (moment : CreatorMoment) : Moments where
  rows := ms.rows.map fun row => if row.id = moment.id then moment else row
  next := ms.next
  fresh row hrow := by
    obtain ⟨old, hold, rfl⟩ := List.mem_map.1 hrow
    split
    · rename_i hid
      rw [← hid]
      exact ms.fresh old hold
    · exact ms.fresh old hold

def deleteOne (ms : Moments) (id : ℕ) : Moments where
  rows := ms.rows.filter fun row => row.id ≠ id
  next := ms.next
  fresh row hrow := ms.fresh row (List.mem_of_mem_filter hrow)

end Moments

structure Store where
  moments : Moments
  images : Images.UploadStore
  streams : VideoUpload.Store
  deletedImages : List String

/-! ### Outcomes -/

inductive Failure where
  | momentsDisabled
  /-- `CommitImageAssetError`. -/
  | commitImageAsset (code message : String) (status : ℕ)
  /-- `CloudflareImagesError`. -/
  | cloudflareImages (status : ℕ)
  | other

inductive SniffFailure where
  /-- `UnsupportedMimeTypeError`. -/
  | unsupported (detectedMime : Option String)
  | failed (e : Failure)

structure ImageMetadata where
  width : Option ℕ
  height : Option ℕ

inductive Written where
  | done
  /-- It has been carried out, and an error is thrown. -/
  | unanswered
  | lost

def Written.carriedOut : Written → Bool
  | .done | .unanswered => true
  | .lost => false

structure Outcomes where
  momentsEnabled : Bool
  /-- `Date.now()`. -/
  now : ℤ
  user : Except Failure (Option String)
  /-- When the upload is over the limit: after how many seconds to try again. -/
  retryAfterSec : Except Failure (Option ℕ)
  creator : Except Failure (Option String)
  /-- `defaultModerationStatus()`. -/
  moderationStatus : ContentModerationStatus
  imageModerationPendingByDefault : Bool
  create : Written
  image : Images.UploadCmd → Images.Reply
  metadata : String → Except Failure ImageMetadata
  sniff : String → Except SniffFailure String
  deleteImage : Written
  stream : VideoUpload.Cmd → VideoUpload.Reply
  deleteOne : Written
  save : Written
  bustCaches : Except Failure Unit
  /-- `resolveCreatorMetaForMoment` and `toCreatorSelfMomentDTO`. -/
  present : Except Failure Unit

/-! ### Handlers -/

abbrev Handler (α : Type) : Type := ExceptT Failure (StateM Store) α

def onStore {α : Type} (h : Handler α) (s : Store) : Except Failure α × Store := h.run s

def step {α : Type} (outcome : Except Failure α) : Handler α := ExceptT.mk (pure outcome)

def write (w : Written) (f : Store → Store) : Handler Unit := ExceptT.mk fun s =>
  match w with
  | .done => (.ok (), f s)
  | .unanswered => (.error .other, f s)
  | .lost => (.error .other, s)

def thrown {α : Type} (x : Except String α) : Except Failure α := x.mapError fun _ => .other

def onImages {α : Type} (o : Outcomes) (p : UploadFlow α) : Handler α := ExceptT.mk fun s =>
  let (x, images) := p.given Images.UploadCmd.exec o.image s.images
  (thrown x, { s with images })

def onStreams {α : Type} (o : Outcomes) (p : StreamFlow α) : Handler α := ExceptT.mk fun s =>
  let (x, streams) := p.given VideoUpload.Cmd.exec o.stream s.streams
  (thrown x, { s with streams })

section Operations

variable (o : Outcomes)

/-- `getImageMetadata`, and what `commitImageAsset` makes of its errors. -/
def imageMetadata (imageId : String) : Handler ImageMetadata :=
  match o.metadata imageId with
  | .ok metadata => pure metadata
  | .error (.cloudflareImages status) =>
    if status = 404 then
      throw (.commitImageAsset "UPLOAD_NOT_FOUND"
        "cloudflare reports no bytes for this upload — did the client finish?" 400)
    else throw (.cloudflareImages status)
  | .error e => throw e

/-- `sniffImageMime`, and what `commitImageAsset` makes of its errors. -/
def imageMime (imageId : String) : Handler String :=
  match o.sniff imageId with
  | .ok mime => pure mime
  | .error (.unsupported detectedMime) => do
    tryCatch
      (write o.deleteImage fun s => { s with deletedImages := s.deletedImages ++ [imageId] })
      fun _ => pure ()
    throw (.commitImageAsset "UNSUPPORTED_MIME_TYPE"
      ("unsupported image MIME type: " ++ detectedMime.getD "unknown") 400)
  | .error (.failed e) => throw e

def commitImageAsset (sessionId userId : String) (purpose : UploadPurpose) :
    Handler ImageAsset := do
  match ← onImages o (consumeSession sessionId userId purpose) with
  | none => throw (.commitImageAsset "UPLOAD_SESSION_INVALID"
      "upload session not found, expired, or owned by another user" 400)
  | some session => do
    let metadata ← imageMetadata o session.imageId
    let mimeType ← imageMime o session.imageId
    pure
      { imageId := session.imageId
        uploadedBy := userId
        width := metadata.width
        height := metadata.height
        mimeType
        moderationStatus := if o.imageModerationPendingByDefault then .pending else .autoOk
        createdAt := o.now }

structure CreateMomentBody where
  /-- `none` when it is no type. -/
  type : Option MomentType
  caption : Option Text
  imageSessionId : Option String
  streamSessionId : Option String
  thumbnailSessionId : Option String

def given (text : Option String) : Option String := text.filter (· ≠ "")

inductive Response where
  | error (status : ℕ) (error : String) (code : Option String) (retryAfterSec : Option ℕ)
  | created (momentId : ℕ) (creatorId : String)

def Response.isError : Response → Bool
  | .error .. => true
  | .created .. => false

def newMoment (creatorId : String) (type : MomentType) (caption : Option Text) (id : ℕ) :
    CreatorMoment where
  id := id
  creatorId := creatorId
  type := type
  feedScore := o.now
  caption := trimmed caption
  processingStatus := .uploading
  moderationStatus := o.moderationStatus
  imageAsset := none
  streamVideoId := none
  durationSeconds := none
  thumbnailAsset := none

/-- `CreatorMoment.create`. -/
def createRow (creatorId : String) (type : MomentType) (caption : Option Text) :
    Handler CreatorMoment := do
  let s ← get
  write o.create fun s =>
    { s with moments := s.moments.create (newMoment o creatorId type caption) fun _ => rfl }
  pure (newMoment o creatorId type caption s.moments.next)

def saveRow (moment : CreatorMoment) : Handler Unit :=
  write o.save fun s => { s with moments := s.moments.save moment }

def deleteRow (moment : CreatorMoment) : Handler Unit :=
  write o.deleteOne fun s => { s with moments := s.moments.deleteOne moment.id }

def uploadPhoto (userId imageSessionId : String) (moment : CreatorMoment) : Handler Unit := do
  let asset ← commitImageAsset o imageSessionId userId .momentPhoto
  saveRow o { moment with imageAsset := some asset, processingStatus := .ready }

def commitThumbnail (userId : String) (thumbnailSessionId : Option String) :
    Handler (Option ImageAsset) :=
  match given thumbnailSessionId with
  | none => pure none
  | some sessionId => do
    let asset ← commitImageAsset o sessionId userId .momentThumbnail
    pure (some asset)

def uploadVideo (userId streamSessionId : String) (thumbnailSessionId : Option String)
    (moment : CreatorMoment) : Handler Bool := do
  match ← onStreams o
      (consumeStreamUploadSession streamSessionId.toList userId.toList .moment) with
  | none => do
    deleteRow o moment
    pure false
  | some session => do
    let thumbnailAsset ← commitThumbnail o userId thumbnailSessionId
    saveRow o
      { moment with
        streamVideoId := some session.streamVideoId
        durationSeconds := session.durationSeconds
        thumbnailAsset
        processingStatus := .ready }
    pure true

def finish (moment : CreatorMoment) : Handler Response := do
  step o.bustCaches
  step o.present
  pure (.created moment.id moment.creatorId)

/-- `createMomentHandler`, for a creator. -/
def createMomentFor (body : CreateMomentBody) (userId creatorId : String) (type : MomentType) :
    Handler Response := do
  let moment ← createRow o creatorId type body.caption
  match type, given body.imageSessionId, given body.streamSessionId with
  | .photo, some imageSessionId, _ => do
    uploadPhoto o userId imageSessionId moment
    finish o moment
  | .video, _, some streamSessionId => do
    if ← uploadVideo o userId streamSessionId body.thumbnailSessionId moment then finish o moment
    else pure (.error 400 "Invalid stream session" none none)
  | _, _, _ => do
    deleteRow o moment
    pure (.error 400 "Missing upload session" none none)

/-- The body of `createMomentHandler`. -/
def createMoment (body : CreateMomentBody) : Handler Response := do
  if o.momentsEnabled = false then throw .momentsDisabled
  else
    match ← step o.user with
    | none => pure (.error 401 "Unauthorized" none none)
    | some userId => do
      match ← step o.retryAfterSec with
      | some retryAfterSec =>
        pure (.error 429 "Upload rate limit exceeded" none (some retryAfterSec))
      | none => do
        match ← step o.creator with
        | none => pure (.error 403 "Creators only" none none)
        | some creatorId =>
          match body.type with
          | none => pure (.error 400 "Invalid type" none none)
          | some type => createMomentFor o body userId creatorId type

def failureResponse : Failure → Response
  | .momentsDisabled => .error 503 "Moments is not available yet" (some "FEATURE_DISABLED") none
  | .commitImageAsset _ message status => .error status message none none
  | .cloudflareImages status =>
    .error (if status ≥ 500 then 502 else status) "Image processing failed"
      (some "CLOUDFLARE_IMAGES_ERROR") none
  | .other => .error 500 "Failed to create moment" none none

def createMomentHandler (body : CreateMomentBody) (s : Store) : Response × Store :=
  match onStore (createMoment o body) s with
  | (.ok response, t) => (response, t)
  | (.error e, t) => (failureResponse e, t)

end Operations

end VibemeetBackend.MomentUpload
