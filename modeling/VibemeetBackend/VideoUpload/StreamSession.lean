import VibemeetBackend.Async.Flow
import VibemeetBackend.Async.Pool
import VibemeetBackend.Moments.Store

/-!
# Video upload sessions

`stream-upload-session.service.ts`, `stream-session-sync.service.ts`, and the handlers of the
webhook and of the upload status in `stream.controller.ts`.

A session is a JSON value under its own key, next to an index of the ids.  Redis is configured, and
the keys do not run out: the sessions are followed before they expire.  The store also counts the
commands, which no function reads.  Logs and the notification of the client are left out.
-/

namespace VibemeetBackend.VideoUpload

open Async
open Moments (ProcessingStatus Text)
open Mongo (Unique)

/-! ### Sessions -/

inductive ContentClass where
  | story
  | moment
  deriving DecidableEq

structure StreamUploadSession where
  sessionId : Text
  userId : Text
  firebaseUid : Text
  contentClass : ContentClass
  streamVideoId : Text
  processingStatus : ProcessingStatus
  durationSeconds : Option ℚ
  createdAt : ℤ
  updatedAt : ℤ
  expiresAt : ℤ
  deriving DecidableEq

structure StreamVideoDetails where
  state : Option String
  duration : Option ℚ

structure Store where
  sessions : Unique StreamUploadSession.sessionId
  index : List Text
  /-- How many commands there have been. -/
  commands : ℕ

/-! ### Commands -/

inductive Response where
  | error (status : ℕ) (error : String) (code : Option String)
  | uploadStatus (sessionId : Text) (processingStatus : ProcessingStatus)
      (contentClass : ContentClass)

inductive Cmd where
  | zrange
  | get (sessionId : Text)
  | setex (session : StreamUploadSession)
  | del (sessionId : Text)
  | zrem (sessionId : Text)
  /-- `getStreamVideoDetails`. -/
  | videoDetails (streamVideoId : Text)
  | respond (response : Response)

structure Reply where
  delivered : Bool
  answered : Bool
  now : ℤ
  details : StreamVideoDetails

def Reply.ok (r : Reply) : Bool := r.delivered && r.answered

def Cmd.effect (c : Cmd) (r : Reply) (s : Store) : Store :=
  match c with
  | .setex session => { s with sessions := s.sessions.put { session with updatedAt := r.now } }
  | .del sessionId => { s with sessions := s.sessions.erase sessionId }
  | .zrem sessionId => { s with index := s.index.filter (· ≠ sessionId) }
  | .zrange | .get _ | .videoDetails _ | .respond _ => s

def Cmd.exec (c : Cmd) (r : Reply) (s : Store) : Store :=
  { if r.delivered = true then c.effect r s else s with commands := s.commands + 1 }

abbrev StreamFlow (α : Type) : Type := Flow Cmd Reply Store α

def run (c : Cmd) : StreamFlow (Reply × Store) := Flow.call Reply.ok "command failed" c

/-! ### `stream-upload-session.service.ts` -/

/-- `sessionId.startsWith('vs_')`. -/
def isSessionId (sessionId : Text) : Bool := ['v', 's', '_'].isPrefixOf sessionId

def getStreamUploadSession (sessionId : Text) : StreamFlow (Option StreamUploadSession) :=
  if isSessionId sessionId = false then pure none
  else do
    let (_, s) ← run (.get sessionId)
    pure (s.sessions.get sessionId)

def updateStreamUploadSession (session : StreamUploadSession) : StreamFlow Unit := do
  let _ ← run (.setex session)
  pure ()

def consumeStreamUploadSession (sessionId userId : Text) (expectedClass : ContentClass) :
    StreamFlow (Option StreamUploadSession) := do
  match ← getStreamUploadSession sessionId with
  | none => pure none
  | some session =>
    if session.userId ≠ userId then pure none
    else if session.contentClass ≠ expectedClass then pure none
    else if session.processingStatus ≠ .ready then pure none
    else do
      let _ ← run (.del sessionId)
      let _ ← run (.zrem sessionId)
      pure (some session)

/-- The loop of `findStreamSessionByVideoId`. -/
def findAmong (streamVideoId : Text) : List Text → StreamFlow (Option StreamUploadSession)
  | [] => pure none
  | id :: ids => do
    match ← getStreamUploadSession id with
    | none => findAmong streamVideoId ids
    | some session =>
      if session.streamVideoId = streamVideoId then pure (some session)
      else findAmong streamVideoId ids

def findStreamSessionByVideoId (streamVideoId : Text) :
    StreamFlow (Option StreamUploadSession) := do
  let (_, s) ← run .zrange
  findAmong streamVideoId s.index

def StreamUploadSession.isStale (now : ℤ) (session : StreamUploadSession) : Bool :=
  (session.processingStatus == .uploading &&
      decide (session.updatedAt < now - 60 * 60 * 1000)) ||
    (session.processingStatus == .processing &&
      decide (session.updatedAt < now - 2 * 60 * 60 * 1000))

/-- The loop of `sweepStaleStreamSessions`. -/
def sweepAll (now : ℤ) : List Text → StreamFlow ℕ
  | [] => pure 0
  | id :: ids => do
    match ← getStreamUploadSession id with
    | none => sweepAll now ids
    | some session =>
      if session.isStale now = true then do
        updateStreamUploadSession { session with processingStatus := .failed }
        let marked ← sweepAll now ids
        pure (marked + 1)
      else sweepAll now ids

def sweepStaleStreamSessions (now : ℤ) : StreamFlow ℕ := do
  let (_, s) ← run .zrange
  sweepAll now s.index

/-! ### `stream-session-sync.service.ts` -/

def mapCloudflareStreamState (state : Option String) : Option ProcessingStatus :=
  if state = some "ready" then some .ready
  else if state = some "error" then some .failed
  else if state ∈ [some "inprogress", some "queued", some "pendingupload"] then some .processing
  else if state = some "downloading" then some .processing
  else none

def readyDuration (session : StreamUploadSession) (duration : Option ℚ) : StreamFlow (Option ℚ) :=
  match duration with
  | some duration => pure (some duration)
  | none =>
    if session.durationSeconds.isSome = true then pure session.durationSeconds
    else do
      match ← Flow.attempt (run (.videoDetails session.streamVideoId)) with
      | .ok (r, _) => pure r.details.duration
      | .error _ => pure none

def applyStreamVideoStateToSession (session : StreamUploadSession) (state : Option String)
    (duration : Option ℚ) : StreamFlow (StreamUploadSession × Bool) :=
  match mapCloudflareStreamState state with
  | none => pure (session, false)
  | some .ready => do
    let durationSeconds ← readyDuration session duration
    pure ({ session with processingStatus := .ready, durationSeconds },
      decide (session.processingStatus ≠ .ready))
  | some mapped => pure ({ session with processingStatus := mapped }, false)

def syncStreamUploadSessionFromCloudflare (session : StreamUploadSession) :
    StreamFlow StreamUploadSession :=
  if session.processingStatus = .ready ∨ session.processingStatus = .failed then pure session
  else do
    match ← Flow.attempt (run (.videoDetails session.streamVideoId)) with
    | .error _ => pure session
    | .ok (r, _) => do
      let (updated, becameReady) ←
        applyStreamVideoStateToSession session r.details.state r.details.duration
      -- `session` has been changed in place: it is `updated` that is compared with itself
      if updated.processingStatus ≠ updated.processingStatus ∨ becameReady = true then do
        let _ ← Flow.attempt (updateStreamUploadSession updated)
        pure updated
      else pure updated

/-! ### `stream.controller.ts` -/

/-- What `getUploadStatusHandler` answers to a user. -/
def uploadStatus (userId sessionId : Text) : StreamFlow Response := do
  match ← getStreamUploadSession sessionId with
  | none => pure (.error 404 "Session not found" none)
  | some session =>
    if session.userId ≠ userId then pure (.error 404 "Session not found" none)
    else do
      let synced ← syncStreamUploadSessionFromCloudflare session
      pure (.uploadStatus synced.sessionId synced.processingStatus synced.contentClass)

/-- The response of `getUploadStatusHandler`, for the user that the request resolves to. -/
def uploadStatusResponse (momentsEnabled : Bool) (userId : Option Text) (sessionId : Text) :
    StreamFlow Response :=
  if momentsEnabled = false then
    pure (.error 503 "Moments is not available yet" (some "FEATURE_DISABLED"))
  else
    match userId with
    | none => pure (.error 401 "Unauthorized" none)
    | some userId => tryCatch (uploadStatus userId sessionId) fun _ =>
      pure (.error 500 "Failed to get upload status" none)

def getUploadStatusHandler (momentsEnabled : Bool) (userId : Option Text) (sessionId : Text) :
    StreamFlow Unit := do
  let response ← uploadStatusResponse momentsEnabled userId sessionId
  let _ ← run (.respond response)
  pure ()

def webhookStatus (state : Option String) (status : ProcessingStatus) : ProcessingStatus :=
  if state = some "inprogress" ∨ state = some "queued" then .processing
  else if state = some "ready" then .ready
  else if state = some "error" then .failed
  else status

def webhookDuration (uid : Text) (state : Option String) (durationSeconds : Option ℚ) :
    StreamFlow (Option ℚ) :=
  if state = some "ready" then do
    match ← Flow.attempt (run (.videoDetails uid)) with
    | .ok (r, _) => pure r.details.duration
    | .error _ => pure durationSeconds
  else pure durationSeconds

def handleStreamWebhook (verified : Bool) (uid : Option Text) (state : Option String) :
    StreamFlow ℕ :=
  if verified = false then pure 401
  else
    match uid with
    | none | some [] => pure 200
    | some uid => tryCatch
      (do
        match ← findStreamSessionByVideoId uid with
        | none => pure 200
        | some session => do
          let durationSeconds ← webhookDuration uid state session.durationSeconds
          updateStreamUploadSession
            { session with
              processingStatus := webhookStatus state session.processingStatus
              durationSeconds }
          pure 200)
      fun _ => pure 500

inductive Request where
  | webhook (verified : Bool) (uid : Option Text) (state : Option String)
  | poll (momentsEnabled : Bool) (userId : Option Text) (sessionId : Text)
  | sweep (now : ℤ)
  | consume (sessionId userId : Text) (expectedClass : ContentClass)

def program (q : Request) : Prog Cmd Reply Store Unit :=
  match q with
  | .webhook verified uid state => (handleStreamWebhook verified uid state).run >>= fun _ => .ret ()
  | .poll momentsEnabled userId sessionId =>
    (getUploadStatusHandler momentsEnabled userId sessionId).run >>= fun _ => .ret ()
  | .sweep now => (sweepStaleStreamSessions now).run >>= fun _ => .ret ()
  | .consume sessionId userId expectedClass =>
    (consumeStreamUploadSession sessionId userId expectedClass).run >>= fun _ => .ret ()

end VibemeetBackend.VideoUpload
