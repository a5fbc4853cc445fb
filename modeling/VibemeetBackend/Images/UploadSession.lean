import Mathlib.Data.String.Basic
import VibemeetBackend.Async.Flow
import VibemeetBackend.Redis.Expiry
import VibemeetBackend.Redis.SortedSet

/-!
# Upload sessions

`upload-session.service.ts` and the sweep of `orphan-cleanup.queue.ts`: a session is a payload with a
lifetime and an entry of the cleanup index with the end of that lifetime as its score.  A commit
consumes the payload; the sweep deletes the images of the sessions that nobody has consumed.

All programs read one clock, which moves on before a command by as much as the answer says.  A command
that fails may have been carried out.  The store also keeps the past that the law speaks of: the
sessions that were created, consumed, read by a sweep and tried, and the images that are deleted.
-/

namespace VibemeetBackend.Images

open Async Redis

/-! ### Sessions -/

inductive UploadPurpose where
  | creatorAvatar
  | creatorGallery
  | userAvatar
  | adminModeration
  | supportTicket
  | storyImage
  | momentPhoto
  | momentThumbnail
  deriving DecidableEq

structure UploadSession where
  sessionId : String
  userId : String
  purpose : UploadPurpose
  imageId : String
  createdAt : ℕ
  expiresAt : ℕ
  declaredSizeBytes : Option ℕ
  deriving DecidableEq

structure CreateSessionInput where
  userId : String
  purpose : UploadPurpose
  imageId : String
  declaredSizeBytes : Option ℕ
  ttlSeconds : Option ℕ

def defaultTtlSeconds : ℕ := 30 * 60

/-- A session and the caller whose `DEL` has removed its payload. -/
structure Consumption where
  session : UploadSession
  userId : String
  purpose : UploadPurpose

/-! ### Store and commands -/

structure UploadStore where
  now : ℕ
  sessions : Keys String UploadSession
  index : Key String
  created : List UploadSession
  consumed : List Consumption
  read : List UploadSession
  /-- The sessions whose image a sweep has tried to delete. -/
  tried : List UploadSession
  deleted : List String

def UploadStore.initial (now : ℕ) : UploadStore where
  now := now
  sessions := .empty
  index := .empty
  created := []
  consumed := []
  read := []
  tried := []
  deleted := []

structure Reply where
  delivered : Bool
  answered : Bool
  waited : ℕ

def Reply.ok (r : Reply) : Bool := r.delivered && r.answered

def UploadStore.later (r : Reply) (s : UploadStore) : UploadStore := { s with now := s.now + r.waited }

def UploadStore.payload (s : UploadStore) (sessionId : String) : Option UploadSession :=
  (s.sessions.find s.now sessionId).map Expiring.value

/-- The payloads that are found among these keys. -/
def UploadStore.payloads (s : UploadStore) (ids : List String) : List UploadSession :=
  ids.filterMap s.payload

inductive UploadCmd where
  /-- `Date.now()`. -/
  | clock
  /-- `MULTI`: `SETEX` and `ZADD`. -/
  | create (session : UploadSession) (ttl : ℕ)
  | get (sessionId : String)
  /-- The `DEL` of `consumeSession`, for its caller. -/
  | consume (sessionId userId : String) (purpose : UploadPurpose)
  | zrem (sessionId : String)
  | del (sessionId : String)
  | zrangebyscore (max limit : ℕ)
  /-- `MULTI`: a `GET` of each. -/
  | getAll (ids : List String)
  | deleteImage (session : UploadSession)

/-- What a command does in Redis when it is carried out. -/
def UploadCmd.effect (c : UploadCmd) (s : UploadStore) : UploadStore :=
  match c with
  | .create session ttl =>
    { s with
      sessions := s.sessions.write session.sessionId session (some (s.now + ttl * 1000))
      index := s.index.zadd s.now session.expiresAt session.sessionId
      created := s.created ++ [session] }
  | .consume sessionId userId purpose =>
    { s with
      sessions := s.sessions.del sessionId
      consumed := s.consumed ++
        ((s.payload sessionId).map fun session => ⟨session, userId, purpose⟩).toList }
  | .zrem sessionId => { s with index := s.index.zrem s.now sessionId }
  | .del sessionId => { s with sessions := s.sessions.del sessionId }
  | .getAll ids => { s with read := s.read ++ s.payloads ids }
  | _ => s

def UploadCmd.exec (c : UploadCmd) (r : Reply) (s : UploadStore) : UploadStore :=
  match c with
  | .deleteImage session =>
    -- the sweep has tried, whatever comes of it
    { s.later r with
      tried := s.tried ++ [session]
      deleted := s.deleted ++ if r.delivered = true then [session.imageId] else [] }
  | _ => if r.delivered = true then c.effect (s.later r) else s.later r

abbrev UploadFlow (α : Type) : Type := Flow UploadCmd Reply UploadStore α

def ask (c : UploadCmd) : UploadFlow UploadStore := do
  let (r, s) ← Flow.call Reply.ok "ReplyError" c
  return s.later r

/-! ### `upload-session.service.ts` -/

/-- `sessionId` is what `randomBytes` gives. -/
def createSession (sessionId : String) (input : CreateSessionInput) : UploadFlow UploadSession := do
  let ttl := max 60 (input.ttlSeconds.getD defaultTtlSeconds)
  let s ← ask .clock
  let session : UploadSession :=
    { sessionId
      userId := input.userId
      purpose := input.purpose
      imageId := input.imageId
      createdAt := s.now
      expiresAt := s.now + ttl * 1000
      declaredSizeBytes := input.declaredSizeBytes }
  let _ ← ask (.create session ttl)
  return session

def getSession (sessionId : String) : UploadFlow (Option UploadSession) :=
  if sessionId.startsWith "s_" = false then pure none
  else do
    let s ← ask (.get sessionId)
    return s.payload sessionId

/-- The part of `consumeSession` that follows its checks. -/
def releaseSession (session : UploadSession) (sessionId userId : String) (purpose : UploadPurpose) :
    UploadFlow (Option UploadSession) := do
  let s ← ask (.consume sessionId userId purpose)
  let _ ← ask (.zrem sessionId)
  -- nobody has deleted the payload before: `deleted` is 1
  return (s.payload sessionId).map fun _ => session

def consumeSession (sessionId userId : String) (purpose : UploadPurpose) :
    UploadFlow (Option UploadSession) := do
  match ← getSession sessionId with
  | none => return none
  | some session =>
    if session.userId ≠ userId then return none
    else if session.purpose ≠ purpose then return none
    else releaseSession session sessionId userId purpose

/-- The loop of `listExpiredSessions` over what the reads have found; an entry without a payload is
purged. -/
def collectSessions (found : String → Option UploadSession) :
    List String → UploadFlow (List UploadSession)
  | [] => return []
  | id :: ids =>
    match found id with
    | some session => do
      let sessions ← collectSessions found ids
      return session :: sessions
    | none => do
      let _ ← ask (.zrem id)
      collectSessions found ids

def listExpiredSessions (limit : ℕ) : UploadFlow (List UploadSession) := do
  let s ← ask .clock
  let now := s.now
  let s ← ask (.zrangebyscore now limit)
  match s.index.rangeByScore s.now now limit with
  | [] => return []
  | id :: ids => do
    let s ← ask (.getAll (id :: ids))
    collectSessions s.payload (id :: ids)

def removeSessionFromIndex (sessionId : String) : UploadFlow Unit := do
  let _ ← ask (.zrem sessionId)
  let _ ← ask (.del sessionId)
  return ()

/-! ### `orphan-cleanup.queue.ts` -/

/-- `raw` is the whole number of the environment, if it has one. -/
def readBatchSize (raw : Option ℤ) : ℕ :=
  match raw with
  | none => 100
  | some raw => if raw ≤ 0 then 100 else min 1000 raw.toNat

def sweepSessions : List UploadSession → UploadFlow Unit
  | [] => return ()
  | session :: expired => do
    let _ ← Flow.attempt (ask (.deleteImage session))
    removeSessionFromIndex session.sessionId
    sweepSessions expired

def processSweep (batchSize : Option ℤ) : UploadFlow Unit := do
  let expired ← listExpiredSessions (readBatchSize batchSize)
  sweepSessions expired

/-! ### Requests -/

inductive UploadRequest where
  | create (sessionId : String) (input : CreateSessionInput)
  | consume (sessionId userId : String) (purpose : UploadPurpose)
  | sweep (batchSize : Option ℤ)

def spawned {α : Type} (p : UploadFlow α) : Prog UploadCmd Reply UploadStore Unit :=
  p.run >>= fun _ => .ret ()

def uploadProgram : UploadRequest → Prog UploadCmd Reply UploadStore Unit
  | .create sessionId input => spawned (createSession sessionId input)
  | .consume sessionId userId purpose => spawned (consumeSession sessionId userId purpose)
  | .sweep batchSize => spawned (processSweep batchSize)

end VibemeetBackend.Images
