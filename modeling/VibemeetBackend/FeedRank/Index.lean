import VibemeetBackend.Mongo.Unique
import VibemeetBackend.Moments.Cursor
import VibemeetBackend.Presence.Transition
import VibemeetBackend.Redis.SortedSet

/-!
# The rank index of the creator feed

`creator-feed-rank.service.ts` and `creator-feed-rank-score.ts`: a sorted set of Redis with a score
for each creator, and its writers in `presence.service.ts`, `creator.controller.ts` and
`admin.controller.ts`.

Redis and MongoDB answer every command, and `CREATOR_FEED_REDIS_RANK_ENABLED` is set.
-/

namespace VibemeetBackend.FeedRank

open Async
open Moments (Text trim ObjectId)
open Presence
open Redis

/-! ### Scores -/

def MAX_TS : ℤ := 9000000000000

def availabilityRank : Option CreatorPresenceState → ℤ
  | some .online => 0
  | some .on_call => 1
  | _ => 2

def tieBreak (createdAtMs : ℤ) : ℤ := max 0 (MAX_TS - max 0 createdAtMs)

def encodeFeedRankScore (state : Option CreatorPresenceState) (createdAtMs : ℤ) : ℤ :=
  availabilityRank state * 10 ^ 13 + tieBreak createdAtMs

/-! ### The store -/

structure Creator where
  id : ObjectId
  firebaseUid : Option Text
  /-- The `firebaseUid` of the user that `userId` names. -/
  userFirebaseUid : Option Text
  createdAt : ℤ
  isOnline : Bool
  isDisabled : Bool

structure FeedConfig where
  presence : PresenceConfig
  enableCreatorUidFallbackJoin : Bool
  creatorFeedAvailabilityMaxCatalog : Option ℤ

def FeedConfig.readCreatorFeedAvailabilityMaxCatalog (cfg : FeedConfig) : ℕ :=
  match cfg.creatorFeedAvailabilityMaxCatalog with
  | some raw => if raw ≤ 0 then 8000 else (min 20000 raw).toNat
  | none => 8000

def Creator.feedUid (cfg : FeedConfig) (c : Creator) : Option Text :=
  ((c.firebaseUid.map trim).filter (· ≠ [])).or
    (if cfg.enableCreatorUidFallbackJoin then c.userFirebaseUid.filter (· ≠ []) else none)

def Creator.staffUid (c : Creator) : Option Text :=
  ((c.firebaseUid.map trim).filter (· ≠ [])).or ((c.userFirebaseUid.map trim).filter (· ≠ []))

structure FeedStore where
  creators : Mongo.Unique Creator.id
  keys : Text → PresenceStore
  rank : Key ObjectId

namespace FeedStore

variable (s : FeedStore)

/-- `CREATOR_LISTABLE_FILTER`. -/
def listable : List Creator := s.creators.rows.filter fun c => !c.isDisabled

/-- `Creator.findOne({ firebaseUid })`, whose query is trimmed like the field. -/
def findByUid (uid : Text) : Option Creator :=
  s.creators.rows.find? fun c => c.firebaseUid = some (trim uid)

end FeedStore

/-- `/^[A-Za-z0-9:_-]{8,128}$/`. -/
def isLikelyFirebaseUid (uid : Text) : Bool :=
  8 ≤ uid.length && uid.length ≤ 128 &&
    uid.all fun c => ('A' ≤ c && c ≤ 'Z') || ('a' ≤ c && c ≤ 'z') || ('0' ≤ c && c ≤ '9') ||
      c == ':' || c == '_' || c == '-'

def stateOf (keys : PresenceStore) : CreatorPresenceState :=
  derivePresenceState (parseBaseAvailability keys.availability) (hasCall keys.activeCall)

/-- The state of a creator in the result of `getBatchCreatorPresence`, if it is there. -/
def feedState (cfg : FeedConfig) (s : FeedStore) (c : Creator) : Option CreatorPresenceState :=
  ((c.feedUid cfg).filter isLikelyFirebaseUid).map fun uid => stateOf (s.keys uid)

/-! ### Pages -/

structure AvailabilityFeedPage where
  pageIds : List ObjectId
  total : ℕ
  deriving DecidableEq

def getAvailabilityFeedPageFromRank (cfg : FeedConfig) (s : FeedStore) (skip limit : ℕ) :
    Option AvailabilityFeedPage :=
  let zcard := s.rank.zcard 0
  if zcard = 0 then none
  else some ⟨s.rank.zrange 0 skip (skip + limit - 1),
    min zcard cfg.readCreatorFeedAvailabilityMaxCatalog⟩

def availabilitySort (cfg : FeedConfig) (s : FeedStore) : List Creator :=
  s.listable.insertionSort fun a b =>
    availabilityRank (feedState cfg s a) < availabilityRank (feedState cfg s b) ∨
      availabilityRank (feedState cfg s a) = availabilityRank (feedState cfg s b) ∧
        b.createdAt ≤ a.createdAt

def buildLegacyAvailabilityPage (cfg : FeedConfig) (s : FeedStore) (skip limit : ℕ) :
    AvailabilityFeedPage :=
  ⟨(((availabilitySort cfg s).drop skip).take limit).map (·.id), s.listable.length⟩

def rebuildCreatorFeedRankIndex (cfg : FeedConfig) (s : FeedStore) : FeedStore :=
  let rows := s.listable.take cfg.readCreatorFeedAvailabilityMaxCatalog
  { s with
    rank := rows.foldl (fun rank c =>
      rank.zadd 0 (encodeFeedRankScore (feedState cfg s c) c.createdAt) c.id) .empty }

/-! ### Commands -/

inductive FeedCmd
  | presence (uid : Text) (c : PresenceCmd)
  | findById (id : ObjectId)
  | findByUid (uid : Text)
  | zadd (score : ℤ) (id : ObjectId)
  | zrem (id : ObjectId)
  | insertCreator (c : Creator)
  /-- `loaded.save()` of a creator who is disabled, or is no longer. -/
  | saveDisabled (loaded : Creator) (disabled : Bool)
  | findByIdAndDelete (id : ObjectId)
  | deleteOne (id : ObjectId)

/-- The clock of the instance, a TTL, and whether a slot was cleared. -/
structure FeedReply where
  now : ℤ
  ttl : ℤ
  cleared : Bool

def FeedReply.presence (r : FeedReply) : PresenceReply := ⟨true, true, r.now, r.ttl, r.cleared⟩

/-- A save writes the fields that it changes in the loaded document. -/
def Creator.saved (loaded : Creator) (disabled : Bool) (c : Creator) : Creator :=
  { c with
    isDisabled := if loaded.isDisabled = disabled then c.isDisabled else disabled
    isOnline := c.isOnline && !(disabled && loaded.isOnline) }

def FeedCmd.effect (c : FeedCmd) (r : FeedReply) (s : FeedStore) : FeedStore :=
  match c with
  | .presence uid c =>
    { s with keys := Function.update s.keys uid (c.effect r.presence (s.keys uid)) }
  | .findById _ | .findByUid _ => s
  | .zadd score id => { s with rank := s.rank.zadd 0 score id }
  | .zrem id => { s with rank := s.rank.zrem 0 id }
  | .insertCreator c => { s with creators := s.creators.insert c }
  | .saveDisabled loaded disabled =>
    { s with creators := s.creators.update loaded.id (loaded.saved disabled) }
  | .findByIdAndDelete id | .deleteOne id => { s with creators := s.creators.erase id }

/-! ### Transitions -/

/-- `transitionCreatorPresence` up to its update of the index, and whether it has written. -/
def transitionWritten (cfg : PresenceConfig) (eventType : PresenceTransitionEventType)
    (source : String) : PresenceFlow (Transition × Bool) := do
  let current ← readCreatorPresenceSnapshot
  reconcileSlot eventType
  let (_, s) ← query .getActiveCall
  let now ← dateNow
  let t : Transition :=
    ⟨eventType, sanitizePresenceSource source, current, hasCall s.activeCall, now⟩
  let skip ← heartbeatTtlSkip cfg t
  if skip = true then pure (t, false)
  else do
    writePresence t cfg.maxAttempts
    let _ ← query (.outside .recordCreatorAvailability)
    let _ ← query (.outside .getCreatorStaffScope)
    let _ ← query (.outside .updateOnlinePresenceSets)
    pure (t, true)

def transitionSent (t : Transition) (written : Bool) : PresenceFlow CreatorPresenceRecord :=
  if written = true then do
    emitCreatorStatus t
    pure t.nextRecord
  else pure t.current.record

abbrev FeedFlow (α : Type) : Type := Flow FeedCmd FeedReply FeedStore α

def onKeys {α : Type} (uid : Text) (p : PresenceFlow α) : FeedFlow α :=
  ExceptT.mk (p.run.focus (.presence uid) FeedReply.presence fun s => s.keys uid)

def updateCreatorFeedRankOnPresence (state : CreatorPresenceState) (row : Creator) :
    FeedFlow Unit := do
  let _ ← Flow.issue (.zadd (encodeFeedRankScore (some state) row.createdAt) row.id)
  pure ()

def rankUpdate (uid : Text) (t : Transition) (written : Bool) : FeedFlow Unit :=
  if written = true ∧ t.statusChanged = true then do
    let (_, s) ← Flow.issue (.findByUid uid)
    match s.findByUid uid with
    | some row => updateCreatorFeedRankOnPresence t.nextState row
    | none => pure ()
  else pure ()

/-- A transition.  Nobody waits for the update, which nothing that comes after has to do with. -/
def transitionRanked (cfg : FeedConfig) (uid : Text) (eventType : PresenceTransitionEventType)
    (source : String) : FeedFlow Unit := do
  let (t, written) ← onKeys uid (transitionWritten cfg.presence eventType source)
  rankUpdate uid t written
  let _ ← onKeys uid (transitionSent t written)
  pure ()

/-! ### Requests -/

def staffTransition (cfg : FeedConfig) (creator : Creator)
    (eventType : PresenceTransitionEventType) (source : String) : FeedFlow Unit :=
  match creator.staffUid with
  | some uid => transitionRanked cfg uid eventType source
  | none => pure ()

def deactivateCreator (cfg : FeedConfig) (id : ObjectId) : FeedFlow Unit := do
  let (_, s) ← Flow.issue (.findById id)
  match s.creators.get id with
  | none => pure ()
  | some creator => do
    let _ ← Flow.issue (.saveDisabled creator true)
    staffTransition cfg creator .forceOffline "admin.deactivateCreator"

def reactivateCreator (cfg : FeedConfig) (id : ObjectId) : FeedFlow Unit := do
  let (_, s) ← Flow.issue (.findById id)
  match s.creators.get id with
  | none => pure ()
  | some creator => do
    let _ ← Flow.issue (.saveDisabled creator false)
    let restoreEvent := if creator.isOnline = true then .reconciled else .disconnected
    staffTransition cfg creator restoreEvent "admin.reactivateCreator"

def removeCreatorFromFeedRank (id : ObjectId) : FeedFlow Unit := do
  let _ ← Flow.issue (.zrem id)
  pure ()

def deleteCreator (cfg : FeedConfig) (id : ObjectId) : FeedFlow Unit := do
  let (_, s) ← Flow.issue (.findById id)
  match s.creators.get id with
  | none => pure ()
  | some creator => do
    let _ ← Flow.issue (.findByIdAndDelete id)
    staffTransition cfg creator .forceOffline "admin.deleteCreator"
    removeCreatorFromFeedRank id

/-- What may happen to the feed: the calls on the keys of a creator on any instance, the expiry of a
key, and creators who come, go and are disabled.  `deleteMyAccount` is that of the user of a
creator. -/
inductive FeedRequest
  | presence (uid : Text) (q : PresenceRequest)
  | createCreator (c : Creator)
  | deactivateCreator (id : ObjectId)
  | reactivateCreator (id : ObjectId)
  | deleteCreator (id : ObjectId)
  | deleteMyAccount (id : ObjectId)

def feedFlow (cfg : FeedConfig) : FeedRequest → FeedFlow Unit
  | .presence uid (.transition eventType source) => transitionRanked cfg uid eventType source
  | .presence uid q =>
    onKeys uid (ExceptT.mk (presenceProgram cfg.presence q >>= fun _ => .ret (.ok ())))
  | .createCreator c => do
    let _ ← Flow.issue (.insertCreator c)
    pure ()
  | .deactivateCreator id => deactivateCreator cfg id
  | .reactivateCreator id => reactivateCreator cfg id
  | .deleteCreator id => deleteCreator cfg id
  | .deleteMyAccount id => do
    let _ ← Flow.issue (.deleteOne id)
    pure ()

def feedProgram (cfg : FeedConfig) (q : FeedRequest) : Prog FeedCmd FeedReply FeedStore Unit :=
  (feedFlow cfg q).run >>= fun _ => .ret ()

end VibemeetBackend.FeedRank
