import VibemeetBackend.Async.Transaction
import VibemeetBackend.Presence.SocketRegistry

/-!
# The presence of a creator

`presence.service.ts`: three keys of Redis, which the instances of the server read, compute the next
record from, and write again.

The store also lists what was persisted and what was broadcast, which no program reads.
-/

namespace VibemeetBackend.Presence

open Async

/-! ### Records -/

inductive CreatorPresenceState
  | online | on_call | offline
  deriving DecidableEq

inductive CreatorBaseAvailability
  | online | offline
  deriving DecidableEq

inductive PresenceTransitionEventType
  | connected | heartbeat | callStarted | callEnded | disconnected | recovered | forceOffline
  | reconciled
  deriving DecidableEq

structure CreatorPresenceRecord where
  state : CreatorPresenceState
  updatedAt : ℤ
  source : String
  version : ℤ
  deriving DecidableEq

structure CreatorPresenceMeta where
  base : CreatorBaseAvailability
  updatedAt : ℤ
  source : String
  version : ℤ
  deriving DecidableEq

structure CreatorPresenceSnapshot where
  base : CreatorBaseAvailability
  state : CreatorPresenceState
  updatedAt : ℤ
  source : String
  version : ℤ
  deriving DecidableEq

def CreatorPresenceSnapshot.record (s : CreatorPresenceSnapshot) : CreatorPresenceRecord :=
  ⟨s.state, s.updatedAt, s.source, s.version⟩

def presenceMaxClockSkewMs : ℤ := 5 * 60 * 1000

def onlineSource : String := "user_model.base_online"

def offlineSource : String := "user_model.base_offline"

def unknownSource : String := "presence.unknown_source"

def sanitizePresenceSource (normalized : String) : String :=
  if normalized ≠ "" then normalized else unknownSource

def syntheticFallbackVersion (nowMs : ℤ) : ℤ := max 0 nowMs

def parseBaseAvailability (raw : Option CreatorBaseAvailability) : CreatorBaseAvailability :=
  if raw = some .online then .online else .offline

def parsePresenceMeta (raw : Option CreatorPresenceMeta) (now : ℤ) : Option CreatorPresenceMeta :=
  raw.filter fun m => 0 < m.updatedAt ∧ m.updatedAt ≤ now + presenceMaxClockSkewMs ∧
    0 ≤ m.version ∧ m.source ≠ ""

def resolveTargetBaseAvailability (currentBase : CreatorBaseAvailability) :
    PresenceTransitionEventType → CreatorBaseAvailability
  | .forceOffline | .disconnected => .offline
  | .connected | .recovered | .callEnded => .online
  | .reconciled | .callStarted | .heartbeat => currentBase

def derivePresenceState (base : CreatorBaseAvailability) (hasActiveCallState : Bool) :
    CreatorPresenceState :=
  if hasActiveCallState then .on_call else if base = .online then .online else .offline

def deriveRecordSource (base : CreatorBaseAvailability) (hasActiveCallState : Bool)
    (source : String) : String :=
  if hasActiveCallState then source ++ ".active_call"
  else if base = .online then source else offlineSource

/-- `Boolean(activeCallId)`. -/
def hasCall (activeCallId : Option String) : Bool := activeCallId.any fun id => id ≠ ""

def derivePresenceSnapshotFromRedisFields (baseRaw : Option CreatorBaseAvailability)
    (metaRaw : Option CreatorPresenceMeta) (activeCallIdRaw : Option String)
    (parsedAt now : ℤ) : CreatorPresenceSnapshot :=
  let base := parseBaseAvailability baseRaw
  let parsed := parsePresenceMeta metaRaw parsedAt
  let updatedAt := (parsed.map CreatorPresenceMeta.updatedAt).getD now
  let source := (parsed.map CreatorPresenceMeta.source).getD onlineSource
  { base
    state := derivePresenceState base (hasCall activeCallIdRaw)
    updatedAt
    source := deriveRecordSource base (hasCall activeCallIdRaw) (sanitizePresenceSource source)
    version := (parsed.map CreatorPresenceMeta.version).getD (syntheticFallbackVersion updatedAt) }

/-! ### Transitions -/

/-- What a call of `transitionCreatorPresence` computes its record from. -/
structure Transition where
  eventType : PresenceTransitionEventType
  safeSource : String
  current : CreatorPresenceSnapshot
  hasActiveCallState : Bool
  now : ℤ
  deriving DecidableEq

namespace Transition

variable (t : Transition)

def nextBase : CreatorBaseAvailability :=
  resolveTargetBaseAvailability t.current.base t.eventType

def nextState : CreatorPresenceState := derivePresenceState t.nextBase t.hasActiveCallState

def nextVersion : ℤ := max (t.current.version + 1) (syntheticFallbackVersion t.now)

def nextRecord : CreatorPresenceRecord where
  state := t.nextState
  updatedAt := t.now
  source := deriveRecordSource t.nextBase t.hasActiveCallState
    (if t.safeSource ≠ "" then t.safeSource else onlineSource)
  version := t.nextVersion

def nextMeta : CreatorPresenceMeta where
  base := t.nextBase
  updatedAt := t.now
  source := if t.safeSource ≠ "" then t.safeSource
    else if t.nextBase = .online then onlineSource else offlineSource
  version := t.nextVersion

def statusChanged : Bool :=
  t.current.state ≠ t.nextState || t.current.base ≠ t.nextBase

def announced : Bool :=
  t.statusChanged || t.eventType = .recovered || t.eventType = .connected ||
    t.eventType = .callStarted || t.eventType = .callEnded

end Transition

def shouldReconcileActiveCallSlot : PresenceTransitionEventType → Bool
  | .callEnded | .disconnected | .forceOffline | .reconciled | .connected => true
  | .heartbeat | .callStarted | .recovered => false

/-- The metadata that `selfHealMissingMeta` writes. -/
def healedMeta (base : CreatorBaseAvailability) (now : ℤ) : CreatorPresenceMeta where
  base := base
  updatedAt := now
  source := sanitizePresenceSource "availability.read_self_heal"
  version := syntheticFallbackVersion now

/-! ### The store -/

structure Persisted where
  metadata : CreatorPresenceMeta
  record : Option CreatorPresenceRecord
  deriving DecidableEq

def Persisted.version (p : Persisted) : ℤ := p.metadata.version

def Transition.persisted (t : Transition) : Persisted := ⟨t.nextMeta, some t.nextRecord⟩

structure PresenceStore where
  availability : Option CreatorBaseAvailability
  presence : Option CreatorPresenceRecord
  metadata : Option CreatorPresenceMeta
  activeCall : Option String
  persisted : List Persisted
  broadcast : List CreatorPresenceRecord

namespace PresenceStore

def start : PresenceStore := ⟨none, none, none, none, [], []⟩

def records (s : PresenceStore) : List CreatorPresenceRecord :=
  s.persisted.filterMap Persisted.record

def persist (s : PresenceStore) (p : Persisted) : PresenceStore :=
  { s with
    metadata := some p.metadata
    persisted := if s.persisted.getLast? = some p then s.persisted else s.persisted ++ [p] }

end PresenceStore

inductive PresenceKey
  | availability | presence | metadata

/-- What the server calls outside of the three keys. -/
inductive OutsideCall
  | recordCreatorAvailability
  | getCreatorStaffScope
  | updateOnlinePresenceSets
  | getCreatorFeedCardSnapshot

inductive PresenceCmd
  | clock
  | mget
  | getAvailability
  | getMeta
  | getActiveCall
  | ttl
  | clearCreatorActiveCallSlotIfStale
  | exec (t : Transition)
  /-- The SETEX of `selfHealMissingMeta`. -/
  | setMeta (base : CreatorBaseAvailability) (now : ℤ)
  | outside (call : OutsideCall)
  | emit (record : CreatorPresenceRecord)
  | expire (key : PresenceKey)
  | setAvailability (base : Option CreatorBaseAvailability)
  | setActiveCall (callId : Option String)

/-- An answer: whether the command took effect and whether it was confirmed, the clock of the
instance, the TTL, and whether a slot was cleared. -/
structure PresenceReply where
  delivered : Bool
  answered : Bool
  now : ℤ
  ttl : ℤ
  cleared : Bool

def PresenceReply.ok (r : PresenceReply) : Bool := r.delivered && r.answered

def PresenceCmd.effect (c : PresenceCmd) (r : PresenceReply) (s : PresenceStore) : PresenceStore :=
  match c with
  | .exec t =>
    if r.delivered then
      { s.persist t.persisted with
        availability := some t.nextBase
        presence := some t.nextRecord }
    else s
  | .setMeta base now => if r.delivered then s.persist ⟨healedMeta base now, none⟩ else s
  | .clearCreatorActiveCallSlotIfStale => if r.cleared then { s with activeCall := none } else s
  | .emit record => { s with broadcast := s.broadcast ++ [record] }
  | .expire .availability => { s with availability := none }
  | .expire .presence => { s with presence := none }
  | .expire .metadata => { s with metadata := none }
  | .setAvailability base => { s with availability := base }
  | .setActiveCall callId => { s with activeCall := callId }
  | .clock | .mget | .getAvailability | .getMeta | .getActiveCall | .ttl | .outside _ => s

/-! ### The calls -/

structure PresenceConfig where
  env : RegistryEnv
  presenceHeartbeatTtlSkipEnabled : Bool
  creatorPresenceWriterRetryEnabled : Bool
  creatorPresenceWriteMaxRetries : Option ℤ
  creatorPresenceMetaSelfHealEnabled : Bool

def PresenceConfig.presenceWriteMaxRetries (cfg : PresenceConfig) : ℤ :=
  min 2 (max 0 (parsedOr cfg.creatorPresenceWriteMaxRetries 1))

def PresenceConfig.maxAttempts (cfg : PresenceConfig) : ℕ :=
  1 + if cfg.creatorPresenceWriterRetryEnabled then cfg.presenceWriteMaxRetries.toNat else 0

abbrev PresenceFlow (α : Type) : Type := Flow PresenceCmd PresenceReply PresenceStore α

def query (c : PresenceCmd) : PresenceFlow (PresenceReply × PresenceStore) :=
  Flow.call PresenceReply.ok "ReplyError" c

/-- `Date.now()`. -/
def dateNow : PresenceFlow ℤ := do
  let (r, _) ← Flow.issue .clock
  pure r.now

def readCreatorPresenceSnapshot : PresenceFlow CreatorPresenceSnapshot := do
  let (_, s) ← query .mget
  let parsedAt ← dateNow
  let now ← dateNow
  pure (derivePresenceSnapshotFromRedisFields s.availability s.metadata s.activeCall parsedAt now)

def reconcileSlot (eventType : PresenceTransitionEventType) : PresenceFlow Unit :=
  if shouldReconcileActiveCallSlot eventType = true then do
    let _ ← query .clearCreatorActiveCallSlotIfStale
    pure ()
  else pure ()

/-- A heartbeat that would change nothing is skipped while the key lives long enough. -/
def heartbeatTtlSkip (cfg : PresenceConfig) (t : Transition) : PresenceFlow Bool :=
  if t.eventType = .heartbeat ∧ cfg.presenceHeartbeatTtlSkipEnabled = true then do
    let (r, _) ← query .ttl
    pure (cfg.env.presenceTtlSeconds < 2 * r.ttl && t.nextState = t.current.state &&
      t.nextBase = t.current.base)
  else pure false

def writePresence (t : Transition) : ℕ → PresenceFlow Unit
  | 0 => throw "creator presence write failed"
  | attempts + 1 => do
    let (r, _) ← Flow.issue (.exec t)
    if r.ok = true then pure () else writePresence t attempts

def creatorSummary (shouldAttachSummary : Bool) : PresenceFlow Unit :=
  if shouldAttachSummary = true then do
    let _ ← query (.outside .getCreatorFeedCardSnapshot)
    pure ()
  else pure ()

/-- The event `creator:status`. -/
def emitCreatorStatus (t : Transition) : PresenceFlow Unit :=
  if t.announced = true then do
    creatorSummary (t.nextState ≠ .offline)
    let _ ← Flow.issue (.emit t.nextRecord)
    pure ()
  else pure ()

def applyTransition (cfg : PresenceConfig) (t : Transition) :
    PresenceFlow CreatorPresenceRecord := do
  let skip ← heartbeatTtlSkip cfg t
  if skip = true then pure t.current.record
  else do
    writePresence t cfg.maxAttempts
    let _ ← query (.outside .recordCreatorAvailability)
    let _ ← query (.outside .getCreatorStaffScope)
    let _ ← query (.outside .updateOnlinePresenceSets)
    emitCreatorStatus t
    pure t.nextRecord

def transitionCreatorPresence (cfg : PresenceConfig) (eventType : PresenceTransitionEventType)
    (source : String) : PresenceFlow CreatorPresenceRecord := do
  let current ← readCreatorPresenceSnapshot
  reconcileSlot eventType
  let (_, s) ← query .getActiveCall
  let now ← dateNow
  applyTransition cfg
    ⟨eventType, sanitizePresenceSource source, current, hasCall s.activeCall, now⟩

def selfHealMissingMeta (base : CreatorBaseAvailability) : PresenceFlow Unit := do
  let now ← dateNow
  let _ ← Flow.issue (.setMeta base now)
  pure ()

def getBatchCreatorPresence (cfg : PresenceConfig) (healTarget : Bool) :
    PresenceFlow CreatorPresenceRecord := do
  let (rb, sb) ← Flow.issue .getAvailability
  let (rm, sm) ← Flow.issue .getMeta
  let (ra, sa) ← Flow.issue .getActiveCall
  if (rb.ok && rm.ok && ra.ok) = true then do
    let parsedMetaAt ← dateNow
    let parsedAt ← dateNow
    let now ← dateNow
    let snapshot := derivePresenceSnapshotFromRedisFields sb.availability sm.metadata
      sa.activeCall parsedAt now
    let expectedCanonical := sb.availability.isSome || hasCall sa.activeCall
    if ((parsePresenceMeta sm.metadata parsedMetaAt).isNone &&
        cfg.creatorPresenceMetaSelfHealEnabled && expectedCanonical && healTarget) = true then do
      selfHealMissingMeta snapshot.base
      pure snapshot.record
    else pure snapshot.record
  else throw "creator_presence_batch_read_failed"

/-- What may happen to the keys of a creator: the calls on any instance, the expiry of a key, the
other writers of the availability, and the calls that take and leave the slot. -/
inductive PresenceRequest
  | transition (eventType : PresenceTransitionEventType) (source : String)
  | getBatch (healTarget : Bool)
  | expire (key : PresenceKey)
  | setAvailability (base : Option CreatorBaseAvailability)
  | setActiveCall (callId : Option String)

/-- A call whose result nobody waits for. -/
def detached {α : Type} (p : PresenceFlow α) : Prog PresenceCmd PresenceReply PresenceStore Unit :=
  p.run >>= fun _ => .ret ()

def presenceProgram (cfg : PresenceConfig) :
    PresenceRequest → Prog PresenceCmd PresenceReply PresenceStore Unit
  | .transition eventType source => detached (transitionCreatorPresence cfg eventType source)
  | .getBatch healTarget => detached (getBatchCreatorPresence cfg healTarget)
  | .expire key => detached (Flow.issue (.expire key))
  | .setAvailability base => detached (Flow.issue (.setAvailability base))
  | .setActiveCall callId => detached (Flow.issue (.setActiveCall callId))

end VibemeetBackend.Presence
