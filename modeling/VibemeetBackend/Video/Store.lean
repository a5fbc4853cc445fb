import VibemeetBackend.ActiveCall.Start
import VibemeetBackend.Settlement.Finalize
import VibemeetBackend.Video.CallState

/-!
# The stores that a call's webhooks write

The `Call` collection, the Redis keys of the video modules and, as parts of the store, the keys of
the billing starts and what records the settlement of each call.

Collections that the video modules only read (users, creators, the VIP queue, Stream) are part of a
`VideoReply`.  A command that was not `delivered` did nothing; one that was delivered but not
`answered` took effect and still looks failed to its caller.  `committed` and `hadSession` record
what has happened and are read by no program.
-/

namespace VibemeetBackend.Video

open Async Billing ActiveCall
open Settlement (SettlementStore SettlementReply SettlementCmd)

/-- The environment variables that the video modules read. -/
structure VideoConfig where
  billing : BillingConfig
  settlement : Settlement.SettlementConfig
  /-- `CALL_END_FINALIZER_MODE` is `log_only`. -/
  finalizerLogOnly : Bool
  /-- `shouldEnforceAvailabilityWrites`. -/
  enforceAvailabilityWrites : Bool
  /-- `RINGING_SLOT_GRACE_SECONDS`. -/
  ringingSlotGraceSeconds : ℤ

/-- The phase of `markCreatorBusyForCall`. -/
inductive BusyPhase where
  | ringing
  | accepted
  | sessionStarted
  deriving DecidableEq

inductive VideoKey where
  /-- `lifecycleDedupeKey`. -/
  | busyPhase (callId : String) (phase : BusyPhase)
  /-- `precallSnapshotKey`. -/
  | snapshot (callId uid : String)
  /-- `callEndingKey`, `pendingCallEndKey` and `callSessionTerminalKey`. -/
  | ending (callId : String)
  | pendingEnd (callId : String)
  | terminal (callId : String)
  /-- `finalizeDoneKey` and `finalizeLockKey`. -/
  | finalizeDone (callId : String)
  | finalizeLock (callId : String)
  | overlapRejected (callId : String)
  | offlineRejected (callId : String)
  deriving DecidableEq

structure VideoStore where
  calls : String → Option CallDoc
  keys : VideoKey → Bool
  start : ActiveCallStore
  /-- When a slot expires. -/
  slotExpiresAt : String → ℤ
  settlement : String → SettlementStore
  committed : String → Bool
  /-- The call had a billing session. -/
  hadSession : String → Bool

namespace VideoStore

variable (s : VideoStore)

def session (callId : String) : Option CallSession := s.start.session callId

def slot (uid : String) : Option String := s.start.slots uid

def setCall (callId : String) (call : Option CallDoc) : VideoStore :=
  { s with calls := Function.update s.calls callId call }

def setKey (k : VideoKey) (v : Bool) : VideoStore := { s with keys := Function.update s.keys k v }

def setStart (st : ActiveCallStore) : VideoStore := { s with start := st }

def setSettlement (callId : String) (st : SettlementStore) : VideoStore :=
  { s with settlement := Function.update s.settlement callId st }

end VideoStore

/-! ### Is a slot live? -/

/-- `ACTIVE_CALL_SLOT_TTL_SECONDS`. -/
def activeCallSlotTtlSeconds : ℤ := 7200

/-- `TTL` of a slot. -/
def VideoStore.slotTtl (s : VideoStore) (now : ℤ) (uid : String) : ℤ :=
  if (s.slot uid).isSome = true then (s.slotExpiresAt uid - now + 500) / 1000 else -2

def withinRingingGrace (cfg : VideoConfig) (ttl : ℤ) : Bool :=
  decide (0 < ttl ∧ activeCallSlotTtlSeconds - cfg.ringingSlotGraceSeconds ≤ ttl)

def sessionLive (uid : String) (c : CallSession) : Bool :=
  ((!c.creatorFirebaseUid.isEmpty && c.creatorFirebaseUid == uid) ||
    (!c.userFirebaseUid.isEmpty && c.userFirebaseUid == uid)) &&
    isNonTerminalLifecycle c.lifecycleState

def CallDoc.inProgress (call : CallDoc) : Bool :=
  call.status == .ringing || call.status == .accepted || !call.isSettled

/-- `isCreatorActiveCallSlotLive` when all its reads are made at one moment. -/
def VideoStore.slotLive (cfg : VideoConfig) (s : VideoStore) (now : ℤ) (slotCallId uid : String) :
    Bool :=
  !(s.keys (.ending slotCallId) || s.keys (.pendingEnd slotCallId) ||
      s.keys (.terminal slotCallId)) &&
    match s.session slotCallId with
    | some c => sessionLive uid c
    | none =>
      match s.calls slotCallId with
      | some call => call.inProgress
      | none => s.keys (.snapshot slotCallId uid) || withinRingingGrace cfg (s.slotTtl now uid)

/-! ### Answers and commands -/

structure Participants where
  callerUid : String
  creatorUid : String

/-- The environment's answer to a command; `now` is the time when it is executed. -/
structure VideoReply where
  delivered : Bool
  answered : Bool
  now : ℤ
  /-- `isNewCallAdmissionBlocked` is false, and the process is not shutting down. -/
  admitted : Bool
  billing : BillingReply
  view : Settlement.RuntimeView
  /-- `resolveParticipantsFromPayload`. -/
  participants : Option Participants
  /-- The Firebase UIDs and the creator profile of the call's users. -/
  creatorUid : Option String
  callerUid : Option String
  creatorMongoId : Option String
  /-- `getAvailability` is `online`. -/
  creatorOnline : Bool
  price : PriceSnapshot
  /-- The session that `resolveBillingRuntimeState` rebuilds. -/
  rehydrated : Option CallSession
  /-- An explicit end finds an active session, and another instance bills it. -/
  sessionActive : Bool
  ownedElsewhere : Bool

namespace VideoReply

/-- A caller sees a failed call unless the command was delivered and its answer came back. -/
def ok (r : VideoReply) : Bool := r.delivered && r.answered

def toActive (r : VideoReply) : ActiveCallReply :=
  ⟨r.delivered, r.answered, r.now, r.admitted, r.billing⟩

def toSettlement (r : VideoReply) : SettlementReply := ⟨r.delivered, r.answered, r.now, r.view⟩

end VideoReply

/-- `CallStatusTransitionOptions.source`: who saves a call. -/
inductive SaveSource where
  | finalizer
  | deferredEnd
  | callEnded
  | sessionStarted
  | sessionEnded
  | byId
  deriving DecidableEq

/-- Why a slot is deleted: the slot module found it stale, the overlap check found no session of its
call, or its call is dead-lettered. -/
inductive ClearSource where
  | stale
  | conflict
  | deadLetter

inductive VideoCmd where
  | query
  /-- The read of a slot that may be deleted next. -/
  | readSlot (uid : String)
  /-- `SETEX`, `SET … NX` and `DEL`. -/
  | setKey (k : VideoKey)
  | claimKey (k : VideoKey)
  | delKey (k : VideoKey)
  /-- The `SET` of `markCreatorBusyForCall`. -/
  | setSlot (callId uid : String)
  /-- A `DEL` of a slot while an event of the call is handled. -/
  | delSlot (source : ClearSource) (callId uid : String)
  /-- `Call.create`. -/
  | createCall (callId : String) (call : CallDoc)
  /-- `save()` of a document that was loaded earlier. -/
  | saveCall (source : SaveSource) (callId : String) (loaded call : CallDoc)
  /-- The `Call.updateOne` of a promotion, which inserts the call when there is none. -/
  | upsertCall (callId : String)
  /-- `resolveBillingRuntimeState`. -/
  | rehydrate (callId : String)
  | settlement (callId : String) (c : SettlementCmd)
  | start (callId : String) (c : ActiveCallCmd)
  | expireKey (k : VideoKey)
  | expireSlot (uid : String)

/-! ### What a command does -/

def noPrice : PriceSnapshot := ⟨none, none⟩

def VideoStore.insertCall (s : VideoStore) (callId : String) (call : CallDoc) : VideoStore :=
  if (s.calls callId).isSome = true then s
  else (s.setCall callId (some call)).setSettlement callId
    { s.settlement callId with call := some ⟨none, 0, none⟩ }

/-- The slots that a reservation sets expire in two hours. -/
def VideoStore.renewSlot (s : VideoStore) (now : ℤ) (uid : String) : VideoStore :=
  { s with slotExpiresAt :=
      Function.update s.slotExpiresAt uid (now + activeCallSlotTtlSeconds * 1000) }

def VideoStore.recordSession (s : VideoStore) (callId : String) : VideoStore :=
  { s with hadSession := Function.update s.hadSession callId true }

/-- What a delivered command of a start changes outside its part of the store. -/
def startEffect (r : VideoReply) (s : VideoStore) : ActiveCallCmd → VideoStore
  | .reserve callId p =>
    if s.start.reservable callId p = true then (s.renewSlot r.now p.1).renewSlot r.now p.2 else s
  | .billing callId c =>
    match c with
    | .persistSession _ | .persistAll .. => s.recordSession callId
    | _ => s
  | _ => s

/-- What a delivered command of a settlement changes outside its part of the store. -/
def settlementEffect (s : VideoStore) (callId : String) : SettlementCmd → VideoStore
  | .markCallSettled _ =>
    s.setCall callId ((s.calls callId).map fun call => { call with isSettled := true })
  | .commitSettlement => { s with committed := Function.update s.committed callId true }
  | _ => s

def effect (r : VideoReply) (s : VideoStore) : VideoCmd → VideoStore
  | .query | .readSlot _ => s
  | .setKey k | .claimKey k => s.setKey k true
  | .delKey k | .expireKey k => s.setKey k false
  | .setSlot callId uid => (s.setStart (s.start.setSlot uid (some callId))).renewSlot r.now uid
  | .delSlot _ _ uid | .expireSlot uid => s.setStart (s.start.setSlot uid none)
  | .createCall callId call => s.insertCall callId call
  | .saveCall _ callId loaded call => s.setCall callId ((s.calls callId).map (loaded.save call))
  | .upsertCall callId => s.insertCall callId (newCall .ringing noPrice)
  | .rehydrate callId =>
    match s.session callId, r.rehydrated with
    | none, some c => (s.setStart (s.start.setSession callId (some c))).recordSession callId
    | _, _ => s
  | .settlement callId c =>
    (settlementEffect s callId c).setSettlement callId
      (Settlement.effect r.toSettlement (s.settlement callId) c)
  | .start _ c => (startEffect r s c).setStart (ActiveCall.effect r.toActive s.start c)

/-- What a command does.  The bookkeeping of a start is no command that could be lost. -/
def exec (c : VideoCmd) (r : VideoReply) (s : VideoStore) : VideoStore :=
  match c with
  | .start _ (.finish callId p) =>
    s.setStart (ActiveCall.effect r.toActive s.start (.finish callId p))
  | _ => if r.delivered = true then effect r s c else s

theorem exec_cases (s : VideoStore) (c : VideoCmd) (r : VideoReply) :
    exec c r s = s ∨ (r.delivered = true ∧ exec c r s = effect r s c) ∨
      ∃ id l, exec c r s = s.setStart (s.start.setStarting id l) := by
  have hdelivered : (if r.delivered = true then effect r s c else s) = s ∨
      (r.delivered = true ∧ (if r.delivered = true then effect r s c else s) = effect r s c) := by
    by_cases hr : r.delivered = true
    · exact .inr ⟨hr, if_pos hr⟩
    · exact .inl (if_neg hr)
  cases c with
  | start callId c =>
    cases c with
    | finish id p => exact .inr (.inr ⟨_, _, rfl⟩)
    | _ => exact hdelivered.imp_right .inl
  | _ => exact hdelivered.imp_right .inl

/-! ### Programs -/

abbrev VideoFlow (α : Type) : Type := Flow VideoCmd VideoReply VideoStore α

def run (c : VideoCmd) : VideoFlow (VideoReply × VideoStore) :=
  Flow.call VideoReply.ok "store unavailable" c

/-- A command whose failure is caught and ignored. -/
def quiet (c : VideoCmd) : VideoFlow (VideoReply × VideoStore) :=
  Flow.call (fun _ => true) "" c

/-- `Date.now()`. -/
def dateNow : VideoFlow ℤ := do
  let (r, _) ← quiet .query
  pure r.now

def onSettlement {α : Type} (callId : String) (p : Settlement.SettlementFlow α) : VideoFlow α :=
  ExceptT.mk (p.run.focus (.settlement callId) VideoReply.toSettlement
    (fun s : VideoStore => s.settlement callId))

def onStart {α : Type} (callId : String) (p : ActiveCallFlow α) : VideoFlow α :=
  ExceptT.mk (p.run.focus (.start callId) VideoReply.toActive VideoStore.start)

end VibemeetBackend.Video
