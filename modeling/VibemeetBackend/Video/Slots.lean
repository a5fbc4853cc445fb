import VibemeetBackend.Video.Store

/-!
# The active-call slot of a creator

`creator-active-call-slot.service.ts` and `creator-call-lock.service.ts`: when a slot counts as live,
who deletes it, and what marks a creator busy.  The presence keys, the creator's document and the
chat service are other stores.
-/

namespace VibemeetBackend.Video

open Async Billing ActiveCall

variable (cfg : VideoConfig)

/-- A flag that is read in a `catch`. -/
def readKey (k : VideoKey) : VideoFlow Bool := do
  let (r, s) ← quiet .query
  pure (r.ok && s.keys k)

def slotLiveByRecord (slotCallId uid : String) : VideoFlow Bool :=
  tryCatch (do
    let (_, s) ← run .query
    match s.calls slotCallId with
    | some call => pure call.inProgress
    | none => do
      let (r, s) ← quiet .query
      let ttl := if r.ok = true then s.slotTtl r.now uid else -2
      if (← readKey (.snapshot slotCallId uid)) = true then pure true
      else pure (withinRingingGrace cfg ttl)) fun _ => pure true

def isCreatorActiveCallSlotLive (slotCallId uid : String) : VideoFlow Bool := do
  let ending ← readKey (.ending slotCallId)
  let pendingEnd ← readKey (.pendingEnd slotCallId)
  if (ending || pendingEnd) = true then pure false
  else if (← readKey (.terminal slotCallId)) = true then pure false
  else do
    let (r, s) ← quiet .query
    match if r.ok = true then s.session slotCallId else none with
    | some c => pure (sessionLive uid c)
    | none => slotLiveByRecord cfg slotCallId uid

/-- `ClearCreatorActiveCallSlotResult.reason`. -/
inductive SlotClear where
  | noSlot
  | endingCallMatch
  | slotNotLive
  | slotStillLive
  deriving DecidableEq

def clearCreatorActiveCallSlotIfStale (callId uid : String) (endingCallId : Option String) :
    VideoFlow SlotClear := do
  let (_, s) ← run (.readSlot uid)
  match s.slot uid with
  | none => pure .noSlot
  | some slotCallId =>
    if endingCallId = some slotCallId then do
      let _ ← quiet (.delSlot .stale callId uid)
      pure .endingCallMatch
    else if (← isCreatorActiveCallSlotLive cfg slotCallId uid) = true then pure .slotStillLive
    else do
      let _ ← quiet (.delSlot .stale callId uid)
      pure .slotNotLive

def transitionCreatorPresence (callId uid : String) : VideoFlow Unit := do
  let _ ← run .query
  let _ ← clearCreatorActiveCallSlotIfStale cfg callId uid none
  let _ ← run .query
  pure ()

def markCreatorBusyForCall (callId uid : String) (phase : BusyPhase) : VideoFlow Unit :=
  tryCatch (do
    let (_, s) ← run (.claimKey (.busyPhase callId phase))
    if s.keys (.busyPhase callId phase) = true then pure ()
    else do
      -- `snapshotPreCallAvailability`
      let _ ← quiet (.claimKey (.snapshot callId uid))
      let _ ← run (.setSlot callId uid)
      pure ()) fun _ => pure ()

/-- The restore of `finalizeCreatorAvailabilityForCall`, unless the slot is of a newer call. -/
def restoreAvailability (callId uid : String) : VideoFlow Unit := do
  let (_, before) ← run .query
  let result ← clearCreatorActiveCallSlotIfStale cfg callId uid (some callId)
  if result ≠ .noSlot then
    let _ ← run .query
  if (before.slot uid).isSome = true ∧ before.slot uid ≠ some callId ∧ result = .slotStillLive then
    pure ()
  else do
    let _ ← run .query
    if cfg.enforceAvailabilityWrites = true then transitionCreatorPresence cfg callId uid
    let _ ← run (.delKey (.snapshot callId uid))
    pure ()

def finalizeCreatorAvailabilityForCall (callId : String) : VideoFlow Unit :=
  tryCatch (do
    let (r, _) ← run .query
    match r.creatorUid with
    | none => pure ()
    | some uid => restoreAvailability cfg callId uid) fun _ => pure ()

def restoreCreatorPresenceForEndedCall (callId : String) : VideoFlow Unit := do
  let (_, s) ← run .query
  if (s.calls callId).isSome = true then finalizeCreatorAvailabilityForCall cfg callId
  else do
    let (r, s) ← run (.rehydrate callId)
    match (s.session callId <|> r.rehydrated).filter (!·.creatorFirebaseUid.isEmpty) with
    | none => pure ()
    | some c => do
      let _ ← clearCreatorActiveCallSlotIfStale cfg callId c.creatorFirebaseUid (some callId)
      transitionCreatorPresence cfg callId c.creatorFirebaseUid

def clearSlotOfDeadLetter (callId uid : String) : VideoFlow Unit := do
  let (_, s) ← run (.readSlot uid)
  if (s.slot uid).isSome = true then do
    let _ ← quiet (.delSlot .deadLetter callId uid)
    pure ()
  else pure ()

end VibemeetBackend.Video
