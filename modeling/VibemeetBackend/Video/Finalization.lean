import VibemeetBackend.Video.Slots

/-!
# The end of a call

`call-finalization.service.ts`: `finalizeCallEnd` under its lock, the deferred end and the end that
is delegated to the retry queue.  The billing flush, the durable session's `ending` state, the VIP
queue and the release of the creator's document are other stores.
-/

namespace VibemeetBackend.Video

open Async Settlement

variable (cfg : VideoConfig)

structure EndTokens where
  inflightToken : String
  ownerToken : String

/-- `isFinalizeSettlementComplete` of the `finalizeCallSession` of an explicit end. -/
def settleExplicitEnd (callId : String) (t : EndTokens) : VideoFlow Bool := do
  let status ← onSettlement callId
    (finalizeCallSession cfg.settlement ⟨none, none⟩ t.inflightToken t.ownerToken)
  match status with
  | .settled => pure true
  | .duplicate => onSettlement callId (isCallBillingAlreadySettled cfg.settlement)
  | .pendingRetry | .deadLettered => pure false

def projectEnding (callId : String) (hasSession : Bool) : VideoFlow Unit :=
  onSettlement callId
    (if cfg.settlement.billingOutboxProjectionEnabled = true ∧ hasSession = true then
      enqueueCallBillingProjectionEvent cfg.settlement .ending
    else upsertPendingCallHistoryOnEnding cfg.settlement)

/-- `finalizeCallEnd` with a call record. -/
def finalizeCall (callId : String) (t : EndTokens) (call : CallDoc) : VideoFlow Unit := do
  finalizeCreatorAvailabilityForCall cfg callId
  let now ← dateNow
  let ended := transitionCallStatus now .ended call
  let _ ← run .query
  let (r, s) ← run (.rehydrate callId)
  projectEnding cfg callId (s.session callId <|> r.rehydrated).isSome
  let settlementComplete ← settleExplicitEnd cfg callId t
  let _ ← run (.saveCall .finalizer callId call
    (if settlementComplete = true then { ended with isSettled := true } else ended))
  if settlementComplete = true then
    let _ ← run (.setKey (.finalizeDone callId))

/-- `finalizeCallEnd` with its lock. -/
def finalizeLocked (callId : String) (t : EndTokens) : VideoFlow Unit := do
  let (_, s) ← run .query
  match s.calls callId with
  | some call => finalizeCall cfg callId t call
  | none => do
    let settlementComplete ← settleExplicitEnd cfg callId t
    if settlementComplete = true then
      let _ ← run (.setKey (.finalizeDone callId))

def finalizeCallEnd (callId : String) (t : EndTokens) : VideoFlow Unit :=
  if cfg.finalizerLogOnly = true then pure ()
  else do
    let (_, s) ← run .query
    if s.keys (.finalizeDone callId) = true then do
      let _ ← Flow.attempt (restoreCreatorPresenceForEndedCall cfg callId)
      pure ()
    else do
      let (_, s) ← run (.claimKey (.finalizeLock callId))
      if s.keys (.finalizeLock callId) = true then do
        let _ ← Flow.attempt (restoreCreatorPresenceForEndedCall cfg callId)
        pure ()
      else do
        let result ← Flow.attempt (finalizeLocked cfg callId t)
        let _ ← quiet (.delKey (.finalizeLock callId))
        ExceptT.mk (pure result)

def markCallEndingForDeferredEnd (callId : String) : VideoFlow Unit := do
  let _ ← run (.setKey (.ending callId))
  let (_, s) ← run .query
  match s.calls callId with
  | none => pure ()
  | some call =>
    if call.status = .ended then pure ()
    else do
      let now ← dateNow
      let _ ← run (.saveCall .deferredEnd callId call (transitionCallStatus now .ended call))
      pure ()

def delegateCallEndSettlementToRetry (callId : String) : VideoFlow Unit := do
  markCallEndingForDeferredEnd callId
  let (_, s) ← run .query
  if (s.calls callId).isSome = true then finalizeCreatorAvailabilityForCall cfg callId
  else restoreCreatorPresenceForEndedCall cfg callId
  onSettlement callId (enqueueImmediateSettlementRetry cfg.settlement ⟨none, none⟩)

/-- An explicit end: `settleCallHttp`, and `call:ended` of the socket gateway. -/
def endExplicitly (callId : String) (t : EndTokens) : VideoFlow Unit := do
  let (r, _) ← run (.rehydrate callId)
  if r.sessionActive = false then do
    markCallEndingForDeferredEnd callId
    let _ ← run (.setKey (.pendingEnd callId))
    let _ ← Flow.attempt (restoreCreatorPresenceForEndedCall cfg callId)
    pure ()
  else if r.ownedElsewhere = true then delegateCallEndSettlementToRetry cfg callId
  else finalizeCallEnd cfg callId t

end VibemeetBackend.Video
