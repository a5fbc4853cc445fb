import VibemeetBackend.Billing.Promote

/-!
# The start of a billing session

What `startBillingSession` of `billing.service.ts` persists once it holds the locks and the slots of
the call: an early session without a price, its promotion, and the session made active.
-/

namespace VibemeetBackend.Billing

open Async

structure StartRequest where
  userFirebaseUid : String
  creatorFirebaseUid : String
  creatorMongoId : String

def earlySession (cfg : BillingConfig) (q : StartRequest) (seedStartTime : ℤ) : CallSession :=
  CallSession.normalizeV4
    { schemaVersion := billingSessionSchemaVersion
      initialIntroMicros := some 0
      initialWalletMicros := some 0
      billingPricePerSecondMicros := some 0
      introPromoActive := some false
      totalIntroDeductedMicros := some 0
      totalWalletDeductedMicros := some 0
      userFirebaseUid := q.userFirebaseUid
      creatorFirebaseUid := q.creatorFirebaseUid
      userMongoId := ""
      creatorMongoId := q.creatorMongoId
      pricePerMinute := 0
      pricePerSecondMicros := 0
      creatorEarningsPerSecondMicros := some 0
      startTime := seedStartTime
      lastProcessedAt := seedStartTime
      version := 0
      billingSequence := 0
      lifecycleState := some .starting
      totalDeductedMicros := 0
      totalEarnedMicros := 0
      elapsedSeconds := 0
      effectiveDurationLimitSeconds := some cfg.maxCallDurationSeconds
      lastCheckpointAtMs := 0
      lastCheckpointDeductedMicros := none
      lastCheckpointEarnedMicros := none
      lastEmitAtMs := none
      lastSocketEmitAt := some seedStartTime
      pricePerSecond := 0
      creatorEarningsPerSecond := 0 }

/-- The promoted session once `billing:started` is about to be emitted. -/
def startedSession (s : CallSession) (now : ℤ) : CallSession :=
  { s with
    lifecycleState := some (transitionBillingState (s.lifecycleState.getD .init) .active).1
    billingSequence := 1
    lastSocketEmitAt := some now }

/-- How a start ends that persisted its early session. -/
inductive StartOutcome where
  | promoteFailed (reason : PromoteFailure)
  | pendingEnd (s : CallSession)
  | started (s : CallSession)

def activateSession (cfg : BillingConfig) (p : Promotion) : BillingProg StartOutcome := do
  let (r, _) ← issue .clock
  let s := startedSession p.session r.now
  let _ ← issue (.persistSession s)
  let (rp, _) ← issue .consumePendingEnd
  if rp.ok then return .pendingEnd s
  else if cfg.billingDeltaCursorV3Enabled then
    let _ ← issue (.upsertSnapshot (s.snapshot p.spendableMicros))
    return .started s
  else return .started s

/-- The persistence of `startBillingSession`. -/
def startSession (cfg : BillingConfig) (q : StartRequest) : BillingProg StartOutcome := do
  let (r, _) ← issue .clock
  let early := earlySession cfg q r.now
  let _ ← issue (.persistAll .earlySeed early 0 0 0)
  let result ← promoteBootstrappingSession cfg early
    { preserveStartTime := false, preserveRuntimeBalances := false }
  match result with
  | .error reason => return .promoteFailed reason
  | .ok p => activateSession cfg p

end VibemeetBackend.Billing
