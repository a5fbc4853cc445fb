import VibemeetBackend.Billing.Runtime
import VibemeetBackend.Billing.Tick

/-!
# The billing runtime resolver

`resolveBillingRuntimeState` of `billing-runtime-resolver.service.ts`: the session of a call from
Redis, or rebuilt from the durable call session or from the checkpoint.  A rebuild is stored under
the keys of the call.
-/

namespace VibemeetBackend.Billing

def mapDurableStateToLifecycle : DurableState → Lifecycle
  | .reconnecting => .recovering
  | .ending => .ending
  | .settling => .settling
  | .settled => .settled
  | .failedSettlement => .failedRecoverySettlement
  | .active => .active

/-- `buildSessionFromDurableCallSession`, for a document that is not finalized. -/
def sessionOfDurable (doc : DurableCallSession) : CallSession where
  schemaVersion := billingSessionSchemaVersion
  initialIntroMicros := none
  initialWalletMicros := none
  billingPricePerSecondMicros := none
  introPromoActive := none
  totalIntroDeductedMicros := none
  totalWalletDeductedMicros := none
  userFirebaseUid := doc.callerFirebaseUid
  creatorFirebaseUid := doc.creatorFirebaseUid
  userMongoId := doc.callerId
  creatorMongoId := doc.creatorId
  pricePerMinute := doc.pricePerMinute.getD 0
  pricePerSecondMicros := doc.pricePerSecondMicros.getD 0
  creatorEarningsPerSecondMicros := none
  startTime := doc.serverStartedAt
  lastProcessedAt := doc.lastServerAccrualAt
  version := doc.settlementVersion
  billingSequence := doc.billingSequence
  lifecycleState := some (mapDurableStateToLifecycle doc.state)
  totalDeductedMicros := doc.totalUserDebitedMicros
  totalEarnedMicros := doc.totalCreatorCreditedMicros
  elapsedSeconds := doc.accumulatedDurationSec
  effectiveDurationLimitSeconds := none
  lastCheckpointAtMs := 0
  lastCheckpointDeductedMicros := none
  lastCheckpointEarnedMicros := none
  lastEmitAtMs := none
  lastSocketEmitAt := none
  pricePerSecond := 0
  creatorEarningsPerSecond := 0

/-- The session of the resolver's `buildSessionFromCheckpoint`, before the authoritative totals. -/
def resolverSessionOfCheckpoint (cp : Checkpoint) (price rate now : ℤ) : CallSession :=
  let startTimeMs := numOr cp.startTimeMs now
  let lastProcessedAtMs := numOr cp.lastProcessedAtMs startTimeMs
  let totalDeductedMicros := max 0 cp.totalDeductedMicros
  { schemaVersion := billingSessionSchemaVersion
    initialIntroMicros := none
    initialWalletMicros := none
    billingPricePerSecondMicros := none
    introPromoActive := none
    totalIntroDeductedMicros := none
    totalWalletDeductedMicros := none
    userFirebaseUid := cp.userFirebaseUid
    creatorFirebaseUid := cp.creatorFirebaseUid
    userMongoId := cp.userMongoId
    creatorMongoId := cp.creatorMongoId
    pricePerMinute := if 0 < price then mathRound ((price * 60 : ℚ) / coinMicros) else 0
    pricePerSecondMicros := price
    creatorEarningsPerSecondMicros := some rate
    startTime := startTimeMs
    lastProcessedAt := lastProcessedAtMs
    version := max 1 cp.version
    billingSequence := max 0 cp.billingSequence
    lifecycleState := some cp.lifecycleState
    totalDeductedMicros
    totalEarnedMicros := max 0 cp.totalEarnedMicros
    elapsedSeconds := if 0 < price then totalDeductedMicros / price else 0
    -- a checkpoint document has no duration limit
    effectiveDurationLimitSeconds := none
    lastCheckpointAtMs := 0
    lastCheckpointDeductedMicros := none
    lastCheckpointEarnedMicros := none
    lastEmitAtMs := none
    lastSocketEmitAt := some lastProcessedAtMs
    pricePerSecond := 0
    creatorEarningsPerSecond := 0 }

/-- `ResolvedBillingRuntime['source']`. -/
inductive RuntimeSource where
  | redis
  | checkpoint
  | reconstructed
  | terminal
  | missing

structure ResolvedBillingRuntime where
  source : RuntimeSource
  session : Option CallSession
  introMicros : ℤ
  walletMicros : ℤ
  earningsMicros : ℤ

def ResolvedBillingRuntime.balanceMicros (r : ResolvedBillingRuntime) : ℤ :=
  r.introMicros + r.walletMicros

def ResolvedBillingRuntime.without (source : RuntimeSource) : ResolvedBillingRuntime :=
  ⟨source, none, 0, 0, 0⟩

/-- What the resolver finds outside the stores of the call: the clock and the creator's pricing. -/
structure ResolverEnv where
  now : ℤ
  pricing : Option Pricing

def redisRuntime (st : RuntimeStore) (s : CallSession) : ResolvedBillingRuntime where
  source := .redis
  session := some s
  introMicros := (liveBalances st.introMicros st.walletMicros st.legacyCoins).1
  walletMicros := (liveBalances st.introMicros st.walletMicros st.legacyCoins).2
  earningsMicros := max 0 (st.earnings.getD 0)

/-- The rebuild from a durable document: the amount already debited becomes the balance. -/
def reconstructedRuntime (st : RuntimeStore) (doc : DurableCallSession) :
    ResolvedBillingRuntime × RuntimeStore :=
  let s := sessionOfDurable doc
  let balance := max 0 s.totalDeductedMicros
  let earnings := max 0 s.totalEarnedMicros
  (⟨.reconstructed, some s, 0, balance, earnings⟩,
    { st with session := some s, walletMicros := some balance, earnings := some earnings })

def checkpointRuntime (cfg : BillingConfig) (env : ResolverEnv) (st : RuntimeStore)
    (cp : Checkpoint) : ResolvedBillingRuntime × RuntimeStore :=
  let pricing := backfilledPricing cp env.pricing
  let s := applyAuthoritativeTotalsToSession
    (resolverSessionOfCheckpoint cp pricing.1 pricing.2 env.now)
    (resolveAuthoritativeSettlementTotals cfg st)
  let balance := max 0 cp.remainingUserBalanceMicros
  let earnings := max 0 cp.totalEarnedMicros
  (⟨.checkpoint, some s, 0, balance, earnings⟩,
    { st with session := some s, introMicros := some 0, walletMicros := some balance,
              earnings := some earnings })

def liveDurable (cfg : BillingConfig) (st : RuntimeStore) : Option DurableCallSession :=
  st.durable.filter fun doc => cfg.durableCallSessionEnabled && !doc.finalized

def resolveBillingRuntimeState (cfg : BillingConfig) (env : ResolverEnv) (st : RuntimeStore) :
    ResolvedBillingRuntime × RuntimeStore :=
  match st.session, liveDurable cfg st, st.terminal,
      st.checkpoint.filter Checkpoint.hasIdentities with
  | some s, _, _, _ => (redisRuntime st s, st)
  | none, some doc, _, _ => reconstructedRuntime st doc
  | none, none, some true, _ => (.without .terminal, st)
  | none, none, _, some cp => checkpointRuntime cfg env st cp
  | none, none, _, none => (.without .missing, st)

end VibemeetBackend.Billing
