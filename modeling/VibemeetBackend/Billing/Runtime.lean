import VibemeetBackend.Billing.SettleTransaction
import VibemeetBackend.Billing.Store

/-!
# What survives the Redis keys of a call

The durable call session and the ledger next to the checkpoint, and the code that reads billed
totals from whichever of them is left: `billing-settlement-totals.service.ts` and the part of
`settleCall` before its first transaction.

`INCREMENTAL_BILLING_PERSIST_ENABLED` is off, as it is by default: `settleCall` takes the totals of
the session and not of the ledger.
-/

namespace VibemeetBackend.Billing

/-- `DurableCallSessionState`. -/
inductive DurableState where
  | active
  | reconnecting
  | ending
  | settling
  | settled
  | failedSettlement
  deriving DecidableEq

structure DurableCallSession where
  callerId : String
  creatorId : String
  callerFirebaseUid : String
  creatorFirebaseUid : String
  state : DurableState
  lastServerAccrualAt : ℤ
  serverStartedAt : ℤ
  accumulatedDurationSec : ℤ
  totalUserDebitedMicros : ℤ
  totalCreatorCreditedMicros : ℤ
  billingSequence : ℤ
  settlementVersion : ℤ
  finalized : Bool
  pricePerMinute : Option ℤ
  pricePerSecondMicros : Option ℤ

def createDurableCallSessionAtStart (s : CallSession) (creatorUserId : Option String) (now : ℤ) :
    DurableCallSession where
  callerId := s.userMongoId
  creatorId := creatorUserId.getD s.creatorMongoId
  callerFirebaseUid := s.userFirebaseUid
  creatorFirebaseUid := s.creatorFirebaseUid
  state := .active
  lastServerAccrualAt := now
  serverStartedAt := now
  accumulatedDurationSec := 0
  totalUserDebitedMicros := 0
  totalCreatorCreditedMicros := 0
  billingSequence := 0
  settlementVersion := 0
  finalized := false
  pricePerMinute := some s.pricePerMinute
  pricePerSecondMicros := some s.pricePerSecondMicros

/-- `mirrorRedisSessionToDurableCallSession`: a finalized document is not touched. -/
def DurableCallSession.mirror (doc : DurableCallSession) (s : CallSession) (now : ℤ) :
    DurableCallSession :=
  if doc.finalized then doc
  else
    { doc with
      lastServerAccrualAt := now
      accumulatedDurationSec := max 0 s.elapsedSeconds
      totalUserDebitedMicros := max 0 s.totalDeductedMicros
      totalCreatorCreditedMicros := max 0 s.totalEarnedMicros
      billingSequence := max 0 s.billingSequence }

/-- `sumLedgerForCall`. -/
structure LedgerSum where
  userDebitMicros : ℤ
  creatorCreditMicros : ℤ
  tickCount : ℕ

structure RuntimeStore extends BillingStore where
  durable : Option DurableCallSession
  ledger : LedgerSum
  /-- `callSessionTerminalKey`, and whether its snapshot parses. -/
  terminal : Option Bool

def RuntimeStore.loseKeys (st : RuntimeStore) : RuntimeStore :=
  { st with
    session := none
    introMicros := none
    walletMicros := none
    legacyCoins := none
    earnings := none
    settled := false
    terminal := none }

/-! ### Authoritative totals -/

/-- `AuthoritativeTotalsSource`. -/
inductive TotalsSource where
  | redis
  | durable
  | ledger
  | checkpoint
  | none
  deriving DecidableEq

/-- `AuthoritativeSettlementTotals`. -/
structure AuthoritativeTotals where
  totalDeductedMicros : ℤ
  totalEarnedMicros : ℤ
  billingSequence : ℤ
  source : TotalsSource

def AuthoritativeTotals.of (deducted earned sequence : ℤ) (source : TotalsSource) :
    AuthoritativeTotals :=
  ⟨max 0 deducted, max 0 earned, max 0 sequence, source⟩

def AuthoritativeTotals.ran (t : AuthoritativeTotals) : Bool :=
  0 < t.totalDeductedMicros || 0 < t.totalEarnedMicros || 0 < t.billingSequence

/-- The totals of each source that has any, in order of priority. -/
def totalsCandidates (cfg : BillingConfig) (st : RuntimeStore) : List AuthoritativeTotals :=
  let redis := st.session.map fun s =>
    AuthoritativeTotals.of s.totalDeductedMicros s.totalEarnedMicros s.billingSequence .redis
  let durable := (st.durable.filter fun _ => cfg.durableCallSessionEnabled).map fun doc =>
    AuthoritativeTotals.of doc.totalUserDebitedMicros doc.totalCreatorCreditedMicros
      doc.billingSequence .durable
  let ledger :=
    if 0 < st.ledger.tickCount then
      some (AuthoritativeTotals.of st.ledger.userDebitMicros st.ledger.creatorCreditMicros
        st.ledger.tickCount .ledger)
    else none
  let checkpoint := st.checkpoint.map fun cp =>
    AuthoritativeTotals.of cp.totalDeductedMicros cp.totalEarnedMicros cp.billingSequence
      .checkpoint
  (redis.filter (·.ran)).toList ++ (durable.filter (·.ran)).toList ++ ledger.toList ++
    checkpoint.toList

def resolveAuthoritativeSettlementTotals (cfg : BillingConfig) (st : RuntimeStore) :
    AuthoritativeTotals :=
  (totalsCandidates cfg st).headD ⟨0, 0, 0, .none⟩

def applyAuthoritativeTotalsToSession (s : CallSession) (totals : AuthoritativeTotals) :
    CallSession :=
  let deduct := max s.totalDeductedMicros totals.totalDeductedMicros
  let earn := max s.totalEarnedMicros totals.totalEarnedMicros
  let price := max 0 s.pricePerSecondMicros
  if totals.source = .none ∨ (deduct = s.totalDeductedMicros ∧ earn = s.totalEarnedMicros) then s
  else
    { s with
      totalDeductedMicros := deduct
      totalEarnedMicros := earn
      billingSequence := max s.billingSequence totals.billingSequence
      elapsedSeconds := if 0 < price then deduct / price else s.elapsedSeconds }

theorem apply_ge (s : CallSession) (totals : AuthoritativeTotals) :
    s.totalDeductedMicros ≤ (applyAuthoritativeTotalsToSession s totals).totalDeductedMicros ∧
      s.totalEarnedMicros ≤ (applyAuthoritativeTotalsToSession s totals).totalEarnedMicros := by
  grind [applyAuthoritativeTotalsToSession]

theorem apply_frame (s : CallSession) (totals : AuthoritativeTotals) :
    ∃ d e q el, applyAuthoritativeTotalsToSession s totals =
      { s with totalDeductedMicros := d, totalEarnedMicros := e, billingSequence := q,
               elapsedSeconds := el } := by
  unfold applyAuthoritativeTotalsToSession
  dsimp only
  split
  · exact ⟨_, _, _, _, rfl⟩
  · exact ⟨_, _, _, _, rfl⟩

/-! ### What a settlement reads -/

def buildSettlementSessionFromCheckpoint (cp : Checkpoint) (now : ℤ) : CallSession :=
  let price := max 0 cp.pricePerSecondMicros
  let startTimeMs := numOr cp.startTimeMs now
  let totalDeductedMicros := max 0 cp.totalDeductedMicros
  { schemaVersion := billingSessionSchemaVersion
    initialIntroMicros := none
    initialWalletMicros := none
    billingPricePerSecondMicros := none
    introPromoActive := none
    totalIntroDeductedMicros := none
    totalWalletDeductedMicros := none
    userFirebaseUid := cp.userFirebaseUid
    creatorFirebaseUid := cp.creatorFirebaseUid
    userMongoId := cp.userMongoId
    creatorMongoId := cp.creatorMongoId
    pricePerMinute := if 0 < price then mathRound ((price * 60 : ℚ) / coinMicros) else 0
    pricePerSecondMicros := price
    creatorEarningsPerSecondMicros := some (max 0 cp.creatorEarningsPerSecondMicros)
    startTime := startTimeMs
    lastProcessedAt := numOr cp.lastProcessedAtMs startTimeMs
    version := 0
    billingSequence := 0
    lifecycleState := none
    totalDeductedMicros
    totalEarnedMicros := max 0 cp.totalEarnedMicros
    elapsedSeconds := if 0 < price then totalDeductedMicros / price else 0
    effectiveDurationLimitSeconds := none
    lastCheckpointAtMs := 0
    lastCheckpointDeductedMicros := none
    lastCheckpointEarnedMicros := none
    lastEmitAtMs := none
    lastSocketEmitAt := none
    pricePerSecond := 0
    creatorEarningsPerSecond := 0 }

/-- The session that `settleCall` works with: the live one, or a rebuild from the checkpoint. -/
def settlementSession (cfg : BillingConfig) (st : RuntimeStore) (now : ℤ) : Option CallSession :=
  match st.session with
  | some s => some s
  | none =>
    if cfg.billingDeltaCursorV3Enabled then
      (st.checkpoint.filter Checkpoint.hasIdentities).map
        fun cp => buildSettlementSessionFromCheckpoint cp now
    else none

/-- What `settleCall` computes from its session and the authoritative totals.  `earningsRaw` is the
earnings key, which only sessions without authoritative totals are paid by. -/
def settleInputOf (s : CallSession) (totals : AuthoritativeTotals) (earningsRaw : ℤ) :
    SettleInput :=
  let merged := applyAuthoritativeTotalsToSession s totals
  let introDeductedMicros := max 0 (s.totalIntroDeductedMicros.getD 0)
  let walletDeductedMicros :=
    s.totalWalletDeductedMicros.getD (max 0 (merged.totalDeductedMicros - introDeductedMicros))
  let legacy := totals.source = .none ∧ s.schemaVersion < billingSessionSchemaVersion ∧
    s.pricePerSecond ≠ 0
  { introPromoActive := s.introPromoActive == some true
    introDeductedMicros
    walletDeductedMicros
    totalDeductedMicros :=
      if legacy then mathRound (max 0 s.elapsedSeconds * s.pricePerSecond * coinMicros)
      else merged.totalDeductedMicros
    totalEarnedMicros :=
      if legacy then mathRound ((earningsRaw * coinMicros : ℚ) / legacyEarningsMicroFactor)
      else merged.totalEarnedMicros
    durationSeconds := merged.elapsedSeconds.toNat }

def settleInput (cfg : BillingConfig) (st : RuntimeStore) (now : ℤ) : Option SettleInput :=
  (settlementSession cfg st now).map fun s =>
    settleInputOf s (resolveAuthoritativeSettlementTotals cfg st) (st.earnings.getD 0)

end VibemeetBackend.Billing
