import VibemeetBackend.Billing.Constants
import VibemeetBackend.Billing.Lifecycle

/-!
# Billing sessions

The session record of `billing.service.ts`, as it is stored under the session key, and the functions
that read a stored record: `normalizeV4SessionFields`, `migrateSession`, `needsFullSessionBootstrap`.

A field that a writer may leave out is an `Option`.  A numeric field that every reader defaults to
zero is a number, and a string that every reader defaults to the empty string is a string.
-/

namespace VibemeetBackend.Billing

/-- The characters that `trim` removes. -/
def isTrimmed (c : Char) : Bool :=
  let n := c.toNat
  (9 ≤ n && n ≤ 13) || n == 32 || n == 0xA0 || n == 0x1680 || (0x2000 ≤ n && n ≤ 0x200A) ||
    n == 0x2028 || n == 0x2029 || n == 0x202F || n == 0x205F || n == 0x3000 || n == 0xFEFF

/-- `x.trim()`. -/
def trim (x : String) : String :=
  String.ofList ((x.toList.dropWhile isTrimmed).reverse.dropWhile isTrimmed).reverse

/-- `!x.trim()`. -/
def isBlank (x : String) : Bool := x.toList.all isTrimmed

structure BillingConfig where
  billingDeltaCursorV3Enabled : Bool
  durableCallSessionEnabled : Bool
  /-- `MAX_BILLING_DELTA_MS`, at least 500 whatever the environment says. -/
  maxBillingDeltaMs : ℤ
  maxBillingDelta_ge : 500 ≤ maxBillingDeltaMs
  maxCallDurationSeconds : ℤ
  defaultUserCallDurationSeconds : ℤ
  defaultCreatorCallDurationSeconds : ℤ
  billingCheckpointIntervalMs : ℤ
  billingCheckpointEverySequences : ℤ
  billingCheckpointMinDeltaMicros : ℤ
  freeCallEnabled : Bool
  freeCallDurationSeconds : ℕ
  minCoinsToCall : ℤ

structure CallSession where
  schemaVersion : ℤ
  initialIntroMicros : Option ℤ
  initialWalletMicros : Option ℤ
  billingPricePerSecondMicros : Option ℤ
  introPromoActive : Option Bool
  totalIntroDeductedMicros : Option ℤ
  totalWalletDeductedMicros : Option ℤ
  userFirebaseUid : String
  creatorFirebaseUid : String
  userMongoId : String
  creatorMongoId : String
  pricePerMinute : ℤ
  pricePerSecondMicros : ℤ
  creatorEarningsPerSecondMicros : Option ℤ
  startTime : ℤ
  lastProcessedAt : ℤ
  version : ℤ
  billingSequence : ℤ
  lifecycleState : Option Lifecycle
  totalDeductedMicros : ℤ
  totalEarnedMicros : ℤ
  elapsedSeconds : ℤ
  effectiveDurationLimitSeconds : Option ℤ
  lastCheckpointAtMs : ℤ
  lastCheckpointDeductedMicros : Option ℤ
  lastCheckpointEarnedMicros : Option ℤ
  lastEmitAtMs : Option ℤ
  lastSocketEmitAt : Option ℤ
  pricePerSecond : ℚ
  /-- Coins per second to the creator of schema version 1. -/
  creatorEarningsPerSecond : ℚ

namespace CallSession

variable (s : CallSession)

/-- The rate a tick charges: `billingPricePerSecondMicros ?? pricePerSecondMicros`. -/
def billingPrice : ℤ := s.billingPricePerSecondMicros.getD s.pricePerSecondMicros

/-- `normalizeV4SessionFields`. -/
def normalizeV4 : CallSession :=
  let lifecycleState := s.lifecycleState.getD .init
  { s with
    introPromoActive := some (s.introPromoActive.getD false)
    initialIntroMicros := some (s.initialIntroMicros.getD 0)
    initialWalletMicros := some (s.initialWalletMicros.getD 0)
    billingPricePerSecondMicros := some s.billingPrice
    totalIntroDeductedMicros := some (s.totalIntroDeductedMicros.getD 0)
    totalWalletDeductedMicros := some (s.totalWalletDeductedMicros.getD 0)
    billingSequence := max 0 s.billingSequence
    lifecycleState :=
      if lifecycleState = .init ∧ 0 < s.elapsedSeconds then
        some (transitionBillingState lifecycleState .active).1
      else some lifecycleState }

def needsFullSessionBootstrap : Bool :=
  s.version ≤ 0 || isBlank s.userMongoId || isBlank s.creatorMongoId

def isBootstrappingSession : Bool := s.needsFullSessionBootstrap || s.billingPrice ≤ 0

end CallSession

/-- `Number(x) || d`: zero counts as missing. -/
def numOr (x d : ℤ) : ℤ := if x = 0 then d else x

/-- The session of a record with schema version 1, whose totals are recomputed from its elapsed
seconds and its float prices. -/
def migrateV1 (cfg : BillingConfig) (raw : CallSession) (eRaw now : ℤ) : CallSession :=
  let pricePerSecondMicros := max 0 (mathRound (raw.pricePerSecond * coinMicros))
  let creatorEarningsPerSecondMicros := max 0 (mathRound (raw.creatorEarningsPerSecond * coinMicros))
  let elapsedSeconds := max 0 raw.elapsedSeconds
  let startTime := numOr raw.startTime now
  let earningsMicros := max 0 (mathRound ((eRaw * coinMicros : ℚ) / legacyEarningsMicroFactor))
  { schemaVersion := billingSessionSchemaVersion
    initialIntroMicros := none
    initialWalletMicros := none
    billingPricePerSecondMicros := none
    introPromoActive := none
    totalIntroDeductedMicros := none
    totalWalletDeductedMicros := none
    userFirebaseUid := raw.userFirebaseUid
    creatorFirebaseUid := raw.creatorFirebaseUid
    userMongoId := raw.userMongoId
    creatorMongoId := raw.creatorMongoId
    pricePerMinute := raw.pricePerMinute
    pricePerSecondMicros
    creatorEarningsPerSecondMicros := some creatorEarningsPerSecondMicros
    startTime
    lastProcessedAt := startTime + elapsedSeconds * 1000
    version := max 1 raw.version
    billingSequence := max 0 raw.billingSequence
    lifecycleState := some (raw.lifecycleState.getD .active)
    totalDeductedMicros := elapsedSeconds * pricePerSecondMicros
    totalEarnedMicros := earningsMicros
    elapsedSeconds
    effectiveDurationLimitSeconds :=
      some (numOr (raw.effectiveDurationLimitSeconds.getD 0) cfg.maxCallDurationSeconds)
    lastCheckpointAtMs := raw.lastCheckpointAtMs
    lastCheckpointDeductedMicros := raw.lastCheckpointDeductedMicros
    lastCheckpointEarnedMicros := raw.lastCheckpointEarnedMicros
    lastEmitAtMs := none
    lastSocketEmitAt := some (raw.lastSocketEmitAt.getD 0)
    pricePerSecond := 0
    creatorEarningsPerSecond := 0 }

def migrateSession (cfg : BillingConfig) (raw : CallSession) (earningsRaw : Option ℤ) (now : ℤ) :
    CallSession × ℤ :=
  let eRaw := earningsRaw.getD 0
  if billingSessionSchemaVersion ≤ raw.schemaVersion then (raw.normalizeV4, max 0 eRaw)
  else if raw.schemaVersion = 3 ∨ raw.schemaVersion = 2 then
    ({ raw with schemaVersion := billingSessionSchemaVersion }.normalizeV4, max 0 eRaw)
  else
    ((migrateV1 cfg raw eRaw now).normalizeV4,
      max 0 (mathRound ((eRaw * coinMicros : ℚ) / legacyEarningsMicroFactor)))

/-! ### What normalization keeps -/

@[simp] theorem normalizeV4_totalWalletDeductedMicros (s : CallSession) :
    s.normalizeV4.totalWalletDeductedMicros = some (s.totalWalletDeductedMicros.getD 0) := rfl

theorem nonTerminal_normalizeV4 (s : CallSession) :
    isNonTerminalLifecycle s.normalizeV4.lifecycleState =
      isNonTerminalLifecycle s.lifecycleState := by
  unfold CallSession.normalizeV4
  cases s.lifecycleState with
  | none =>
    show isNonTerminalLifecycle (if _ then _ else _) = _
    split <;> rfl
  | some state =>
    show isNonTerminalLifecycle (if _ then _ else _) = _
    split
    · rename_i hinit
      rw [show state = .init from hinit.1]
      rfl
    · rfl

end VibemeetBackend.Billing
