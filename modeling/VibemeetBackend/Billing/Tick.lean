import VibemeetBackend.Billing.Promote

/-!
# A billing tick

`_processBillingCycleInternal` of `billing.service.ts` with the functions it calls: the rebuild from
a checkpoint, the pricing repair and the keepalive.  `processBillingTick` runs the cycle again when
it throws, so its runs are runs of the cycle one after the other, some of them cut short.

The cycle holds the session and the balances in a `TickState` and is written in the order of the
source: load, short circuit, ownership, migration, pricing, charge, checkpoint, persist, emit.
-/

namespace VibemeetBackend.Billing

open Async

inductive BillingTickResult where
  | tickOk
  | tickDeferred
  | stopNoSession
  | stopNeedsSettlement
  deriving DecidableEq

/-- What a cycle loads: a session, its balances and the creator's earnings. -/
structure LoadedState where
  session : CallSession
  introMicros : ℤ
  walletMicros : ℤ
  earningsMicros : ℤ

/-- The variables of a cycle.  The funding source and the creator's rate are read once, before a
repair may change the session. -/
structure TickState extends LoadedState where
  introPromoBilling : Bool
  /-- Of a session without a rate the source computes `NaN`, which its readers take for zero. -/
  creatorEarningsPerSecondMicros : ℤ

def LoadedState.enter (l : LoadedState) : TickState where
  toLoadedState := { l with session := l.session.normalizeV4 }
  introPromoBilling := l.session.introPromoActive == some true
  creatorEarningsPerSecondMicros := l.session.creatorEarningsPerSecondMicros.getD 0

namespace TickState

variable (t : TickState)

def balanceMicros : ℤ := t.introMicros + t.walletMicros

def activeSpendMicros : ℤ := if t.introPromoBilling then t.introMicros else t.walletMicros

def withSession (s : CallSession) : TickState := { t with session := s }

end TickState

/-! ### Loading -/

def backfilledPricing (cp : Checkpoint) (pricing : Option Pricing) : ℤ × ℤ :=
  let own := (max 0 cp.pricePerSecondMicros, max 0 cp.creatorEarningsPerSecondMicros)
  match pricing with
  | some p =>
    if own.1 ≤ 0 ∧ 0 < p.pricePerSecondMicros then
      ((p.pricePerSecondMicros : ℤ), (p.creatorEarningsPerSecondMicros : ℤ))
    else own
  | none => own

def checkpointPricing (cp : Checkpoint) : BillingProg (ℤ × ℤ) := do
  if cp.pricePerSecondMicros ≤ 0 then
    let (r, _) ← issue .getPricing
    return backfilledPricing cp r.pricing
  else return backfilledPricing cp none

/-- The session of `buildSessionFromCheckpoint`. -/
def sessionOfCheckpoint (cfg : BillingConfig) (cp : Checkpoint) (price rate now : ℤ) :
    CallSession :=
  let startTimeMs := numOr cp.startTimeMs now
  let lastProcessedAtMs := numOr cp.lastProcessedAtMs startTimeMs
  let totalDeductedMicros := max 0 cp.totalDeductedMicros
  CallSession.normalizeV4
    { schemaVersion := billingSessionSchemaVersion
      initialIntroMicros := none
      initialWalletMicros := none
      billingPricePerSecondMicros := none
      introPromoActive := none
      totalIntroDeductedMicros := none
      totalWalletDeductedMicros := none
      userFirebaseUid := cp.userFirebaseUid
      creatorFirebaseUid := cp.creatorFirebaseUid
      userMongoId := cp.userMongoId
      creatorMongoId := cp.creatorMongoId
      pricePerMinute := if 0 < price then mathRound ((price * 60 : ℚ) / coinMicros) else 0
      pricePerSecondMicros := price
      creatorEarningsPerSecondMicros := some rate
      startTime := startTimeMs
      lastProcessedAt := lastProcessedAtMs
      version := max 1 cp.version
      billingSequence := max 0 cp.billingSequence
      lifecycleState := some cp.lifecycleState
      totalDeductedMicros
      totalEarnedMicros := max 0 cp.totalEarnedMicros
      elapsedSeconds := if 0 < price then totalDeductedMicros / price else 0
      effectiveDurationLimitSeconds := some cfg.maxCallDurationSeconds
      lastCheckpointAtMs := 0
      lastCheckpointDeductedMicros := none
      lastCheckpointEarnedMicros := none
      lastEmitAtMs := none
      lastSocketEmitAt := some lastProcessedAtMs
      pricePerSecond := 0
      creatorEarningsPerSecond := 0 }

/-- The state that `buildSessionFromCheckpoint` returns; the whole balance counts as wallet. -/
def rebuiltState (cfg : BillingConfig) (cp : Checkpoint) (price rate now : ℤ) : LoadedState where
  session := sessionOfCheckpoint cfg cp price rate now
  introMicros := 0
  walletMicros := max 0 cp.remainingUserBalanceMicros
  earningsMicros := max 0 cp.totalEarnedMicros

def buildSessionFromCheckpoint (cfg : BillingConfig) (cp : Checkpoint) :
    BillingProg (Option LoadedState) := do
  if cp.hasIdentities then
    let (r, _) ← issue .clock
    let pricing ← checkpointPricing cp
    return some (rebuiltState cfg cp pricing.1 pricing.2 r.now)
  else return none

/-- `getBillingCheckpoint` and its rebuild. -/
def rebuildFromCheckpoint (cfg : BillingConfig) : BillingProg (Option LoadedState) := do
  let (_, st) ← issue .getCheckpoint
  match st.checkpoint with
  | none => return none
  | some cp => buildSessionFromCheckpoint cfg cp

/-- The balances of the live keys, the merged key of older sessions last. -/
def liveBalances (intro wallet legacy : Option ℤ) : ℤ × ℤ :=
  if intro.isSome ∨ wallet.isSome then (max 0 (intro.getD 0), max 0 (wallet.getD 0))
  else (0, max 0 (legacy.getD 0))

def liveState (cfg : BillingConfig) (raw : CallSession) (intro wallet legacy earnings : Option ℤ)
    (now : ℤ) : LoadedState where
  session := (migrateSession cfg raw earnings now).1
  introMicros := (liveBalances intro wallet legacy).1
  walletMicros := (liveBalances intro wallet legacy).2
  earningsMicros := (migrateSession cfg raw earnings now).2

/-- What a live session takes over from a rebuild when one of its keys is missing. -/
def mergeRebuilt (l rebuilt : LoadedState) : LoadedState :=
  { rebuilt with
    session :=
      { l.session with
        lastProcessedAt := rebuilt.session.lastProcessedAt
        totalDeductedMicros := rebuilt.session.totalDeductedMicros
        totalEarnedMicros := rebuilt.session.totalEarnedMicros
        version := max l.session.version rebuilt.session.version }.normalizeV4 }

/-- The state of the cycle, and whether the stored session is older than the current schema. -/
def loadTickState (cfg : BillingConfig) : BillingProg (Option (LoadedState × Bool)) := do
  let (_, st) ← issue .getSession
  match st.session with
  | none =>
    if cfg.billingDeltaCursorV3Enabled then
      let rebuilt ← rebuildFromCheckpoint cfg
      return rebuilt.map fun l => (l, false)
    else return none
  | some raw => do
    let (_, si) ← issue .getIntro
    let (_, sw) ← issue .getWallet
    let (_, sl) ← issue .getLegacyCoins
    let (_, se) ← issue .getEarnings
    let (r, _) ← issue .clock
    let l := liveState cfg raw si.introMicros sw.walletMicros sl.legacyCoins se.earnings r.now
    let old := decide (raw.schemaVersion < billingSessionSchemaVersion)
    if cfg.billingDeltaCursorV3Enabled &&
        (si.introMicros.isNone || sw.walletMicros.isNone || se.earnings.isNone) then
      let rebuilt ← rebuildFromCheckpoint cfg
      return some ((rebuilt.map (mergeRebuilt l)).getD l, old)
    else return some (l, old)

/-! ### Pricing repair -/

def patchedPricing (s : CallSession) (p : Pricing) : CallSession :=
  { s with
    pricePerMinute := p.pricePerMinute
    pricePerSecondMicros := p.pricePerSecondMicros
    billingPricePerSecondMicros := some p.pricePerSecondMicros
    creatorEarningsPerSecondMicros := some p.creatorEarningsPerSecondMicros }.normalizeV4

def patchSessionPricingOnly (s : CallSession) : BillingProg CallSession := do
  if isBlank s.creatorMongoId then return s
  else do
    let (r, _) ← issue .getPricing
    match r.pricing with
    | none => return s
    | some p =>
      if p.pricePerSecondMicros ≤ 0 then return s
      else do
        let s' := patchedPricing s p
        let _ ← issue (.persistSession s')
        let (_, si) ← issue .getIntro
        let (_, sw) ← issue .getWallet
        let _ ← issue (.upsertSnapshot
          (s'.snapshot (max 0 (si.introMicros.getD 0) + max 0 (sw.walletMicros.getD 0))))
        return s'

/-- `Object.assign(session, live)`: the fields that `live` has. -/
def CallSession.assign (s live : CallSession) : CallSession :=
  { live with
    initialIntroMicros := live.initialIntroMicros <|> s.initialIntroMicros
    initialWalletMicros := live.initialWalletMicros <|> s.initialWalletMicros
    billingPricePerSecondMicros := live.billingPricePerSecondMicros <|> s.billingPricePerSecondMicros
    introPromoActive := live.introPromoActive <|> s.introPromoActive
    totalIntroDeductedMicros := live.totalIntroDeductedMicros <|> s.totalIntroDeductedMicros
    totalWalletDeductedMicros := live.totalWalletDeductedMicros <|> s.totalWalletDeductedMicros
    creatorEarningsPerSecondMicros :=
      live.creatorEarningsPerSecondMicros <|> s.creatorEarningsPerSecondMicros
    lifecycleState := live.lifecycleState <|> s.lifecycleState
    effectiveDurationLimitSeconds :=
      live.effectiveDurationLimitSeconds <|> s.effectiveDurationLimitSeconds
    lastCheckpointDeductedMicros :=
      live.lastCheckpointDeductedMicros <|> s.lastCheckpointDeductedMicros
    lastCheckpointEarnedMicros := live.lastCheckpointEarnedMicros <|> s.lastCheckpointEarnedMicros
    lastEmitAtMs := live.lastEmitAtMs <|> s.lastEmitAtMs
    lastSocketEmitAt := live.lastSocketEmitAt <|> s.lastSocketEmitAt }

def adoptPromoted (s : CallSession) : BillingProg CallSession := do
  let (_, st) ← issue .getSession
  match st.session with
  | none => return s
  | some live => return if 0 < live.billingPrice then s.assign live else s

def repairSessionPricingIfNeeded (cfg : BillingConfig) (s : CallSession) :
    BillingProg CallSession := do
  if s.needsFullSessionBootstrap then
    let result ← promoteBootstrappingSession cfg s
      { preserveStartTime := true, preserveRuntimeBalances := true }
    match result with
    | .ok p => return p.session
    | .error .concurrentPromote => adoptPromoted s
    | .error _ => return s
  else if 0 < s.billingPrice then return s
  else patchSessionPricingOnly s

/-! ### Keepalive -/

def keepaliveDue (s : CallSession) (now intervalMs : ℤ) : Bool :=
  let lastEmit := (s.lastEmitAtMs.orElse fun _ => s.lastSocketEmitAt).getD 0
  let emitStallMs := if 0 < lastEmit then max 0 (now - lastEmit) else intervalMs
  (s.lifecycleState == some .active || s.lifecycleState == some .recovering ||
    s.lifecycleState == some .starting) && decide (intervalMs ≤ emitStallMs)

def CallSession.emitted (s : CallSession) (now : ℤ) : CallSession :=
  { s with lastEmitAtMs := some now, lastSocketEmitAt := some now }

def maybeEmitBillingKeepaliveIfDue (s : CallSession) : BillingProg Unit := do
  let (r, _) ← issue .clock
  if keepaliveDue s r.now r.intervalMs then
    let _ ← issue (.persistSession (s.emitted r.now))
  else return ()

/-! ### The charge -/

/-- `deltaMs`: the time to charge, capped. -/
def tickDeltaMs (cfg : BillingConfig) (s : CallSession) (now : ℤ) : ℤ :=
  min (max 0 (now - s.lastProcessedAt)) cfg.maxBillingDeltaMs

def actualDeduct (t : TickState) (deltaMs : ℤ) : ℤ :=
  min (deltaMs * t.session.billingPrice / 1000) t.activeSpendMicros

def timeCoveredMs (price deduct : ℤ) : ℤ := deduct * 1000 / price

def earnMicros (price rate deduct : ℤ) : ℤ := timeCoveredMs price deduct * rate / 1000

def chargedLifecycle (state : Option Lifecycle) : Option Lifecycle :=
  match state with
  | some .starting => some (transitionBillingState .starting .active).1
  | some .recovering => some (transitionBillingState .recovering .active).1
  | s => s

def chargedSession (s : CallSession) (introPromoBilling : Bool) (deduct earn : ℤ) : CallSession :=
  { s with
    totalIntroDeductedMicros :=
      if introPromoBilling then some (s.totalIntroDeductedMicros.getD 0 + deduct)
      else s.totalIntroDeductedMicros
    totalWalletDeductedMicros :=
      if introPromoBilling then s.totalWalletDeductedMicros
      else some (s.totalWalletDeductedMicros.getD 0 + deduct)
    lastProcessedAt := s.lastProcessedAt + timeCoveredMs s.billingPrice deduct
    totalDeductedMicros := s.totalDeductedMicros + deduct
    totalEarnedMicros := s.totalEarnedMicros + earn
    version := s.version + 1
    billingSequence := s.billingSequence + 1
    lifecycleState := chargedLifecycle s.lifecycleState
    elapsedSeconds := (s.totalDeductedMicros + deduct) / s.billingPrice }

def charge (t : TickState) (deduct : ℤ) : TickState :=
  let earn := earnMicros t.session.billingPrice t.creatorEarningsPerSecondMicros deduct
  { t with
    session := chargedSession t.session t.introPromoBilling deduct earn
    introMicros := if t.introPromoBilling then t.introMicros - deduct else t.introMicros
    walletMicros := if t.introPromoBilling then t.walletMicros else t.walletMicros - deduct
    earningsMicros := t.earningsMicros + earn }

/-! ### Checkpoint and persistence -/

def checkpointDue (cfg : BillingConfig) (s : CallSession) (now : ℤ) : Bool :=
  let due := decide (0 < cfg.billingCheckpointIntervalMs ∧
    cfg.billingCheckpointIntervalMs ≤ now - s.lastCheckpointAtMs)
  let dueBySequence := decide (0 < cfg.billingCheckpointEverySequences ∧ 0 < s.billingSequence ∧
    s.billingSequence % cfg.billingCheckpointEverySequences = 0)
  let deltaDeduct := |s.totalDeductedMicros - s.lastCheckpointDeductedMicros.getD 0|
  let deltaEarn := |s.totalEarnedMicros - s.lastCheckpointEarnedMicros.getD 0|
  (due || dueBySequence) && decide (cfg.billingCheckpointMinDeltaMicros ≤ 0 ∨
    (s.lastCheckpointDeductedMicros = none ∧ s.lastCheckpointEarnedMicros = none) ∨
    cfg.billingCheckpointMinDeltaMicros ≤ deltaDeduct ∨
    cfg.billingCheckpointMinDeltaMicros ≤ deltaEarn)

def CallSession.checkpointed (s : CallSession) (now : ℤ) : CallSession :=
  { s with
    lastCheckpointAtMs := now
    lastCheckpointDeductedMicros := some s.totalDeductedMicros
    lastCheckpointEarnedMicros := some s.totalEarnedMicros }

def checkpointCharge (cfg : BillingConfig) (t : TickState) : BillingProg TickState := do
  if cfg.billingDeltaCursorV3Enabled then
    let _ ← issue (.advanceCursor (t.session.snapshot t.balanceMicros) (t.session.version - 1))
    return t
  else do
    let (r, _) ← issue .clock
    if checkpointDue cfg t.session r.now then
      let _ ← issue (.upsertCheckpoint t.session)
      return t.withSession (t.session.checkpointed r.now)
    else return t

def emitUpdate (t : TickState) : BillingProg Unit := do
  let (r, _) ← issue .clock
  let isEmitDue := t.session.lastEmitAtMs.all fun last => decide (r.intervalMs ≤ r.now - last)
  let isLowBalance := decide (t.activeSpendMicros < t.session.billingPrice * 3)
  -- `r.ok`: the write was fast enough and the backpressure stage is below 3
  if (isEmitDue || isLowBalance) && r.ok then
    let _ ← issue (.persistSession (t.session.emitted r.now))
  else maybeEmitBillingKeepaliveIfDue t.session

def persistCharge (t : TickState) : BillingProg BillingTickResult := do
  let _ ← issue
    (.persistAll .tickPersist t.session t.introMicros t.walletMicros t.earningsMicros)
  emitUpdate t
  if t.activeSpendMicros < t.session.billingPrice then return .stopNeedsSettlement
  else return .tickOk

def durationLimitReached (s : CallSession) : Bool :=
  s.effectiveDurationLimitSeconds.any fun limit => decide (limit ≤ s.elapsedSeconds)

/-- The end of a cycle that charges `deduct > 0`. -/
def chargeTick (cfg : BillingConfig) (t : TickState) (deduct : ℤ) :
    BillingProg BillingTickResult := do
  if durationLimitReached (charge t deduct).session then return .stopNeedsSettlement
  else do
    let t' ← checkpointCharge cfg (charge t deduct)
    persistCharge t'

def pricedTick (cfg : BillingConfig) (t : TickState) (now : ℤ) :
    BillingProg BillingTickResult := do
  let deltaMs := tickDeltaMs cfg t.session now
  if deltaMs < minBillingDeltaMs then
    maybeEmitBillingKeepaliveIfDue t.session
    return .tickOk
  else do
    let (r, _) ← issue .consumePendingEnd
    if r.ok then return .stopNeedsSettlement
    else if 0 < actualDeduct t deltaMs then chargeTick cfg t (actualDeduct t deltaMs)
    else if t.activeSpendMicros < t.session.billingPrice then return .stopNeedsSettlement
    else do
      maybeEmitBillingKeepaliveIfDue t.session
      return .tickOk

/-- A cycle that owns the call, before its price is known to be valid. -/
def ownedTick (cfg : BillingConfig) (t : TickState) (now : ℤ) :
    BillingProg BillingTickResult := do
  if 0 < t.session.billingPrice then pricedTick cfg t now
  else do
    let s ← repairSessionPricingIfNeeded cfg t.session
    if 0 < s.billingPrice then pricedTick cfg (t.withSession s) now
    else return .tickDeferred

/-- A session of an older schema is written back before it is charged. -/
def persistMigration (t : TickState) : BillingProg Unit := do
  let _ ← issue
    (.persistAll .sessionMigration t.session t.introMicros t.walletMicros t.earningsMicros)
  let _ ← issue .deleteLegacyCoins

def loadedTick (cfg : BillingConfig) (t : TickState) (old : Bool) :
    BillingProg BillingTickResult := do
  -- `shortCircuitIfTerminalBillingSession`
  let (_, st) ← issue .getSettled
  if !isNonTerminalLifecycle t.session.lifecycleState || st.settled then return .stopNoSession
  else do
    let (rc, _) ← issue .clock
    let (ro, _) ← issue .claimOwnership
    if !ro.ok then return .tickDeferred
    else if old then do
      persistMigration t
      ownedTick cfg t rc.now
    else ownedTick cfg t rc.now

/-- `_processBillingCycleInternal`. -/
def processBillingCycleInternal (cfg : BillingConfig) : BillingProg BillingTickResult := do
  let (r, _) ← issue .lockCycle
  if r.ok then
    let loaded ← loadTickState cfg
    match loaded with
    | none => return .stopNoSession
    | some (l, old) => loadedTick cfg l.enter old
  else return .tickDeferred

/-! ### What the parts of a cycle do -/

section parts

variable {cfg : BillingConfig} {st : BillingStore} {I : BillingStore → Prop}

variable {s : CallSession}

theorem keepalive_holds (hst : I st)
    (hemit : ∀ now r, I (execBilling (.persistSession (s.emitted now)) r st)) :
    (maybeEmitBillingKeepaliveIfDue s).Holds execBilling I (fun _ st' => I st') st := by
  refine holds_read rfl hst fun r => ?_
  dsimp only
  split
  · exact fun r' => ⟨hemit r.now r', hemit r.now r'⟩
  · exact hst

theorem emitUpdate_holds {t : TickState} (hst : I st)
    (hemit : ∀ now r, I (execBilling (.persistSession (t.session.emitted now)) r st)) :
    (emitUpdate t).Holds execBilling I (fun _ st' => I st') st := by
  refine holds_read rfl hst fun r => ?_
  dsimp only
  split
  · exact fun r' => ⟨hemit r.now r', hemit r.now r'⟩
  · exact keepalive_holds hst hemit

def KeysPresent (st : BillingStore) : Prop :=
  st.introMicros.isSome ∧ st.walletMicros.isSome ∧ st.earnings.isSome

theorem execBilling_keysPresent (c : BillingCmd) (r : BillingReply) (st : BillingStore)
    (h : KeysPresent st) : KeysPresent (execBilling c r st) := by
  cases c <;> first | exact h | exact ⟨rfl, rfl, rfl⟩

theorem loadTickState_live (hst : I st) (hs : st.session = some s)
    (hcurrent : billingSessionSchemaVersion ≤ s.schemaVersion) (hkeys : KeysPresent st) :
    (loadTickState cfg).Holds execBilling I
      (fun loaded st' => st' = st ∧ ∃ now, loaded =
        some (liveState cfg s st.introMicros st.walletMicros st.legacyCoins st.earnings now,
          false)) st := by
  refine holds_read rfl hst fun _ => ?_
  dsimp only
  rw [hs]
  refine holds_read rfl hst fun _ => holds_read rfl hst fun _ => holds_read rfl hst fun _ =>
    holds_read rfl hst fun _ => holds_read rfl hst fun r => ?_
  have hnone : (st.introMicros.isNone || st.walletMicros.isNone || st.earnings.isNone) = false := by
    obtain ⟨hi, hw, he⟩ := hkeys
    simp [← Option.not_isSome, hi, hw, he]
  rw [hnone, Bool.and_false, if_neg (by simp), decide_eq_false (not_lt.2 hcurrent)]
  exact ⟨rfl, r.now, rfl⟩

theorem migrateSession_current (e : Option ℤ) (now : ℤ)
    (hcurrent : billingSessionSchemaVersion ≤ s.schemaVersion) :
    migrateSession cfg s e now = (s.normalizeV4, max 0 (e.getD 0)) := by
  rw [migrateSession, if_pos hcurrent]

end parts

/-! ### Runs of ticks -/

/-- The store that a cycle leaves, answered by `rs`. -/
def tickStore (cfg : BillingConfig) (st : BillingStore) (rs : List BillingReply) : BillingStore :=
  ((processBillingCycleInternal cfg).exec execBilling rs st).1

/-- Cycles one after the other.  Each comes with its answers; too few of them are a cycle that threw
or whose process stopped. -/
def runTicks (cfg : BillingConfig) (ticks : List (List BillingReply)) (st : BillingStore) :
    BillingStore :=
  ticks.foldl (tickStore cfg) st

end VibemeetBackend.Billing
