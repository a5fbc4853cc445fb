import VibemeetBackend.Settlement.Store

/-!
# The parties of a settlement

`finalizeCallSession` of `billing-session-finalization.service.ts` with everything it calls that
can write what `Settlement.Store` holds: the retry queue, the dead-letter transition, the recovery
of a failed settlement, the claim of the durable session and the history projections.

Metrics, logs, `settlementAttempts`, the session keys and the chat message are left out.
-/

namespace VibemeetBackend.Settlement

open Async Billing

/-- The environment variables that the code reads. -/
structure SettlementConfig where
  unifiedBillingFinalizerEnabled : Bool
  durableCallSessionEnabled : Bool
  billingOutboxProjectionEnabled : Bool
  domainEventsEnabled : Bool
  failedSettlementAutoRecoveryEnabled : Bool
  blockZeroSettlementEnabled : Bool
  billingMaxSettlingMs : ℤ
  billingSettlementPollMs : ℤ
  retryMaxAgeMs : ℤ
  billingSettlementRetryMaxAttempts : ℕ

abbrev SettlementFlow (α : Type) : Type :=
  Flow SettlementCmd SettlementReply SettlementStore α

def run (c : SettlementCmd) : SettlementFlow (SettlementReply × SettlementStore) :=
  Flow.call SettlementReply.ok "store unavailable" c

/-- A command whose failure is caught and ignored. -/
def quiet (c : SettlementCmd) : SettlementFlow (SettlementReply × SettlementStore) :=
  Flow.call (fun _ => true) "" c

/-- `Date.now()`. -/
def dateNow : SettlementFlow ℤ := do
  let (r, _) ← quiet .query
  pure r.now

variable (cfg : SettlementConfig)

/-! ### Is the call settled? -/

def HistoryRow.countsAsSettled (row : HistoryRow) : Bool :=
  row.settlementStatus == some .settled || row.settledAt.isSome ||
    (row.settlementStatus != some .pending && decide (0 < row.coinsDeducted))

def isDurableCallSessionFinalized : SettlementFlow Bool :=
  if cfg.durableCallSessionEnabled = false then pure false
  else do
    let (_, s) ← run .query
    pure (s.durable.any fun d => d.finalized || d.state == .settled)

/-- `isCallBillingAlreadySettled`: the settled key, the durable session, the payer's history and the
call, in this order. -/
def isCallBillingAlreadySettled : SettlementFlow Bool := do
  let (_, s) ← run .query
  if s.settledKey = true then pure true
  else if (← isDurableCallSessionFinalized cfg) = true then pure true
  else do
    let (_, s) ← run .query
    if s.userHistory.any HistoryRow.countsAsSettled = true then pure true
    else do
      let (_, s) ← run .query
      pure (s.callStatus == some .settled)

def ensureTerminalBillingTeardown : SettlementFlow Unit := do
  if (← isCallBillingAlreadySettled cfg) = true then do
    let _ ← run .query
    pure ()
  else pure ()

/-- The loop of `pollUntilSettled`. -/
def pollUntil (deadline : ℤ) : ℕ → SettlementFlow Bool
  | 0 => isCallBillingAlreadySettled cfg
  | polls + 1 => do
    let now ← dateNow
    if now < deadline then do
      if (← isCallBillingAlreadySettled cfg) = true then pure true
      else pollUntil deadline polls
    else isCallBillingAlreadySettled cfg

def pollUntilSettled : SettlementFlow Bool := do
  let now ← dateNow
  pollUntil cfg (now + cfg.billingSettlementPollMs) (cfg.billingSettlementPollMs / 500 + 1).toNat

/-! ### Projections -/

def upsertPendingRow (role : OwnerRole) : SettlementFlow Unit := do
  let (_, s) ← run (.upsertPending role)
  match Mongo.findOneAndUpdate freshHistory pendingOnlyFilter pendingUpdate (s.history role) with
  | .ok _ => pure ()
  | .error _ => throw "E11000 duplicate key error"

def upsertPendingRows (creatorOwner : Bool) : SettlementFlow Unit := do
  let (_, s) ← run .query
  if s.historyStatus .user = some .settled ∨ s.historyStatus .creator = some .settled then pure ()
  else do
    upsertPendingRow .user
    if creatorOwner = true then upsertPendingRow .creator else pure ()

def projectEvent : ProjectionEvent → SettlementFlow Unit
  | .ending => do
    let (r, _) ← run .query
    if r.view.partiesFound = false then throw "CastError"
    else upsertPendingRows r.view.creatorOwner
  | .settled coinsDeducted => do
    let (r, _) ← run .query
    if r.view.partiesFound = false then throw "CastError"
    else do
      let _ ← run (.projectSettled .user coinsDeducted)
      let _ ← run (.projectSettled .creator 0)
      pure ()
  | .failedSettlement => do
    let (r, _) ← run .query
    if r.view.partiesFound = false then throw "CastError"
    else do
      let _ ← run .projectFailed
      pure ()

def projectCallHistoryFromBillingEvent (e : ProjectionEvent) : SettlementFlow Unit :=
  tryCatch (projectEvent e) fun _ => pure ()

def enqueueCallBillingProjectionEvent (e : ProjectionEvent) : SettlementFlow Unit :=
  if cfg.billingOutboxProjectionEnabled = true ∧ cfg.domainEventsEnabled = true then do
    let _ ← quiet (.persistEvent e)
    pure ()
  else projectCallHistoryFromBillingEvent e

def upsertPendingCallHistoryOnEnding : SettlementFlow Unit :=
  if cfg.billingOutboxProjectionEnabled = true then pure ()
  else
    tryCatch (do
      let (r, s) ← run .query
      if s.historyStatus .user = some .settled ∨ s.historyStatus .creator = some .settled then
        pure ()
      else if r.view.partiesFound = false then pure ()
      else do
        upsertPendingRow .user
        if r.view.creatorOwner = true then upsertPendingRow .creator else pure ()) fun _ => pure ()

/-! ### Dead letter, retry and recovery -/

/-- `moveCallToRecoveryDeadLetter`.  The session moves to `FAILED_RECOVERY_SETTLEMENT` in a `try` and
its keys are deleted. -/
def moveCallToRecoveryDeadLetter : SettlementFlow Unit := do
  let (r, _) ← run .query
  let totals := r.view.totals
  if cfg.durableCallSessionEnabled = true ∧ 0 < totals.totalDeductedMicros then
    let _ ← quiet (.raiseDurableTotals totals)
  let _ ← run .setDeadLetter
  let _ ← quiet .deadLetterCall
  let _ ← quiet .drainArtifacts
  if cfg.durableCallSessionEnabled = true then
    let _ ← quiet .markDurableFailed
  if cfg.billingOutboxProjectionEnabled = true then
    enqueueCallBillingProjectionEvent cfg .failedSettlement

/-- The common body of the two retries; the score of the queue says only when a worker takes the
call. -/
def enqueueRetry (p : FinalizeParams) : SettlementFlow Unit := do
  let now ← dateNow
  let attempt := p.attempt.getD 0 + 1
  let enqueuedAt := p.enqueuedAt.getD now
  if cfg.retryMaxAgeMs < max 0 (now - enqueuedAt) then moveCallToRecoveryDeadLetter cfg
  else if cfg.billingSettlementRetryMaxAttempts < attempt then moveCallToRecoveryDeadLetter cfg
  else do
    let (_, s) ← run .setRetryDedup
    if s.retryDedup = true then pure ()
    else do
      let _ ← run (.setRetryPayload ⟨some attempt, some enqueuedAt⟩)
      let _ ← run .addRetry
      pure ()

def enqueueSettlementRetry (p : FinalizeParams) : SettlementFlow Unit := enqueueRetry cfg p

def enqueueImmediateSettlementRetry (p : FinalizeParams) : SettlementFlow Unit :=
  enqueueRetry cfg p

def attemptFailedSettlementRecovery (forceAllowZeroSequence : Bool) : SettlementFlow Bool :=
  if cfg.durableCallSessionEnabled = false then pure false
  else if forceAllowZeroSequence = false ∧ cfg.failedSettlementAutoRecoveryEnabled = false then
    pure false
  else do
    let (_, s) ← run .query
    if s.deadLetter = false ∧ forceAllowZeroSequence = false then pure false
    else do
      let (_, s) ← run .query
      if s.userHistory.any (fun row =>
          row.settlementStatus == some .settled || row.settledAt.isSome) = true then pure false
      else do
        let (_, s) ← run .query
        match s.durable.filter fun d => d.state == .failedSettlement with
        | none => pure false
        | some d =>
          if d.billingSequence ≤ 0 ∧ forceAllowZeroSequence = false then pure false
          else do
            let (_, s) ← run .query
            if s.recoveryCooldown = true ∧ forceAllowZeroSequence = false then pure false
            else do
              let _ ← quiet .setRecoveryCooldown
              let _ ← quiet .delDeadLetter
              let (_, s) ← run .resetDurable
              if s.durable.any (·.isOpen [.failedSettlement]) = false then pure false
              else do
                let _ ← quiet .drainArtifacts
                let now ← dateNow
                enqueueImmediateSettlementRetry cfg ⟨some 0, some now⟩
                pure true

/-! ### Claims -/

inductive ClaimLostDetail where
  | settlingActive
  | settlingStaleRace
  | stateBlocked

/-- `ClaimSettlementResult`. -/
inductive ClaimResult where
  | ok (settlementVersion : ℤ)
  | alreadyFinalized
  | claimLost (detail : ClaimLostDetail)

def claimDurableCallSessionForSettlement : SettlementFlow ClaimResult := do
  let (r, s) ← run .claimDurable
  match s.durable.filter (·.isOpen claimableStates) with
  | some d => do
    let version := (claimDurable r.now d).settlementVersion
    let _ ← quiet (.markCallSettling version)
    pure (.ok version)
  | none => do
    let (_, s) ← run .query
    match s.durable with
    | none => pure (.claimLost .stateBlocked)
    | some existing =>
      if existing.finalized = true ∨ existing.state = .settled then pure .alreadyFinalized
      else if existing.state = .settling then do
        let (r, s) ← run (.takeoverDurable cfg.billingMaxSettlingMs)
        match s.durable.filter (DurableRow.isStale cfg.billingMaxSettlingMs r.now) with
        | some d => do
          let version := (takeoverDurable r.now d).settlementVersion
          let _ ← quiet (.delLock .settlementClaim)
          let _ ← quiet (.markCallSettling version)
          pure (.ok version)
        | none =>
          pure (.claimLost (if isDurableSettlingStale cfg.billingMaxSettlingMs r.now existing then
            .settlingStaleRace else .settlingActive))
      else pure (.claimLost .stateBlocked)

def tryStaleDurableSettlingTakeover : SettlementFlow Unit := do
  let (r, s) ← run .query
  if s.durable.any (fun d => d.state == .settling &&
      isDurableSettlingStale cfg.billingMaxSettlingMs r.now d) = true then do
    let _ ← quiet (.delLock .settlementClaim)
    pure ()
  else pure ()

def tryStaleSettlingTakeover : SettlementFlow Unit := do
  let (r, s) ← run .query
  match s.call.filter fun d => d.status == some .settling with
  | none => pure ()
  | some d =>
    if r.now - d.updatedAt.getD 0 ≤ cfg.billingMaxSettlingMs then pure ()
    else do
      let _ ← quiet (.delLock .settlementClaim)
      let _ ← run (.takeoverCallSettling (d.version + 1))
      pure ()

inductive FinalizeStatus where
  | settled
  | duplicate
  | pendingRetry
  | deadLettered
  deriving DecidableEq

def handleDurableClaimLost (p : FinalizeParams) (inflightToken : String) :
    ClaimLostDetail → SettlementFlow FinalizeStatus
  | .settlingActive => do
    if (← pollUntilSettled cfg) = true then do
      ensureTerminalBillingTeardown cfg
      let _ ← quiet (.release .finalizeInflight inflightToken)
      pure .duplicate
    else do
      enqueueSettlementRetry cfg p
      let _ ← quiet (.release .finalizeInflight inflightToken)
      pure .pendingRetry
  | .settlingStaleRace => do
    if cfg.billingSettlementRetryMaxAttempts ≤ p.attempt.getD 0 + 1 then do
      moveCallToRecoveryDeadLetter cfg
      let _ ← quiet (.release .finalizeInflight inflightToken)
      pure .deadLettered
    else do
      enqueueSettlementRetry cfg p
      let _ ← quiet (.release .finalizeInflight inflightToken)
      pure .pendingRetry
  | .stateBlocked => do
    let (_, s) ← run .query
    if s.durableState = some .failedSettlement then do
      let _ ← quiet (.release .finalizeInflight inflightToken)
      if (← attemptFailedSettlementRecovery cfg false) = true then pure .pendingRetry
      else do
        enqueueSettlementRetry cfg p
        pure .pendingRetry
    else do
      enqueueSettlementRetry cfg p
      let _ ← quiet (.release .finalizeInflight inflightToken)
      pure .pendingRetry

/-! ### Settlement -/

/-- `shouldBlockZeroSettlement(totals).blocked`. -/
def shouldBlockZeroSettlement (totals : AuthoritativeTotals) : Bool :=
  if cfg.blockZeroSettlementEnabled = false then false
  else if 0 < totals.totalDeductedMicros then false
  else if 0 < totals.billingSequence then true
  else if totals.source = .durable ∨ totals.source = .ledger then true
  else decide (0 < totals.totalEarnedMicros ∧ totals.totalDeductedMicros = 0 ∧
    totals.source ≠ .none)

def settleAttempts : ℕ → SettlementFlow Unit
  | 0 => throw "Settlement transaction failed"
  | attempts + 1 => do
    let (r, _) ← quiet .commitSettlement
    let committed ← do
      if r.ok = true then pure true
      else if r.view.unknownCommitResult = true then isCallBillingAlreadySettled cfg
      else pure false
    if committed = true then pure ()
    else if r.view.transient = true ∧ 0 < attempts then settleAttempts attempts
    else do
      let _ ← quiet .delSettledKey
      throw "settlement transaction error"

def settleCall (fromFinalizer : Bool) (lockToken : String) : SettlementFlow Bool := do
  let go : SettlementFlow Bool := do
    let (r, _) ← quiet .query
    if r.view.readFails = true then do
      let _ ← quiet (.release .settleLock lockToken)
      pure false
    else if r.view.hasSession = false then do
      let (_, s) ← run .query
      if s.userHistory.any HistoryRow.countsAsSettled = true then do
        let _ ← run .setSettledKey
        let _ ← quiet (.release .settleLock lockToken)
        pure false
      else do
        let _ ← quiet (.release .settleLock lockToken)
        pure false
    else do
      let (_, s) ← run .query
      if s.userHistory.any HistoryRow.countsAsSettled = true then do
        let _ ← run .setSettledKey
        let _ ← quiet (.release .settleLock lockToken)
        pure false
      else do
        let (r, _) ← quiet .query
        if r.view.readFails = true then do
          let _ ← quiet (.release .settleLock lockToken)
          pure false
        else do
          settleAttempts cfg settlementTxnMaxAttempts
          if fromFinalizer = true then pure true
          else do
            let _ ← quiet .setSettledKey
            let _ ← quiet (.release .settleLock lockToken)
            pure true
  if fromFinalizer = true then go
  else do
    let (_, s) ← run .query
    if s.settledKey = true then pure false
    else do
      let (_, s) ← run .query
      if s.settledKey = true then pure false
      else do
        let (_, s) ← run (.lock .settleLock lockToken)
        if s.settleLock.isSome = true then pure false else go

def afterSettlement (settlementVersion : ℤ) : SettlementFlow FinalizeStatus := do
  let _ ← run (.markCallSettled settlementVersion)
  if cfg.durableCallSessionEnabled = true then
    let _ ← run (.markDurableSettled settlementVersion)
  let (r, _) ← quiet .query
  if cfg.billingOutboxProjectionEnabled = true then
    enqueueCallBillingProjectionEvent cfg (.settled r.view.coinsDeducted)
  -- `runPostPersistRedisCleanup`, which catches its errors
  let _ ← quiet .setSettledKey
  let _ ← quiet (.delLock .settlementClaim)
  pure .settled

def settleClaimed (p : FinalizeParams) (lockToken : String) (source : RecoverySource)
    (settlementVersion : ℤ) : SettlementFlow FinalizeStatus := do
  let (r, _) ← quiet .query
  if r.view.converged = false then
    if source = .missing then do
      enqueueSettlementRetry cfg p
      pure .pendingRetry
    else do
      moveCallToRecoveryDeadLetter cfg
      pure .deadLettered
  else if (← isCallBillingAlreadySettled cfg) = true then do
    ensureTerminalBillingTeardown cfg
    pure .duplicate
  else do
    let (r, _) ← run .query
    if shouldBlockZeroSettlement cfg r.view.totals = true then do
      enqueueSettlementRetry cfg p
      pure .pendingRetry
    else if (← settleCall cfg true lockToken) = true then
      afterSettlement cfg settlementVersion
    else if (← isCallBillingAlreadySettled cfg) = true then do
      ensureTerminalBillingTeardown cfg
      pure .duplicate
    else do
      enqueueSettlementRetry cfg p
      pure .pendingRetry

/-- The `try` of `finalizeCallSession`. -/
def claimAndSettle (p : FinalizeParams) (inflightToken ownerToken : String)
    (source : RecoverySource) : SettlementFlow FinalizeStatus :=
  if cfg.durableCallSessionEnabled = true then do
    match ← claimDurableCallSessionForSettlement cfg with
    | .alreadyFinalized => do
      ensureTerminalBillingTeardown cfg
      pure .duplicate
    | .claimLost detail => handleDurableClaimLost cfg p inflightToken detail
    | .ok settlementVersion => settleClaimed cfg p ownerToken source settlementVersion
  else do
    let _ ← run (.markCallSettling 1)
    settleClaimed cfg p ownerToken source 1

def finalizeCallSession (p : FinalizeParams) (inflightToken ownerToken : String) :
    SettlementFlow FinalizeStatus :=
  if cfg.unifiedBillingFinalizerEnabled = false then do
    let _ ← settleCall cfg false ownerToken
    pure .settled
  else do
    let (r₀, _) ← run .query
    let (_, s) ← run .query
    if s.deadLetter = true then pure .deadLettered
    else do
      let (_, s) ← run (.lock .finalizeInflight inflightToken)
      if s.finalizeInflight.isSome = true then do
        let (r, s) ← run .query
        match s.call.filter fun d => d.status == some .settling with
        | none => pure .duplicate
        | some d =>
          if 0 < d.updatedAt.getD 0 ∧
              cfg.billingMaxSettlingMs < r.now - d.updatedAt.getD 0 then do
            let _ ← Flow.attempt (enqueueImmediateSettlementRetry cfg p)
            pure .duplicate
          else pure .duplicate
      else do
        let (r, _) ← run .query
        if r.view.activeElsewhere = true then do
          let _ ← quiet (.release .finalizeInflight inflightToken)
          enqueueImmediateSettlementRetry cfg p
          pure .pendingRetry
        else if (← isCallBillingAlreadySettled cfg) = true then do
          ensureTerminalBillingTeardown cfg
          let _ ← quiet (.release .finalizeInflight inflightToken)
          pure .duplicate
        else do
          if cfg.durableCallSessionEnabled = true then tryStaleDurableSettlingTakeover cfg
          else tryStaleSettlingTakeover cfg
          let (_, s) ← run (.lock .settlementClaim ownerToken)
          if s.settlementClaim.isSome = true then
            if (← pollUntilSettled cfg) = true then do
              ensureTerminalBillingTeardown cfg
              let _ ← quiet (.release .finalizeInflight inflightToken)
              pure .duplicate
            else do
              enqueueSettlementRetry cfg p
              let _ ← quiet (.release .finalizeInflight inflightToken)
              pure .pendingRetry
          else do
            let (_, s) ← run (.lock .settleLock ownerToken)
            if s.settleLock.isSome = true then do
              let _ ← quiet (.delLock .settlementClaim)
              if (← pollUntilSettled cfg) = true then do
                ensureTerminalBillingTeardown cfg
                let _ ← quiet (.release .finalizeInflight inflightToken)
                pure .duplicate
              else do
                enqueueSettlementRetry cfg p
                let _ ← quiet (.release .finalizeInflight inflightToken)
                pure .pendingRetry
            else do
              let result ← Flow.attempt
                (tryCatch (claimAndSettle cfg p inflightToken ownerToken r₀.view.recoverySource)
                  fun _ => do
                    enqueueSettlementRetry cfg p
                    pure .pendingRetry)
              let _ ← quiet (.release .settleLock ownerToken)
              let _ ← quiet (.delLock .settlementClaim)
              let _ ← quiet (.release .finalizeInflight inflightToken)
              ExceptT.mk (pure result)

/-- One item of `processSettlementRetryQueue`. -/
def processSettlementRetry (inflightToken ownerToken : String) : SettlementFlow Unit := do
  let (_, s) ← run .removeRetry
  if s.retryQueued = false then pure ()
  else do
    let (_, s) ← run .query
    match s.retryPayload with
    | none => do
      let _ ← quiet .delRetryDedup
      pure ()
    | some p =>
      tryCatch (do
        let _ ← quiet .delRetryDedup
        let status ← finalizeCallSession cfg p inflightToken ownerToken
        if status = .pendingRetry then pure ()
        else do
          let _ ← quiet .delRetryPayload
          pure ()) fun _ => do
        let _ ← Flow.attempt (enqueueSettlementRetry cfg p)
        pure ()

/-! ### Requests -/

/-- What can be admitted at any time: a finalizer of any source, a worker of the retry queue, a
dead-letter transition of the watchdog or an operator, a recovery, an ending call, the delivery of
a persisted event, or the expiry of a key. -/
inductive Request where
  | finalize (p : FinalizeParams) (inflightToken ownerToken : String)
  | retryWorker (inflightToken ownerToken : String)
  | deadLetter
  | recover (forceAllowZeroSequence : Bool)
  | ending
  | deliver (e : ProjectionEvent)
  | expire (c : SettlementCmd)

def deliverEvent (e : ProjectionEvent) : SettlementFlow Unit := do
  let (_, s) ← run .query
  if e ∈ s.outbox then projectCallHistoryFromBillingEvent e else pure ()

def expireKey (c : SettlementCmd) : SettlementFlow Unit :=
  match c with
  | .expireDeadLetter | .expireSettledKey | .expireRecoveryCooldown | .expireLock _
  | .expireRetry => do
    let _ ← quiet c
    pure ()
  | _ => pure ()

def program (q : Request) :
    Prog SettlementCmd SettlementReply SettlementStore Unit :=
  let flow : SettlementFlow Unit :=
    match q with
    | .finalize p inflightToken ownerToken => do
      let _ ← finalizeCallSession cfg p inflightToken ownerToken
      pure ()
    | .retryWorker inflightToken ownerToken => processSettlementRetry cfg inflightToken ownerToken
    | .deadLetter => do
      let (_, s) ← run .query
      if s.deadLetter = true then pure () else moveCallToRecoveryDeadLetter cfg
    | .recover force => do
      let _ ← attemptFailedSettlementRecovery cfg force
      pure ()
    | .ending =>
      if cfg.billingOutboxProjectionEnabled = true then
        enqueueCallBillingProjectionEvent cfg .ending
      else upsertPendingCallHistoryOnEnding cfg
    | .deliver e => deliverEvent e
    | .expire c => expireKey c
  flow.run >>= fun _ => .ret ()

end VibemeetBackend.Settlement
