import VibemeetBackend.Billing.FinalizeCheckpoint

/-!
# What can be done to a call after its end

The operations that may store a session under the key of a call or put the call into an active-call
slot: `startBillingSession`, `resolveBillingRuntimeState`, the two heals of
`billing-heal.service.ts` and the billing tick, with the two ways a call ends.  An operation runs
alone; between two of them any time may pass and any key may expire.
-/

namespace VibemeetBackend.EndedCall

open Async Billing

structure CallStore extends RuntimeStore where
  /-- `activeCallByUserKey`, by Firebase UID: the call the user is in. -/
  slots : String → Option String
  /-- `callpairKey`, by the UIDs in order. -/
  callpair : String × String → Option String

namespace CallStore

variable (st : CallStore)

def withRuntime (r : RuntimeStore) : CallStore := { st with toRuntimeStore := r }

def withBilling (b : BillingStore) : CallStore :=
  st.withRuntime { st.toRuntimeStore with toBillingStore := b }

def runBilling {α : Type} (p : BillingProg α) (rs : List BillingReply) : CallStore :=
  st.withBilling (p.exec execBilling rs st.toBillingStore).1

def deleteSession : CallStore :=
  st.withBilling { st.toBillingStore with
    session := none
    introMicros := none
    walletMicros := none
    legacyCoins := none
    earnings := none }

def setSlot (uid : String) (v : Option String) : CallStore :=
  { st with slots := Function.update st.slots uid v }

/-- `DEL` of a slot that holds the call. -/
def releaseSlot (callId uid : String) : CallStore :=
  if st.slots uid = some callId then st.setSlot uid none else st

def releaseActiveCallSlotsIfOurs (callId userFirebaseUid creatorFirebaseUid : String) : CallStore :=
  (st.releaseSlot callId userFirebaseUid).releaseSlot callId creatorFirebaseUid

end CallStore

def callpairKey (uid₁ uid₂ : String) : String × String :=
  if uid₁ ≤ uid₂ then (uid₁, uid₂) else (uid₂, uid₁)

def deleteBillingSessionRedisKeys (callId userFirebaseUid creatorFirebaseUid : String)
    (st : CallStore) : CallStore :=
  let st := st.deleteSession.releaseActiveCallSlotsIfOurs callId userFirebaseUid creatorFirebaseUid
  let key := callpairKey userFirebaseUid creatorFirebaseUid
  if st.callpair key = some callId then
    { st with callpair := Function.update st.callpair key none }
  else st

/-! ### `startBillingSession` -/

/-- What a start finds outside the stores of the call. -/
structure StartEnv where
  now : ℤ
  /-- The orchestrator key is claimed, at once or after its deletion. -/
  claimed : Bool
  reclaimed : Bool
  startLock : Bool
  /-- `isNewCallAdmissionBlocked` is false. -/
  admitted : Bool
  others : String → Option CallSession
  /-- The creator's `User` document. -/
  creatorUserId : Option String

def sessionAgeMs (now : ℤ) (s : CallSession) : ℤ :=
  if 0 < s.startTime then max 0 (now - s.startTime) else 0

/-- Whether a lock or a slot is left over from the call it names: the session of that call is gone,
has ended, or is starting for two minutes. -/
def isStaleHolder (now : ℤ) : Option CallSession → Bool
  | none => true
  | some s =>
    s.lifecycleState == some .settled || s.lifecycleState == some .failed ||
      (s.lifecycleState == some .starting && decide (120000 < sessionAgeMs now s))

section start

variable (cfg : BillingConfig) (callId : String) (env : StartEnv) (q : StartRequest)

def CallStore.sessionOf (st : CallStore) (holder : String) : Option CallSession :=
  if holder = callId then st.session else env.others holder

/-- The call-pair lock, with `tryClearStaleCallpairLock`: whether it was taken. -/
def lockCallpair (st : CallStore) : Bool × CallStore :=
  let key := callpairKey q.userFirebaseUid q.creatorFirebaseUid
  let taken := { st with callpair := Function.update st.callpair key (some callId) }
  match st.callpair key with
  | none => (true, taken)
  | some holder =>
    if isStaleHolder env.now (st.sessionOf callId env holder) then (true, taken) else (false, st)

def CallStore.slotFree (st : CallStore) (uid : String) : Bool := (st.slots uid).all (· == callId)

def tryReserveActiveCallSlots (st : CallStore) : Option CallStore :=
  if st.slotFree callId q.userFirebaseUid && st.slotFree callId q.creatorFirebaseUid then
    some ((st.setSlot q.userFirebaseUid (some callId)).setSlot q.creatorFirebaseUid (some callId))
  else none

def clearOrphanSlot (uid : String) (st : CallStore) : CallStore :=
  match st.slots uid with
  | none => st
  | some holder =>
    if isStaleHolder env.now (st.sessionOf callId env holder) then st.setSlot uid none else st

def tryClearOrphanActiveCallSlots (st : CallStore) : CallStore :=
  clearOrphanSlot callId env q.creatorFirebaseUid (clearOrphanSlot callId env q.userFirebaseUid st)

def tryReserveActiveCallSlotsWithOrphanRetry (st : CallStore) : Bool × CallStore :=
  match tryReserveActiveCallSlots callId q st with
  | some st' => (true, st')
  | none =>
    let st := tryClearOrphanActiveCallSlots callId env q st
    match tryReserveActiveCallSlots callId q st with
    | some st' => (true, st')
    | none => (false, st)

def startDurable (s : CallSession) (st : CallStore) : CallStore :=
  if cfg.durableCallSessionEnabled then
    st.withRuntime { st.toRuntimeStore with
      durable := some ((st.durable.getD (createDurableCallSessionAtStart s env.creatorUserId
        env.now)).mirror s env.now) }
  else st

/-- What a start does with its slots and its seed once it ended.  An error is thrown, and caught,
for a missing document only. -/
def finishStart (outcome : Option StartOutcome) (st : CallStore) : CallStore :=
  let released := fun st : CallStore =>
    st.releaseActiveCallSlotsIfOurs callId q.userFirebaseUid q.creatorFirebaseUid
  match outcome with
  | none => st
  | some (.promoteFailed .userNotFound) | some (.promoteFailed .creatorNotFound) =>
    released st.deleteSession
  | some (.promoteFailed .concurrentPromote) => st
  | some (.promoteFailed _) => released st
  | some (.pendingEnd s) => released (startDurable cfg env s st)
  | some (.started s) => startDurable cfg env s st

def seedSession (rs : List BillingReply) (st : CallStore) : CallStore :=
  let run := (startSession cfg q).exec execBilling rs st.toBillingStore
  finishStart cfg callId env q run.2 (st.withBilling run.1)

/-- A start without a session in its way: whether it reserved the slots. -/
def startAlone (rs : List BillingReply) (st : CallStore) : Bool × CallStore :=
  match lockCallpair callId env q st with
  | (false, st) => (false, st)
  | (true, st) =>
    match tryReserveActiveCallSlotsWithOrphanRetry callId env q st with
    | (false, st) => (false, st)
    | (true, st) => (true, seedSession cfg callId env q rs st)

def startBillingSession (rs : List BillingReply) (st : CallStore) : Bool × CallStore :=
  if env.claimed = false ∧ (st.session.isSome = true ∨ env.reclaimed = false) then (false, st)
  else if env.startLock = false then (false, st)
  else if env.admitted = false then (false, st)
  else
    match st.session with
    | none => startAlone cfg callId env q rs st
    | some s =>
      if s.isBootstrappingSession = true ∧ 60000 < sessionAgeMs env.now s then
        startAlone cfg callId env q rs st.deleteSession
      else (false, st)

end start

/-! ### The resolver, the heals and the tick -/

section ops

variable (cfg : BillingConfig)

/-- The store after `resolveBillingRuntimeState`. -/
def CallStore.resolved (env : ResolverEnv) (st : CallStore) : CallStore :=
  st.withRuntime (resolveBillingRuntimeState cfg env st.toRuntimeStore).2

/-- What a heal finds; `ticks` is what the light heal decides on: this process runs the billing
workers, and the call is stalled or unscheduled. -/
structure HealEnv extends ResolverEnv where
  ticks : Bool
  repairReplies : List BillingReply
  tickReplies : List BillingReply

def loadSessionForHeal (env : ResolverEnv) (st : CallStore) : CallStore :=
  if st.session.isSome = true then st
  else (st.withRuntime { st.toRuntimeStore with terminal := none }).resolved cfg env

def healTicks : ℕ → BillingProg Unit
  | 0 => return ()
  | n + 1 => do
    let result ← processBillingCycleInternal cfg
    if result = .tickDeferred then healTicks n else return ()

def hasValidSessionPricing (s repaired : CallSession) (live : Option CallSession) : Bool :=
  decide (0 < repaired.billingPrice) ||
    (s.needsFullSessionBootstrap && live.any fun l => !l.isBootstrappingSession)

def healSession (env : HealEnv) (s : CallSession) (st : CallStore) : CallStore :=
  let repair := (repairSessionPricingIfNeeded cfg s).exec execBilling env.repairReplies
    st.toBillingStore
  let st := st.withBilling repair.1
  if repair.2.any (fun repaired => hasValidSessionPricing s repaired st.session) = true then
    -- `recoverBillingScheduleForCall` resolves the call again
    let st := st.resolved cfg env.toResolverEnv
    if env.ticks = true then st.runBilling (healTicks cfg 5) env.tickReplies else st
  else st

def healLoaded (env : HealEnv) (st : CallStore) : CallStore :=
  let st := loadSessionForHeal cfg env.toResolverEnv st
  match st.session with
  | none => st
  | some s => healSession cfg env s.normalizeV4 st

def healActiveCallBilling (env : HealEnv) (st : CallStore) : CallStore :=
  healLoaded cfg { env with ticks := true } st

def healActiveCallBillingLight (env : HealEnv) (sessionHint : Option CallSession) (st : CallStore) :
    CallStore :=
  match sessionHint with
  | some s => healSession cfg env s st
  | none => healLoaded cfg env st

def processBillingTick (rs : List BillingReply) (st : CallStore) : CallStore :=
  st.runBilling (processBillingCycleInternal cfg) rs

end ops

/-! ### Ends -/

/-- How far the end of a settled call came after its commit. -/
structure SettleProgress where
  now : ℤ
  /-- `markDurableCallSessionSettled`, with its version. -/
  durableSettled : Option ℤ
  /-- The attempts of the checkpoint `SETTLED`. -/
  checkpointAttempts : ℕ
  /-- `runPostPersistRedisCleanup`, with the parties. -/
  cleanedUp : Option (String × String)

def markDurableCallSessionSettled (cfg : BillingConfig) (version : ℤ) (st : RuntimeStore) :
    RuntimeStore :=
  { st with durable := st.durable.map fun d =>
      if cfg.durableCallSessionEnabled && !d.finalized then
        { d with state := .settled, finalized := true, settlementVersion := version }
      else d }

/-- `runPostPersistRedisCleanup`: the tombstone, the deletion of the keys, the settled key. -/
def runPostPersistRedisCleanup (callId : String) (parties : String × String) (st : CallStore) :
    CallStore :=
  let st := deleteBillingSessionRedisKeys callId parties.1 parties.2
    (st.withRuntime { st.toRuntimeStore with terminal := some true })
  st.withBilling { st.toBillingStore with settled := true }

def settleCommitted (cfg : BillingConfig) (callId : String) (p : SettleProgress) (st : CallStore) :
    CallStore :=
  let runtime := p.durableSettled.elim st.toRuntimeStore fun version =>
    markDurableCallSessionSettled cfg version st.toRuntimeStore
  let runtime := (checkpointLifecycleState cfg .settled .settled p.now p.checkpointAttempts runtime).2
  let st := st.withRuntime runtime
  p.cleanedUp.elim st fun parties => runPostPersistRedisCleanup callId parties st

def knownUid (uid : String) : Option String := if uid.isEmpty then none else some uid

def deadLetterSession (s : CallSession) : CallSession :=
  let next := transitionBillingState (s.lifecycleState.getD .failed) .failedRecoverySettlement
  { s with lifecycleState := some next.1 }

def raiseTotals (totals : AuthoritativeTotals) (d : DurableCallSession) : DurableCallSession :=
  if 0 < totals.totalDeductedMicros then
    { d with
      totalUserDebitedMicros := max d.totalUserDebitedMicros totals.totalDeductedMicros
      totalCreatorCreditedMicros := max d.totalCreatorCreditedMicros totals.totalEarnedMicros
      billingSequence := max d.billingSequence totals.billingSequence }
  else d

/-- `markDurableCallSessionFailedSettlement`. -/
def failDurable (d : DurableCallSession) : DurableCallSession :=
  if d.finalized then d else { d with state := .failedSettlement }

def partyUid (st : CallStore) (durable : Option DurableCallSession) (ofSession : CallSession → String)
    (ofDurable : DurableCallSession → String) : Option String :=
  (st.session.bind fun s => knownUid (ofSession s)) <|> durable.bind fun d => knownUid (ofDurable d)

def deleteDeadLetterKeys (callId : String) (userFirebaseUid creatorFirebaseUid : Option String)
    (st : CallStore) : CallStore :=
  match creatorFirebaseUid, userFirebaseUid with
  | none, _ => st
  | some creator, none => st.setSlot creator none
  | some creator, some user =>
    (deleteBillingSessionRedisKeys callId user creator st).setSlot creator none

def moveCallToRecoveryDeadLetter (cfg : BillingConfig) (callId : String) (st : CallStore) :
    CallStore :=
  let totals := resolveAuthoritativeSettlementTotals cfg st.toRuntimeStore
  let durable := st.durable.filter fun _ => cfg.durableCallSessionEnabled
  let runtime : RuntimeStore :=
    { st.toRuntimeStore with
      session := st.session.map deadLetterSession
      durable := if cfg.durableCallSessionEnabled then
          st.durable.map fun d => failDurable (raiseTotals totals d)
        else st.durable }
  deleteDeadLetterKeys callId
    (partyUid st durable CallSession.userFirebaseUid DurableCallSession.callerFirebaseUid)
    (partyUid st durable CallSession.creatorFirebaseUid DurableCallSession.creatorFirebaseUid)
    (st.withRuntime runtime)

/-! ### Sequences of operations -/

inductive BillingOp where
  | start (env : StartEnv) (q : StartRequest) (rs : List BillingReply)
  | resolve (env : ResolverEnv)
  | heal (env : HealEnv)
  | healLight (env : HealEnv) (sessionHint : Option CallSession)
  | tick (rs : List BillingReply)

/-- Whether the operation sets the active-call slots, and the store it leaves. -/
def BillingOp.run (cfg : BillingConfig) (callId : String) (st : CallStore) :
    BillingOp → Bool × CallStore
  | .start env q rs => startBillingSession cfg callId env q rs st
  | .resolve env => (false, st.resolved cfg env)
  | .heal env => (false, healActiveCallBilling cfg env st)
  | .healLight env sessionHint => (false, healActiveCallBillingLight cfg env sessionHint st)
  | .tick rs => (false, processBillingTick cfg rs st)

inductive CallKey where
  | session
  | introMicros
  | walletMicros
  | legacyCoins
  | earnings
  | settled
  | terminal
  | slot (uid : String)
  | callpair (key : String × String)

def expireKey (st : CallStore) : CallKey → CallStore
  | .session => st.withBilling { st.toBillingStore with session := none }
  | .introMicros => st.withBilling { st.toBillingStore with introMicros := none }
  | .walletMicros => st.withBilling { st.toBillingStore with walletMicros := none }
  | .legacyCoins => st.withBilling { st.toBillingStore with legacyCoins := none }
  | .earnings => st.withBilling { st.toBillingStore with earnings := none }
  | .settled => st.withBilling { st.toBillingStore with settled := false }
  | .terminal => st.withRuntime { st.toRuntimeStore with terminal := none }
  | .slot uid => st.setSlot uid none
  | .callpair key => { st with callpair := Function.update st.callpair key none }

/-- What happens to a call: an operation, one of its ends, or the expiry of a key. -/
inductive Step where
  | op (o : BillingOp)
  | settle (p : SettleProgress)
  | deadLetter
  | expire (k : CallKey)

def Step.run (cfg : BillingConfig) (callId : String) (st : CallStore) : Step → CallStore
  | .op o => (o.run cfg callId st).2
  | .settle p => settleCommitted cfg callId p st
  | .deadLetter => moveCallToRecoveryDeadLetter cfg callId st
  | .expire k => expireKey st k

def trace (cfg : BillingConfig) (callId : String) : List Step → CallStore → List (CallStore × Step)
  | [], _ => []
  | step :: steps, st => (st, step) :: trace cfg callId steps (step.run cfg callId st)

end VibemeetBackend.EndedCall
