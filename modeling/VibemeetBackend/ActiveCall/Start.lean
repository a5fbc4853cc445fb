import VibemeetBackend.Async.Protocol
import VibemeetBackend.EndedCall.Operations

/-!
# Concurrent starts

`startBillingSession` of `billing.service.ts` as a program over the Redis keys of all calls: the
orchestrator claim, the start lock, the call-pair lock and the active-call slots with their
recovery, and the seed, promotion and activation of the session.

A command that was not `delivered` did nothing; one that was delivered but not `answered` took
effect and still throws.  `starting` records the reservations of the starts in progress and is read
by no program.
-/

namespace VibemeetBackend.ActiveCall

open Async Billing EndedCall

/-- The payer and the creator of a start, by Firebase UID. -/
abbrev Parties : Type := String × String

structure ActiveCallStore where
  billing : String → BillingStore
  /-- `activeCallByUserKey`. -/
  slots : String → Option String
  /-- `callpairKey`. -/
  callpair : String × String → Option String
  /-- `billingStartOrchestratorKey`. -/
  orchestrator : String → Bool
  /-- `billingSessionStartLockKey`, with the token. -/
  startLock : String → Option String
  /-- The reservations of the starts in progress. -/
  starting : String → List Parties

namespace ActiveCallStore

variable (s : ActiveCallStore)

/-- `callSessionKey`. -/
def session (callId : String) : Option CallSession := (s.billing callId).session

def setBilling (callId : String) (b : BillingStore) : ActiveCallStore :=
  { s with billing := Function.update s.billing callId b }

def setSession (callId : String) (session : Option CallSession) : ActiveCallStore :=
  s.setBilling callId { s.billing callId with session }

/-- `clearCallSessionSeed`: one `MULTI`. -/
def clearSeed (callId : String) : ActiveCallStore :=
  s.setBilling callId { s.billing callId with
    session := none
    introMicros := none
    walletMicros := none
    legacyCoins := none
    earnings := none }

def setSlot (uid : String) (v : Option String) : ActiveCallStore :=
  { s with slots := Function.update s.slots uid v }

theorem slots_setSlot {uid : String} (uid' : String) (v : Option String) :
    (s.setSlot uid' v).slots uid = if uid = uid' then v else s.slots uid := by
  simp only [setSlot, Function.update_apply]

def setPair (key : String × String) (v : Option String) : ActiveCallStore :=
  { s with callpair := Function.update s.callpair key v }

def setStarting (callId : String) (l : List Parties) : ActiveCallStore :=
  { s with starting := Function.update s.starting callId l }

def reservable (callId : String) (p : Parties) : Bool :=
  (s.slots p.1).all (· == callId) && (s.slots p.2).all (· == callId)

end ActiveCallStore

/-- The environment's answer to a command; `now` is the time when it is executed. -/
structure ActiveCallReply where
  delivered : Bool
  answered : Bool
  now : ℤ
  /-- `isNewCallAdmissionBlocked` is false. -/
  admitted : Bool
  billing : BillingReply

/-- A caller sees a failed call unless the command was delivered and its answer came back. -/
def ActiveCallReply.ok (r : ActiveCallReply) : Bool := r.delivered && r.answered

inductive ActiveCallCmd where
  | query
  | claimOrchestrator (callId : String)
  | delOrchestrator (callId : String)
  /-- `SET … NX` on the start lock. -/
  | lockStart (callId token : String)
  | unlockStart (callId token : String)
  /-- `SET … NX` on the call-pair lock. -/
  | lockPair (key : String × String) (callId : String)
  /-- `RELEASE_CALLPAIR_IF_MATCH_LUA` and the `DEL` of `releasePair`. -/
  | recoverPair (key : String × String) (holder : String)
  | recoverPairDel (key : String × String)
  /-- The script of `tryReserveActiveCallSlots`. -/
  | reserve (callId : String) (p : Parties)
  /-- The `DEL` of `clearActiveCallSlot`. -/
  | recoverSlot (uid : String)
  /-- The `DEL` of `releaseActiveCallSlotsIfOurs`. -/
  | delSlot (uid : String)
  /-- A command of the seed, the promotion or the activation. -/
  | billing (callId : String) (c : BillingCmd)
  | clearSeed (callId : String)
  | finish (callId : String) (p : Parties)
  /-- The commands of an end: the session moves to a terminal lifecycle, is deleted, and the slots and
  the call-pair lock are released by scripts that compare. -/
  | markTerminal (callId : String) (lifecycle : Lifecycle)
  | delSession (callId : String)
  | releaseSlot (uid callId : String)
  | releasePair (key : String × String) (callId : String)
  | expireSlot (uid : String)
  | expirePair (key : String × String)
  | expireStartLock (callId : String)
  | expireOrchestrator (callId : String)

def effect (r : ActiveCallReply) (s : ActiveCallStore) : ActiveCallCmd → ActiveCallStore
  | .query => s
  | .claimOrchestrator id => { s with orchestrator := Function.update s.orchestrator id true }
  | .delOrchestrator id | .expireOrchestrator id =>
    { s with orchestrator := Function.update s.orchestrator id false }
  | .lockStart id token =>
    if s.startLock id = none then
      { s with startLock := Function.update s.startLock id (some token) }
    else s
  | .unlockStart id token =>
    if s.startLock id = some token then { s with startLock := Function.update s.startLock id none }
    else s
  | .expireStartLock id => { s with startLock := Function.update s.startLock id none }
  | .lockPair key id => if s.callpair key = none then s.setPair key (some id) else s
  | .recoverPair key holder => if s.callpair key = some holder then s.setPair key none else s
  | .recoverPairDel key | .expirePair key => s.setPair key none
  | .releasePair key id => if s.callpair key = some id then s.setPair key none else s
  | .reserve id p =>
    if s.reservable id p = true then
      let s' := (s.setSlot p.1 (some id)).setSlot p.2 (some id)
      if r.ok = true then s'.setStarting id (p :: s.starting id) else s'
    else s
  | .recoverSlot uid | .delSlot uid | .expireSlot uid => s.setSlot uid none
  | .releaseSlot uid id => if s.slots uid = some id then s.setSlot uid none else s
  | .billing id c => s.setBilling id (execBilling c r.billing (s.billing id))
  | .clearSeed id => s.clearSeed id
  | .finish id p => s.setStarting id ((s.starting id).erase p)
  | .markTerminal id lifecycle =>
    s.setSession id ((s.session id).map fun c => { c with lifecycleState := some lifecycle })
  | .delSession id => s.setSession id none

/-- What a command does.  The bookkeeping of a start is no command that could be lost. -/
def exec (c : ActiveCallCmd) (r : ActiveCallReply) (s : ActiveCallStore) : ActiveCallStore :=
  match c with
  | .finish _ _ => effect r s c
  | _ => if r.delivered = true then effect r s c else s

/-! ### A start -/

abbrev ActiveCallFlow (α : Type) : Type :=
  Flow ActiveCallCmd ActiveCallReply ActiveCallStore α

def run (c : ActiveCallCmd) : ActiveCallFlow (ActiveCallReply × ActiveCallStore) :=
  Flow.call ActiveCallReply.ok "store unavailable" c

/-- A command whose failure is caught and ignored. -/
def quiet (c : ActiveCallCmd) : ActiveCallFlow (ActiveCallReply × ActiveCallStore) :=
  Flow.call (fun _ => true) "" c

def runBilling (callId : String) (c : BillingCmd) :
    ActiveCallFlow (BillingReply × BillingStore) := do
  let (r, s) ← run (.billing callId c)
  pure (r.billing, s.billing callId)

def partiesOf (q : StartRequest) : Parties := (q.userFirebaseUid, q.creatorFirebaseUid)

def finish (callId : String) (p : Parties) : ActiveCallFlow Unit := do
  let _ ← quiet (.finish callId p)
  pure ()

/-! ### Recovery -/

/-- One slot of `tryClearOrphanActiveCallSlots`: the slot is read, then the session of the call it
names, and the slot is deleted whatever it names by then. -/
def tryClearOrphanSlot (uid : String) : ActiveCallFlow Unit := do
  let (_, s) ← run .query
  match s.slots uid with
  | none => pure ()
  | some holder => do
    let (r, s) ← run .query
    if isStaleHolder r.now (s.session holder) = true then do
      let _ ← quiet (.recoverSlot uid)
      let _ ← run .query
      pure ()
    else pure ()

def tryClearOrphanActiveCallSlots (p : Parties) : ActiveCallFlow Unit := do
  tryClearOrphanSlot p.1
  tryClearOrphanSlot p.2

/-- `releasePair` of `tryClearStaleCallpairLock`: a key that is there again is deleted. -/
def releasePair (key : String × String) (holder : String) : ActiveCallFlow Unit := do
  let _ ← quiet (.recoverPair key holder)
  let (_, s) ← run .query
  if (s.callpair key).isSome = true then do
    let _ ← quiet (.recoverPairDel key)
    let _ ← run .query
    pure ()
  else do
    let _ ← run .query
    pure ()

def tryClearStaleCallpairLock (key : String × String) : ActiveCallFlow Bool := do
  let (_, s) ← run .query
  match s.callpair key with
  | none => pure false
  | some holder => do
    let (r, s) ← run .query
    if isStaleHolder r.now (s.session holder) = true then do
      releasePair key holder
      pure true
    else pure false

def tryReserveActiveCallSlots (callId : String) (p : Parties) : ActiveCallFlow Bool := do
  let (_, s) ← run (.reserve callId p)
  pure (s.reservable callId p)

def tryReserveActiveCallSlotsWithOrphanRetry (callId : String) (p : Parties) :
    ActiveCallFlow Bool := do
  if (← tryReserveActiveCallSlots callId p) = true then pure true
  else do
    tryClearOrphanActiveCallSlots p
    tryReserveActiveCallSlots callId p

/-- One slot of `releaseActiveCallSlotsIfOurs`, after it was read. -/
def releaseSlotIfOurs (callId uid : String) (read : Option String) : ActiveCallFlow Unit :=
  if read = some callId then do
    let _ ← quiet (.delSlot uid)
    let _ ← run .query
    pure ()
  else pure ()

def releaseActiveCallSlotsIfOurs (callId : String) (p : Parties) : ActiveCallFlow Unit := do
  let (_, su) ← run .query
  let (_, sc) ← run .query
  releaseSlotIfOurs callId p.1 (su.slots p.1)
  releaseSlotIfOurs callId p.2 (sc.slots p.2)

/-! ### `startBillingSession` -/

section start

variable (cfg : BillingConfig) (callId token : String) (q : StartRequest)

/-- What the promotion's writes throw is its own failure. -/
def promoteError : ActiveCallCmd → String
  | .billing _ (.persistAll ..) | .billing _ (.persistSession _) => "redis_error"
  | _ => "store unavailable"

/-- The error of a failed checkpoint is caught. -/
def promoteOk (c : ActiveCallCmd) (r : ActiveCallReply) : Bool :=
  match c with
  | .billing _ (.upsertSnapshot _) => true
  | _ => r.ok

/-- `promoteBootstrappingSession`; `none` is its `redis_error`. -/
def promote (early : CallSession) : ActiveCallFlow (Option (Except PromoteFailure Promotion)) :=
  tryCatch (do
    let result ← Prog.focusFlow promoteOk promoteError (.billing callId) ActiveCallReply.billing
      (fun s : ActiveCallStore => s.billing callId)
      (promoteBootstrappingSession cfg early
        { preserveStartTime := false, preserveRuntimeBalances := false })
    pure (some result)) fun e => if e = "redis_error" then pure none else throw e

/-- The promoted session made active: whether a pending end was found, and when. -/
def activate (p : Promotion) : ActiveCallFlow (Bool × ℤ) := do
  let (r, _) ← quiet .query
  let _ ← runBilling callId (.persistSession (startedSession p.session r.now))
  let (rp, _) ← runBilling callId .consumePendingEnd
  pure (rp.ok, r.now)

/-- What the `catch` of a start undoes; the error is thrown again. -/
def undo (seeded releaseSlots : Bool) (e : String) : ActiveCallFlow Unit := do
  if seeded = true then
    let _ ← quiet (.clearSeed callId)
  let _ ← quiet (.delOrchestrator callId)
  if releaseSlots = true then releaseActiveCallSlotsIfOurs callId (partiesOf q)
  throw e

/-- The `catch` of a start that holds its reservation. -/
def cleanUp (seeded releaseSlots : Bool) (e : String) : ActiveCallFlow Unit := do
  finish callId (partiesOf q)
  undo callId q seeded releaseSlots e

/-- A promotion that did not go through.  A start that terminates the call has its slots released
first; the seed stays. -/
def promoteFailed : Option PromoteFailure → ActiveCallFlow Unit
  | some .userNotFound => cleanUp callId q true true "User not found"
  | some .creatorNotFound => cleanUp callId q true true "Creator not found"
  | some .invalidParticipants | some .creatorDisabled | some .insufficientCoins => do
    finish callId (partiesOf q)
    releaseActiveCallSlotsIfOurs callId (partiesOf q)
  | some .concurrentPromote | none => finish callId (partiesOf q)

/-- A promotion that went through.  A pending end settles the call, and its slots are released. -/
def promoted (p : Promotion) : ActiveCallFlow Unit := do
  match ← Flow.attempt (activate callId p) with
  | .error e => cleanUp callId q false false e
  | .ok (pendingEnd, now) => do
    finish callId (partiesOf q)
    if pendingEnd = true then
      tryCatch (releaseActiveCallSlotsIfOurs callId (partiesOf q)) (undo callId q false false)
    else do
      let _ ← quiet (.billing callId (.upsertSnapshot
        ((startedSession p.session now).snapshot p.spendableMicros)))
      pure ()

/-- The rest of a start that reserved its slots. -/
def seedAndPromote : ActiveCallFlow Unit := do
  let seed ← Flow.attempt (do
    let (r, _) ← quiet .query
    let early := earlySession cfg q r.now
    let _ ← runBilling callId (.persistAll .earlySeed early 0 0 0)
    pure early)
  match seed with
  | .error e => cleanUp callId q false true e
  | .ok early => do
    match ← Flow.attempt (promote cfg callId early) with
    | .error e => cleanUp callId q true true e
    | .ok none => promoteFailed callId q none
    | .ok (some (.error reason)) => promoteFailed callId q (some reason)
    | .ok (some (.ok p)) => promoted callId q p

def startAlone : ActiveCallFlow Unit := do
  let key := callpairKey q.userFirebaseUid q.creatorFirebaseUid
  let (_, s) ← run (.lockPair key callId)
  let locked ← do
    if s.callpair key = none then pure true
    else if (← tryClearStaleCallpairLock key) = true then do
      let (_, s) ← run (.lockPair key callId)
      pure (s.callpair key).isNone
    else pure false
  if locked = true then
    if (← tryReserveActiveCallSlotsWithOrphanRetry callId (partiesOf q)) = true then
      seedAndPromote cfg callId q
    else pure ()
  else pure ()

def startLocked : ActiveCallFlow Unit := do
  let (r, _) ← quiet .query
  if r.admitted = false then pure ()
  else do
    let (r, s) ← run .query
    match s.session callId with
    | none => startAlone cfg callId q
    | some c =>
      if c.isBootstrappingSession = true ∧ 60000 < sessionAgeMs r.now c then do
        let (cleared, _) ← quiet (.clearSeed callId)
        if cleared.ok = true then startAlone cfg callId q else pure ()
      else pure ()

def startBillingSession : ActiveCallFlow Unit := do
  let (_, s) ← run (.claimOrchestrator callId)
  let claimed ← do
    if s.orchestrator callId = false then pure true
    else do
      let (_, s) ← run .query
      if (s.session callId).isSome = true then pure false
      else do
        let _ ← quiet (.delOrchestrator callId)
        let (_, s) ← run (.claimOrchestrator callId)
        pure (!s.orchestrator callId)
  if claimed = true then do
    let (_, s) ← run (.lockStart callId token)
    if (s.startLock callId).isSome = true then pure ()
    else do
      let result ← Flow.attempt (startLocked cfg callId q)
      let _ ← quiet (.unlockStart callId token)
      ExceptT.mk (pure result)
  else pure ()

end start

/-! ### Requests -/

/-- What can be admitted at any time: a start, the steps of an end (`deleteBillingSessionRedisKeys`, or
a terminal lifecycle), or the expiry of a key. -/
inductive Request where
  | start (callId token : String) (q : StartRequest)
  | markTerminal (callId : String) (lifecycle : Lifecycle)
  | endCall (callId : String) (p : Parties)
  | expireSession (callId : String)
  | expire (c : ActiveCallCmd)

def deleteBillingSessionRedisKeys (callId : String) (p : Parties) : ActiveCallFlow Unit := do
  let _ ← run (.delSession callId)
  let _ ← run (.releaseSlot p.1 callId)
  let _ ← run (.releaseSlot p.2 callId)
  let _ ← run (.releasePair (callpairKey p.1 p.2) callId)
  pure ()

def expireKey (c : ActiveCallCmd) : ActiveCallFlow Unit :=
  match c with
  | .expireSlot _ | .expirePair _ | .expireStartLock _ | .expireOrchestrator _ => do
    let _ ← quiet c
    pure ()
  | _ => pure ()

def program (cfg : BillingConfig) (req : Request) :
    Prog ActiveCallCmd ActiveCallReply ActiveCallStore Unit :=
  let flow : ActiveCallFlow Unit :=
    match req with
    | .start callId token q => startBillingSession cfg callId token q
    | .markTerminal callId lifecycle =>
      if lifecycle = .settled ∨ lifecycle = .failed then do
        let _ ← run (.markTerminal callId lifecycle)
        pure ()
      else pure ()
    | .endCall callId p => deleteBillingSessionRedisKeys callId p
    | .expireSession callId => do
      let _ ← quiet (.delSession callId)
      pure ()
    | .expire c => expireKey c
  flow.run >>= fun _ => .ret ()

end VibemeetBackend.ActiveCall
