import VibemeetBackend.Async.Transaction
import VibemeetBackend.Async.Watch
import VibemeetBackend.Billing.Session
import VibemeetBackend.Billing.SettleTransaction

/-!
# The domain event outbox

`domain-event.service.ts` and `event-dispatcher.ts` on one event, with the projection of its billing
payload to the call history in `call-history-projector.service.ts`.

The type and the payload of an event never change, so they are parameters; the rows of the call
history are those of the call that the payload names.  Metrics and the warnings of the dispatcher
are left out.
-/

namespace VibemeetBackend.Outbox

open Async
open Billing (HistoryStatus isBlank splitCreatorEarningsByDebit)

/-! ### The event -/

inductive DomainEventStatus where
  | pending | processing | processed | failed | dead
  deriving DecidableEq

structure DomainEvent where
  status : DomainEventStatus
  retryCount : ℕ
  claimedBy : Option String
  claimedAt : Option ℤ
  processedAt : Option ℤ
  lastError : Option String
  deriving DecidableEq

/-- The document that `persistDomainEvent` creates. -/
def DomainEvent.persisted : DomainEvent := ⟨.pending, 0, none, none, none, none⟩

namespace DomainEvent

variable (d : DomainEvent)

def reset : DomainEvent := { d with status := .pending, claimedBy := none, claimedAt := none }

def claim (instanceId : String) (now : ℤ) : DomainEvent :=
  { d with status := .processing, claimedBy := some instanceId, claimedAt := some now }

/-- `lastError: undefined` is not sent. -/
def complete (now : ℤ) : DomainEvent :=
  { d with status := .processed, processedAt := some now, claimedBy := none, claimedAt := none }

def fail (retryCount : ℕ) (dead : Bool) (lastError : String) : DomainEvent :=
  { d with status := if dead then .dead else .pending, retryCount, lastError := some lastError
           claimedBy := none, claimedAt := none }

def replay : DomainEvent :=
  { d with status := .pending, retryCount := 0, processedAt := none, lastError := none }

end DomainEvent

/-- The types of `CallBillingProjectionEvent`. -/
inductive BillingEventType where
  | ending | settled | failedSettlement
  deriving DecidableEq, Repr

def BillingEventType.text : BillingEventType → String
  | .ending => "call.billing.ending"
  | .settled => "call.billing.settled"
  | .failedSettlement => "call.billing.failed_settlement"

inductive Handler where
  | billing (type : BillingEventType)
  | subscribed (name : String)
  deriving DecidableEq, Repr

/-- The subscriptions of `billing-domain-event-handlers.ts`. -/
def billingSubscriptions : List (String × Handler) :=
  [BillingEventType.ending, .settled, .failedSettlement].map fun type => (type.text, .billing type)

/-- The payload of a billing event.  A number that is missing, or not one, is `none`. -/
structure Payload where
  callId : String
  aggregateId : String
  userMongoId : String
  creatorMongoId : String
  userFirebaseUid : String
  creatorFirebaseUid : String
  durationSeconds : Option ℤ
  coinsDeducted : Option ℤ
  walletCoinsDeducted : Option ℤ
  coinsEarned : Option ℤ
  paidCoinsEarned : Option ℤ
  freeCoinsEarned : Option ℤ

/-- `Math.max(0, Number(x) || 0)`. -/
def amount (x : Option ℤ) : ℕ := (x.getD 0).toNat

/-- `String(raw.callId || raw.aggregateId || '').trim()` is not empty. -/
def Payload.namesCall (p : Payload) : Bool :=
  !isBlank (if p.callId = "" then p.aggregateId else p.callId)

structure Setup where
  enabled : Bool
  maxRetries : ℤ
  claimTtlMs : ℤ
  subscriptions : List (String × Handler)
  eventType : String
  payload : Payload

def Setup.getHandlersForType (o : Setup) : List Handler :=
  (o.subscriptions.filter fun x => x.1 = o.eventType).map Prod.snd

/-! ### The call history -/

inductive OwnerRole where
  | user | creator
  deriving DecidableEq, Repr

inductive Direction where
  | incoming | outgoing
  deriving DecidableEq, Repr

structure CallHistory extends Billing.CallHistory where
  ownerUserId : String
  otherUserId : String
  otherCreatorId : Option String
  otherName : String
  otherAvatar : Option String
  otherFirebaseUid : String
  ownerRole : OwnerRole
  direction : Direction
  callStartedAt : ℤ
  callEndedAt : ℤ
  settledAt : Option ℤ
  deriving DecidableEq, Repr

/-- What a settled event sets in the row of a party. -/
structure SettledFields where
  settledAt : ℤ
  durationSeconds : ℕ
  coinsDeducted : ℕ
  walletCoinsDeducted : Option ℕ
  coinsEarned : ℕ
  split : Option (ℕ × ℕ)
  deriving DecidableEq, Repr

namespace CallHistory

variable (row : CallHistory)

/-- The update of a row by the fields of a pending one; those that are undefined are not sent. -/
def repend (new : CallHistory) : CallHistory :=
  { new with
    otherCreatorId := new.otherCreatorId <|> row.otherCreatorId
    otherAvatar := new.otherAvatar <|> row.otherAvatar
    walletCoinsDeducted := row.walletCoinsDeducted
    paidCoinsEarned := row.paidCoinsEarned
    freeCoinsEarned := row.freeCoinsEarned
    settledAt := row.settledAt }

def settle (x : SettledFields) : CallHistory :=
  { row with
    settlementStatus := .settled
    settledAt := some x.settledAt
    durationSeconds := x.durationSeconds
    coinsDeducted := x.coinsDeducted
    walletCoinsDeducted := x.walletCoinsDeducted <|> row.walletCoinsDeducted
    coinsEarned := x.coinsEarned
    paidCoinsEarned := (x.split.map Prod.fst) <|> row.paidCoinsEarned
    freeCoinsEarned := (x.split.map Prod.snd) <|> row.freeCoinsEarned }

end CallHistory

inductive HistoryWrite where
  | pending (row : CallHistory)
  | settled (ownerRole : OwnerRole) (fields : SettledFields)
  | failed
  deriving DecidableEq, Repr

/-- The unique index on call and owner refuses the upsert: the row is there, and settled. -/
def HistoryWrite.refused (w : HistoryWrite) (rows : List CallHistory) : Bool :=
  match w with
  | .pending new => rows.any fun row =>
    row.ownerUserId == new.ownerUserId && row.settlementStatus == .settled
  | .settled .. | .failed => false

def HistoryWrite.applies (w : HistoryWrite) (rows : List CallHistory) : Bool :=
  match w with
  | .pending _ => !w.refused rows
  | .settled role _ => rows.any fun row => row.ownerRole == role
  | .failed => !rows.isEmpty

def HistoryWrite.exec (w : HistoryWrite) (rows : List CallHistory) : List CallHistory :=
  match w with
  | .pending new =>
    if w.refused rows = true then rows
    else if (rows.any fun row => row.ownerUserId == new.ownerUserId) = true then
      rows.replaceF fun row =>
        if row.ownerUserId = new.ownerUserId then some (row.repend new) else none
    else rows ++ [new]
  | .settled role fields =>
    rows.replaceF fun row => if row.ownerRole = role then some (row.settle fields) else none
  | .failed => rows.map fun row => { row with settlementStatus := .failed }

/-! ### Commands -/

structure UserDoc where
  username : Option String
  phone : Option String
  email : Option String
  /-- The medium URL of `buildAvatarUrls`. -/
  avatar : Option String

structure CreatorDoc where
  id : String
  name : String
  avatar : Option String
  userId : Option String

inductive InitiatedByRole where
  | user | creator | admin
  deriving DecidableEq

/-- The `Call` document of a lifecycle. -/
structure CallDoc where
  startedAt : Option ℤ
  endedAt : Option ℤ
  initiatedByRole : Option InitiatedByRole

/-- The answer of the store, with the time and the other documents that a command finds. -/
structure Reply where
  delivered : Bool
  answered : Bool
  now : ℤ
  oldest : Bool
  /-- An event that is claimed instead, and whether the worker will complete it. -/
  other : Option Bool
  user : Option UserDoc
  creator : Option CreatorDoc
  call : Option CallDoc

def Reply.ok (r : Reply) : Bool := r.delivered && r.answered

inductive LogLine where
  | projected (type : BillingEventType)
  | skipAlreadySettled
  | projectionFailed (type : BillingEventType) (err : String)

def LogLine.type : LogLine → BillingEventType
  | .projected type | .projectionFailed type _ => type
  | .skipAlreadySettled => .ending

inductive Cmd where
  | resetStale
  | claim (instanceId : String)
  | findUser (id : String)
  | findCreator (id : String)
  | findCall
  | findSettled
  | write (w : HistoryWrite)
  | log (line : LogLine)
  | handle (name : String)
  | complete
  | fail (retryCount : ℕ) (dead : Bool) (lastError : String)
  | findEvent
  | replay
  | setRows (rows : List CallHistory)

structure Store where
  doc : DomainEvent
  rows : List CallHistory

namespace Store

variable (s : Store)

/-- `claimedAt: { $lt: cutoff }`. -/
def stale (ttl now : ℤ) : Bool :=
  s.doc.status == .processing && s.doc.claimedAt.any fun at' => at' < now - ttl

def claimable (r : Reply) : Bool := r.oldest && s.doc.status == .pending

def alreadySettled : Bool := s.rows.any fun row => row.settlementStatus == .settled

end Store

def Cmd.exec (o : Setup) (c : Cmd) (r : Reply) (s : Store) : Store :=
  if r.delivered = false then s
  else
    match c with
    | .findUser _ | .findCreator _ | .findCall | .findSettled | .log _ | .handle _ | .findEvent => s
    | .resetStale => if s.stale o.claimTtlMs r.now = true then { s with doc := s.doc.reset } else s
    | .claim instanceId =>
      if s.claimable r = true then { s with doc := s.doc.claim instanceId r.now } else s
    | .write w => { s with rows := w.exec s.rows }
    | .complete => { s with doc := s.doc.complete r.now }
    | .fail retryCount dead lastError => { s with doc := s.doc.fail retryCount dead lastError }
    | .replay => { s with doc := s.doc.replay }
    | .setRows rows => { s with rows := rows }

abbrev OutboxFlow (α : Type) : Type := Flow Cmd Reply Store α

def run (c : Cmd) : OutboxFlow (Reply × Store) := Flow.call Reply.ok "request failed" c

def log (line : LogLine) : OutboxFlow Unit := do
  let _ ← Flow.issue (.log line)
  pure ()

/-! ### The projector -/

structure Parties where
  userName : String
  creatorName : String
  userAvatar : Option String
  creatorAvatar : Option String
  creatorOwnerUserId : Option String
  creatorDocId : Option String
  userDirection : Direction
  creatorDirection : Direction
  callStartedAt : ℤ
  callEndedAt : ℤ

def firstText (texts : List (Option String)) (otherwise : String) : String :=
  ((texts.map fun text => text.getD "").find? fun text => text != "").getD otherwise

def parties (user : Option UserDoc) (creator : Option CreatorDoc) (call : Option CallDoc)
    (now : ℤ) : Parties :=
  let initiatedByRole := call.bind CallDoc.initiatedByRole
  let creatorInitiated := initiatedByRole = some .creator ∨ initiatedByRole = some .admin
  { userName := firstText [user.bind UserDoc.username, user.bind UserDoc.phone,
      user.bind UserDoc.email] "User"
    creatorName := firstText [creator.map CreatorDoc.name] "Creator"
    userAvatar := user.bind UserDoc.avatar
    creatorAvatar := creator.bind CreatorDoc.avatar
    creatorOwnerUserId := creator.bind CreatorDoc.userId
    creatorDocId := creator.map CreatorDoc.id
    userDirection := if creatorInitiated then .incoming else .outgoing
    creatorDirection := if creatorInitiated then .outgoing else .incoming
    callStartedAt := (call.bind CallDoc.startedAt).getD now
    callEndedAt := (call.bind CallDoc.endedAt).getD now }

def resolveParties (p : Payload) : OutboxFlow (Parties × ℤ) := do
  let (ru, _) ← run (.findUser p.userMongoId)
  let (rc, _) ← run (.findCreator p.creatorMongoId)
  let (r, _) ← run .findCall
  pure (parties ru.user rc.creator r.call r.now, r.now)

def write (w : HistoryWrite) : OutboxFlow Unit := do
  let (_, s) ← run (.write w)
  if w.refused s.rows = true then throw "E11000 duplicate key error" else pure ()

def pendingBase (p : Payload) : Billing.CallHistory where
  settlementStatus := .pending
  durationSeconds := amount p.durationSeconds
  coinsDeducted := 0
  walletCoinsDeducted := none
  coinsEarned := 0
  paidCoinsEarned := none
  freeCoinsEarned := none

def userRow (p : Payload) (x : Parties) : CallHistory :=
  { pendingBase p with
    ownerUserId := p.userMongoId
    otherUserId := firstText [x.creatorOwnerUserId] p.creatorMongoId
    otherCreatorId := x.creatorDocId
    otherName := x.creatorName
    otherAvatar := x.creatorAvatar
    otherFirebaseUid := p.creatorFirebaseUid
    ownerRole := .user
    direction := x.userDirection
    callStartedAt := x.callStartedAt
    callEndedAt := x.callEndedAt
    settledAt := none }

def creatorRow (p : Payload) (x : Parties) (creatorOwnerUserId : String) : CallHistory :=
  { pendingBase p with
    ownerUserId := creatorOwnerUserId
    otherUserId := p.userMongoId
    otherCreatorId := none
    otherName := x.userName
    otherAvatar := x.userAvatar
    otherFirebaseUid := p.userFirebaseUid
    ownerRole := .creator
    direction := x.creatorDirection
    callStartedAt := x.callStartedAt
    callEndedAt := x.callEndedAt
    settledAt := none }

def writeCreatorRow (p : Payload) (x : Parties) : OutboxFlow Unit :=
  match x.creatorOwnerUserId with
  | some owner => write (.pending (creatorRow p x owner))
  | none => pure ()

/-- `call.billing.ending`. -/
def projectEnding (p : Payload) (x : Parties) : OutboxFlow Unit := do
  let (_, s) ← run .findSettled
  if s.alreadySettled = true then log .skipAlreadySettled
  else do
    write (.pending (userRow p x))
    writeCreatorRow p x
    log (.projected .ending)

def earnings (p : Payload) : ℕ × ℕ :=
  if p.paidCoinsEarned.isSome = true ∨ p.freeCoinsEarned.isSome = true then
    (amount p.paidCoinsEarned, amount p.freeCoinsEarned)
  else
    let wallet := (p.walletCoinsDeducted.map Int.toNat).getD (amount p.coinsDeducted)
    let intro := (amount p.coinsDeducted : ℤ) - wallet
    splitCreatorEarningsByDebit (amount p.coinsEarned) intro wallet

def settledUser (p : Payload) (settledAt : ℤ) : SettledFields where
  settledAt
  durationSeconds := amount p.durationSeconds
  coinsDeducted := amount p.coinsDeducted
  walletCoinsDeducted := p.walletCoinsDeducted.map Int.toNat
  coinsEarned := 0
  split := none

def settledCreator (p : Payload) (settledAt : ℤ) : SettledFields where
  settledAt
  durationSeconds := amount p.durationSeconds
  coinsDeducted := 0
  walletCoinsDeducted := none
  coinsEarned := amount p.coinsEarned
  split := some (earnings p)

/-- `call.billing.settled`. -/
def projectSettled (p : Payload) (settledAt : ℤ) : OutboxFlow Unit := do
  write (.settled .user (settledUser p settledAt))
  write (.settled .creator (settledCreator p settledAt))
  log (.projected .settled)

/-- `call.billing.failed_settlement`. -/
def projectFailed : OutboxFlow Unit := do
  write .failed
  log (.projected .failedSettlement)

def projectEvent (type : BillingEventType) (p : Payload) : OutboxFlow Unit := do
  let (x, now) ← resolveParties p
  match type with
  | .ending => projectEnding p x
  | .settled => projectSettled p now
  | .failedSettlement => projectFailed

/-- Every failure is logged, and none is thrown. -/
def projectCallHistoryFromBillingEvent (type : BillingEventType) (p : Payload) : OutboxFlow Unit :=
  tryCatch (projectEvent type p) fun err => log (.projectionFailed type err)

/-! ### The service -/

def Handler.call (p : Payload) : Handler → OutboxFlow Unit
  | .billing type =>
    if p.namesCall = true then projectCallHistoryFromBillingEvent type p else pure ()
  | .subscribed name => do
    let _ ← run (.handle name)
    pure ()

def dispatchDomainEventPayload (p : Payload) : List Handler → OutboxFlow Unit
  | [] => pure ()
  | h :: hs => do
    h.call p
    dispatchDomainEventPayload p hs

def slice (text : String) (n : ℕ) : String := String.ofList (text.toList.take n)

def processEvent (o : Setup) (doc : DomainEvent) : OutboxFlow Bool :=
  tryCatch (do
    dispatchDomainEventPayload o.payload o.getHandlersForType
    let _ ← run .complete
    pure true) fun e => do
      let next := doc.retryCount + 1
      let _ ← run (.fail next (decide (o.maxRetries ≤ (next : ℤ))) (slice e 2000))
      pure false

def processLoop (o : Setup) (instanceId : String) : ℕ → ℕ → OutboxFlow ℕ
  | 0, ok => pure ok
  | i + 1, ok => do
    let (r, s) ← run (.claim instanceId)
    if s.claimable r = true then do
      let done ← processEvent o (s.doc.claim instanceId r.now)
      processLoop o instanceId i (ok + done.toNat)
    else
      match r.other with
      | some done => processLoop o instanceId i (ok + done.toNat)
      | none => pure ok

def processPendingDomainEvents (o : Setup) (instanceId : String) (limit : ℕ) : OutboxFlow ℕ :=
  if o.enabled = false then pure 0
  else do
    let _ ← run .resetStale
    processLoop o instanceId limit 0

def replayDomainEvent : OutboxFlow Bool := do
  let _ ← run .findEvent
  let _ ← run .replay
  pure true

inductive Request where
  | work (instanceId : String) (limit : ℕ)
  | replay
  | setRows (rows : List CallHistory)

def Request.prog (o : Setup) : Request → Prog Cmd Reply Store Unit
  | .work instanceId limit =>
    (processPendingDomainEvents o instanceId limit).run >>= fun _ => .ret ()
  | .replay => replayDomainEvent.run >>= fun _ => .ret ()
  | .setRows rows => (run (.setRows rows)).run >>= fun _ => .ret ()

end VibemeetBackend.Outbox
