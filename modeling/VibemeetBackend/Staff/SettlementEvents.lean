import VibemeetBackend.Outbox.Events
import VibemeetBackend.Staff.Revenue

/-!
# The domain events of a settlement

What writes the ledger of the staff and the outbox, one complete operation after the other: the staff
part of a settlement (`billing-settlement.service.ts`) with the call that each ledger row names,
`enqueueSettlementDomainEvents` (`domain-event.service.ts`), which finds the rows again by their call,
and the other writers of both collections.

A call id ends in a digit (`parseAppVideoCallId`), so the keys are as they are after the `trim` of the
schema.  The copies of an event's own fields in its payload, the ids, states and claims of the events,
and the references and snapshots of a ledger row are left out.
-/

namespace VibemeetBackend.Staff

open Async
open Mongo (Unique)

/-! ### Documents -/

/-- A row of the ledger with its `callId`. -/
structure CallLedgerRow extends StaffWalletLedger where
  callId : Option String
  deriving DecidableEq

def CallLedgerRow.key (row : CallLedgerRow) : String := row.idempotencyKey

/-- The ledger row of a share; the row of the agency is created without its `callId`. -/
def Share.callRow (p : Share) : CallLedgerRow where
  toStaffWalletLedger := p.row
  callId := match p.role with
    | .bd => some p.callId
    | .agency => none

inductive EventPayload where
  | settlementCompleted (occurredAt : ℤ) (totalEarnedCreator durationSeconds : ℕ)
  | staffLedgerCredited (occurredAt : ℤ) (staffUserId : String) (direction : Direction)
      (amountCoins : ℕ) (sourceLedgerKey : String)
  | raw

structure DomainEvent where
  eventType : String
  aggregateId : String
  payload : EventPayload
  idempotencyKey : String

structure EventStore where
  users : List User
  creators : List Creator
  ledger : Unique CallLedgerRow.key
  outbox : Unique DomainEvent.idempotencyKey

namespace EventStore

variable (s : EventStore)

def user (id : String) : Option User := s.users.find? fun u => u.id == id

def creator (id : String) : Option Creator := s.creators.find? fun c => c.id == id

/-! ### Settlement -/

/-- `$inc` of the wallet of a staff user. -/
def inc (p : Share) : EventStore :=
  { s with users := s.users.map fun u =>
      if u.id = p.staffUserId then { u with staffCoinsBalance := u.staffCoinsBalance + p.coins }
      else u }

def create (row : CallLedgerRow) : EventStore := { s with ledger := s.ledger.insert row }

/-- A ledger line, unless its key is taken, with `$inc` before it. -/
def creditStaff (p : Share) : EventStore :=
  if p.coins = 0 then s
  else if (s.ledger.get p.key).isSome = true then s
  else (s.inc p).create p.callRow

def creditBd (callId : String) (bdId : Option String) (bdCut : ℕ) : EventStore :=
  match bdId with
  | none => s
  | some bdId => s.creditStaff ⟨callId, .bd, bdId, bdCut⟩

end EventStore

structure RatedSettlement extends SettleRequest where
  bdBps : ℕ
  agencyBps : ℕ

namespace EventStore

variable (s : EventStore)

def agencyOf (creatorMongoId : String) : Option User :=
  match s.creator creatorMongoId with
  | none => none
  | some creator =>
    match s.user creator.userId, creator.assignedAgencyId with
    | some _, some agencyId => (s.user agencyId).filter fun agency => isAgencyRole agency.role
    | _, _ => none

/-- `staff_revenue_split` of a committed settlement. -/
def settle (q : RatedSettlement) : EventStore :=
  if q.totalEarnedCreator = 0 then s
  else
    match s.agencyOf q.creatorMongoId with
    | none => s
    | some agency =>
      let cuts := computeStaffCutsFromHostEarnings q.totalEarnedCreator q.bdBps q.agencyBps
        agency.bdId.isSome
      (s.creditBd q.callId agency.bdId cuts.bdCut).creditStaff
        ⟨q.callId, .agency, agency.id, cuts.agencyCut⟩

/-! ### Events -/

def persistDomainEvent (enabled : Bool) (d : DomainEvent) : EventStore :=
  if enabled = false then s else { s with outbox := s.outbox.insert d }

end EventStore

structure EnqueueParams where
  callId : String
  totalEarnedCreator : ℕ
  durationSeconds : ℕ

def completedEvent (p : EnqueueParams) (now : ℤ) : DomainEvent where
  eventType := "SettlementCompletedEvent"
  aggregateId := p.callId
  payload := .settlementCompleted now p.totalEarnedCreator p.durationSeconds
  idempotencyKey := "domain_evt_settlement_completed_" ++ p.callId

def Direction.text : Direction → String
  | .credit => "credit"
  | .debit => "debit"

def sourceLedgerKey (callId : String) (row : CallLedgerRow) : String :=
  if row.idempotencyKey = "" then callId ++ "_" ++ row.staffUserId ++ "_" ++ row.direction.text
  else row.idempotencyKey

def creditedEvent (callId : String) (now : ℤ) (row : CallLedgerRow) : DomainEvent where
  eventType := "StaffLedgerCreditedEvent"
  aggregateId := callId
  payload := .staffLedgerCredited now row.staffUserId row.direction row.amountCoins
    (sourceLedgerKey callId row)
  idempotencyKey := "domain_evt_" ++ sourceLedgerKey callId row

/-- `StaffWalletLedger.find({ callId })`. -/
def EventStore.rowsOf (s : EventStore) (callId : String) : List CallLedgerRow :=
  s.ledger.rows.filter fun row => row.callId == some callId

def EventStore.enqueueSettlementDomainEvents (s : EventStore) (enabled : Bool) (p : EnqueueParams)
    (now : ℤ) : EventStore :=
  if enabled = false then s
  else
    let s := s.persistDomainEvent enabled (completedEvent p now)
    (s.rowsOf p.callId).foldl
      (fun s row => s.persistDomainEvent enabled (creditedEvent p.callId now row)) s

/-! ### Other writers -/

def withdrawalRow (withdrawalId staffUserId : String) (amount : ℕ) : CallLedgerRow where
  staffUserId := staffUserId
  direction := .debit
  amountCoins := amount
  idempotencyKey := "staff_ledger_withdrawal_" ++ withdrawalId ++ "_paid_debit"
  callId := none

def withdrawalEvent (withdrawalId : String) : DomainEvent where
  eventType := "WithdrawalCompletedEvent"
  aggregateId := withdrawalId
  payload := .raw
  idempotencyKey := "domain_evt_withdrawal_completed_" ++ withdrawalId

/-- The event of `enqueueCallBillingProjectionEvent`. -/
def projectionEvent (type : Outbox.BillingEventType) (callId : String) : DomainEvent where
  eventType := type.text
  aggregateId := callId
  payload := .raw
  idempotencyKey := type.text ++ "_" ++ callId

/-- An operation; the users and creators change in any way between them. -/
inductive EventMove where
  | settle (q : RatedSettlement)
  | enqueue (p : EnqueueParams) (now : ℤ)
  | createWithdrawalRow (withdrawalId staffUserId : String) (amount : ℕ)
  | persistWithdrawalEvent (withdrawalId : String)
  | persistProjectionEvent (type : Outbox.BillingEventType) (callId : String)
  | edit (users : List User) (creators : List Creator)

def EventMove.exec (s : EventStore) : EventMove → EventStore
  | .settle q => s.settle q
  | .enqueue p now => s.enqueueSettlementDomainEvents true p now
  | .createWithdrawalRow withdrawalId staffUserId amount =>
    s.create (withdrawalRow withdrawalId staffUserId amount)
  | .persistWithdrawalEvent withdrawalId => s.persistDomainEvent true (withdrawalEvent withdrawalId)
  | .persistProjectionEvent type callId =>
    s.persistDomainEvent true (projectionEvent type callId)
  | .edit users creators => { s with users, creators }

def EventMove.settlement : EventMove → Option RatedSettlement
  | .settle q => some q
  | _ => none

def EventMove.settles (m : EventMove) (callId : String) : Bool :=
  m.settlement.any fun q => q.callId == callId

end VibemeetBackend.Staff
