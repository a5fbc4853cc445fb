import VibemeetBackend.Async.Pool
import VibemeetBackend.Billing.Runtime

/-!
# What records that a call is settled

The documents and Redis keys of one call that a settlement writes, and the commands of
`billing-session-finalization.service.ts`, `call-session.service.ts` and
`call-history-projector.service.ts` on them.

The session, its checkpoint and the ledger are other stores: what the code reads there is part of a
`SettlementReply`.  A command that was not `delivered` did nothing; one that was delivered but not
`answered` took effect and still looks failed to its caller.
-/

namespace VibemeetBackend.Settlement

open Async Billing

/-! ### Documents -/

/-- `Call.settlement.status`. -/
inductive CallStatus where
  | pending
  | settling
  | settled
  | failed
  | failedRecoverySettlement
  deriving DecidableEq

/-- `Call.settlement`. -/
structure CallDoc where
  status : Option CallStatus
  version : ℤ
  updatedAt : Option ℤ

/-- A row of `CallHistory`. -/
structure HistoryRow where
  settlementStatus : Option HistoryStatus
  settledAt : Option ℤ
  coinsDeducted : ℕ

/-- A `DurableCallSession` with the dates of its finalization. -/
structure DurableRow extends DurableCallSession where
  finalizationStartedAt : Option ℤ
  updatedAt : ℤ

inductive OwnerRole where
  | user
  | creator

/-- `CallBillingProjectionEvent`, with the coins of a settled call. -/
inductive ProjectionEvent where
  | ending
  | settled (coinsDeducted : ℕ)
  | failedSettlement
  deriving DecidableEq

def ProjectionEvent.sameType : ProjectionEvent → ProjectionEvent → Bool
  | .ending, .ending => true
  | .settled _, .settled _ => true
  | .failedSettlement, .failedSettlement => true
  | _, _ => false

structure FinalizeParams where
  attempt : Option ℕ
  enqueuedAt : Option ℤ

inductive LockKey where
  | finalizeInflight
  | settlementClaim
  | settleLock

structure SettlementStore where
  call : Option CallDoc
  userHistory : Option HistoryRow
  creatorHistory : Option HistoryRow
  durable : Option DurableRow
  outbox : List ProjectionEvent
  deadLetter : Bool
  settledKey : Bool
  recoveryCooldown : Bool
  finalizeInflight : Option String
  settlementClaim : Option String
  settleLock : Option String
  retryDedup : Bool
  retryPayload : Option FinalizeParams
  retryQueued : Bool

def SettlementStore.lockOf (s : SettlementStore) : LockKey → Option String
  | .finalizeInflight => s.finalizeInflight
  | .settlementClaim => s.settlementClaim
  | .settleLock => s.settleLock

def SettlementStore.setLock (s : SettlementStore) (v : Option String) : LockKey → SettlementStore
  | .finalizeInflight => { s with finalizeInflight := v }
  | .settlementClaim => { s with settlementClaim := v }
  | .settleLock => { s with settleLock := v }

def SettlementStore.history (s : SettlementStore) : OwnerRole → Option HistoryRow
  | .user => s.userHistory
  | .creator => s.creatorHistory

def SettlementStore.setHistory (s : SettlementStore) (row : Option HistoryRow) :
    OwnerRole → SettlementStore
  | .user => { s with userHistory := row }
  | .creator => { s with creatorHistory := row }

/-- `Call.settlement.status` of the call. -/
def SettlementStore.callStatus (s : SettlementStore) : Option CallStatus :=
  s.call.bind (·.status)

/-- `CallHistory.settlementStatus` of a party. -/
def SettlementStore.historyStatus (s : SettlementStore) (role : OwnerRole) :
    Option HistoryStatus :=
  (s.history role).bind (·.settlementStatus)

def SettlementStore.durableState (s : SettlementStore) : Option DurableState :=
  s.durable.map (·.state)

/-! ### Answers -/

/-- Where `readFinalizationSnapshotMeta` found the call. -/
inductive RecoverySource where
  | redisSession
  | checkpointFallback
  | missing
  deriving DecidableEq

/-- What the other stores say when a command is executed. -/
structure RuntimeView where
  recoverySource : RecoverySource
  /-- Another instance bills the session and has advanced it recently. -/
  activeElsewhere : Bool
  /-- What `checkpointLifecycleState` returns. -/
  converged : Bool
  totals : AuthoritativeTotals
  /-- Whether the read of `settleCall` fails, and whether it finds a session or a checkpoint. -/
  readFails : Bool
  hasSession : Bool
  creatorOwner : Bool
  /-- Whether the parties of a projection are found; a lookup by a malformed id throws. -/
  partiesFound : Bool
  coinsDeducted : ℕ
  unknownCommitResult : Bool
  transient : Bool

/-- The environment's answer to a command; `now` is the time when it is executed. -/
structure SettlementReply where
  delivered : Bool
  answered : Bool
  now : ℤ
  view : RuntimeView

/-- A caller sees a failed call unless the command was delivered and its answer came back. -/
def SettlementReply.ok (r : SettlementReply) : Bool := r.delivered && r.answered

/-! ### Commands -/

inductive SettlementCmd where
  | query
  | setDeadLetter
  | delDeadLetter
  | setSettledKey
  | delSettledKey
  | setRecoveryCooldown
  /-- `SET key token NX`. -/
  | lock (k : LockKey) (token : String)
  /-- `RELEASE_IF_MATCH_LUA`. -/
  | release (k : LockKey) (token : String)
  | delLock (k : LockKey)
  | setRetryDedup
  | delRetryDedup
  | setRetryPayload (p : FinalizeParams)
  | delRetryPayload
  | addRetry
  | removeRetry
  /-- The deletions of `drainSettlementArtifacts`. -/
  | drainArtifacts
  | persistEvent (e : ProjectionEvent)
  /-- The update of `tryStaleSettlingTakeover`. -/
  | takeoverCallSettling (version : ℤ)
  /-- `mirrorCallSettlementSettling` and `markCallSettling`. -/
  | markCallSettling (version : ℤ)
  | markCallSettled (version : ℤ)
  /-- The `Call` update of `moveCallToRecoveryDeadLetter`. -/
  | deadLetterCall
  /-- The first and the second update of `claimDurableCallSessionForSettlement`. -/
  | claimDurable
  | takeoverDurable (maxSettlingMs : ℤ)
  | raiseDurableTotals (totals : AuthoritativeTotals)
  | markDurableSettled (version : ℤ)
  | markDurableFailed
  | resetDurable
  | upsertPending (role : OwnerRole)
  | projectSettled (role : OwnerRole) (coinsDeducted : ℕ)
  | projectFailed
  /-- The commit of an attempt of `settleCall`. -/
  | commitSettlement
  /-- A key expires. -/
  | expireDeadLetter
  | expireSettledKey
  | expireRecoveryCooldown
  | expireLock (k : LockKey)
  | expireRetry

/-! ### Updates -/

/-- The filter `{ 'settlement.status': { $ne: 'settled' } }`. -/
def CallDoc.unsettled (d : CallDoc) : Bool := d.status != some .settled

def CallDoc.mark (status : CallStatus) (version now : ℤ) (_ : CallDoc) : CallDoc :=
  ⟨some status, version, some now⟩

def CallDoc.deadLetter (now : ℤ) (d : CallDoc) : CallDoc :=
  { d with status := some .failedRecoverySettlement, updatedAt := some now }

/-- The filter `{ finalized: false }`. -/
def DurableRow.unfinalized (d : DurableRow) : Bool := !d.finalized

/-- The filter `{ finalized: false, state: { $in: [...] } }`. -/
def DurableRow.isOpen (d : DurableRow) (states : List DurableState) : Bool :=
  !d.finalized && states.contains d.state

/-- An `updateOne` with a filter. -/
def updateWhere {D : Type} (filter : D → Bool) (f : D → D) (doc : Option D) : Option D :=
  doc.map fun d => if filter d then f d else d

def isDurableSettlingStale (maxSettlingMs now : ℤ) (d : DurableRow) : Bool :=
  d.finalizationStartedAt.getD d.updatedAt < now - maxSettlingMs

def DurableRow.isStale (maxSettlingMs now : ℤ) (d : DurableRow) : Bool :=
  d.isOpen [.settling] && isDurableSettlingStale maxSettlingMs now d

def claimableStates : List DurableState := [.active, .reconnecting, .ending]

def claimDurable (now : ℤ) (d : DurableRow) : DurableRow :=
  { d with
    state := .settling
    finalizationStartedAt := some now
    settlementVersion := d.settlementVersion + 1
    updatedAt := now }

def takeoverDurable (now : ℤ) (d : DurableRow) : DurableRow :=
  { d with
    finalizationStartedAt := some now
    settlementVersion := d.settlementVersion + 1
    updatedAt := now }

def raiseDurableTotals (totals : AuthoritativeTotals) (now : ℤ) (d : DurableRow) : DurableRow :=
  { d with
    totalUserDebitedMicros := max d.totalUserDebitedMicros totals.totalDeductedMicros
    totalCreatorCreditedMicros := max d.totalCreatorCreditedMicros totals.totalEarnedMicros
    billingSequence := max d.billingSequence totals.billingSequence
    updatedAt := now }

def settleDurable (version : ℤ) (now : ℤ) (d : DurableRow) : DurableRow :=
  { d with state := .settled, finalized := true, settlementVersion := version, updatedAt := now }

def failDurable (now : ℤ) (d : DurableRow) : DurableRow :=
  { d with state := .failedSettlement, updatedAt := now }

def resetDurable (now : ℤ) (d : DurableRow) : DurableRow :=
  { d with
    state := .ending
    finalizationStartedAt := none
    settlementVersion := d.settlementVersion + 1
    updatedAt := now }

/-- `{ settlementStatus: { $ne: 'settled' } }`. -/
def pendingOnlyFilter (row : HistoryRow) : Bool := row.settlementStatus != some .settled

def freshHistory : HistoryRow := ⟨none, none, 0⟩

def pendingUpdate : Mongo.Update String HistoryRow where
  set row := { row with settlementStatus := some .pending, coinsDeducted := 0 }
  setPaths := ["settlementStatus", "coinsDeducted"]
  inc row := row
  incPaths := []
  setOnInsert row := row
  setOnInsertPaths := []

def settledRow (coinsDeducted : ℕ) (now : ℤ) (row : HistoryRow) : HistoryRow :=
  { row with settlementStatus := some .settled, settledAt := some now, coinsDeducted }

def failRow (row : HistoryRow) : HistoryRow := { row with settlementStatus := some .failed }

/-- The rows that a settlement upserts; the creator has one when its owner is known. -/
def commitHistory (r : SettlementReply) (s : SettlementStore) : SettlementStore :=
  { s with
    userHistory :=
      some (settledRow r.view.coinsDeducted r.now (s.userHistory.getD freshHistory))
    creatorHistory :=
      if r.view.creatorOwner then some (settledRow 0 r.now (s.creatorHistory.getD freshHistory))
      else s.creatorHistory }

def effect (r : SettlementReply) (s : SettlementStore) : SettlementCmd → SettlementStore
  | .query => s
  | .setDeadLetter => { s with deadLetter := true }
  | .delDeadLetter => { s with deadLetter := false }
  | .setSettledKey => { s with settledKey := true }
  | .delSettledKey => { s with settledKey := false }
  | .setRecoveryCooldown => { s with recoveryCooldown := true }
  | .lock k token => if s.lockOf k = none then s.setLock (some token) k else s
  | .release k token => if s.lockOf k = some token then s.setLock none k else s
  | .delLock k => s.setLock none k
  | .setRetryDedup => { s with retryDedup := true }
  | .delRetryDedup => { s with retryDedup := false }
  | .setRetryPayload p => { s with retryPayload := some p }
  | .delRetryPayload => { s with retryPayload := none }
  | .addRetry => { s with retryQueued := true }
  | .removeRetry => { s with retryQueued := false }
  | .drainArtifacts =>
    { s with
      retryQueued := false
      retryPayload := none
      retryDedup := false
      settlementClaim := none
      settleLock := none
      finalizeInflight := none }
  | .persistEvent e =>
    if s.outbox.any e.sameType then s else { s with outbox := s.outbox ++ [e] }
  | .takeoverCallSettling version =>
    { s with call := s.call.map (CallDoc.mark .settling version r.now) }
  | .markCallSettling version =>
    { s with call := updateWhere CallDoc.unsettled (CallDoc.mark .settling version r.now) s.call }
  | .markCallSettled version =>
    { s with call := s.call.map (CallDoc.mark .settled version r.now) }
  | .deadLetterCall => { s with call := s.call.map (CallDoc.deadLetter r.now) }
  | .claimDurable =>
    { s with durable := updateWhere (·.isOpen claimableStates) (claimDurable r.now) s.durable }
  | .takeoverDurable maxSettlingMs =>
    { s with durable :=
        updateWhere (DurableRow.isStale maxSettlingMs r.now) (takeoverDurable r.now) s.durable }
  | .raiseDurableTotals totals =>
    { s with durable := s.durable.map (raiseDurableTotals totals r.now) }
  | .markDurableSettled version =>
    { s with durable :=
        updateWhere DurableRow.unfinalized (settleDurable version r.now) s.durable }
  | .markDurableFailed =>
    { s with durable := updateWhere DurableRow.unfinalized (failDurable r.now) s.durable }
  | .resetDurable =>
    { s with durable := updateWhere (·.isOpen [.failedSettlement]) (resetDurable r.now) s.durable }
  | .upsertPending role =>
    s.setHistory
      (Mongo.afterUpdate freshHistory pendingOnlyFilter pendingUpdate (s.history role)) role
  | .projectSettled role coinsDeducted =>
    s.setHistory ((s.history role).map (settledRow coinsDeducted r.now)) role
  | .projectFailed =>
    { s with
      userHistory := s.userHistory.map failRow
      creatorHistory := s.creatorHistory.map failRow }
  | .commitSettlement => commitHistory r s
  | .expireDeadLetter => { s with deadLetter := false }
  | .expireSettledKey => { s with settledKey := false }
  | .expireRecoveryCooldown => { s with recoveryCooldown := false }
  | .expireLock k => s.setLock none k
  | .expireRetry => { s with retryPayload := none, retryDedup := false }

def exec (c : SettlementCmd) (r : SettlementReply) (s : SettlementStore) : SettlementStore :=
  if r.delivered = true then effect r s c else s

theorem exec_delivered {r : SettlementReply} (hr : r.delivered = true) (c : SettlementCmd)
    (s : SettlementStore) : exec c r s = effect r s c := if_pos hr

theorem exec_lost {r : SettlementReply} (hr : ¬ r.delivered = true) (c : SettlementCmd)
    (s : SettlementStore) : exec c r s = s := if_neg hr

/-! ### Commits -/

def SettlementCmd.isCommit : SettlementCmd → Bool
  | .commitSettlement => true
  | _ => false

def Committed (e : Event SettlementCmd SettlementReply SettlementStore) : Prop :=
  e.cmd.isCommit = true ∧ e.ans.delivered = true

instance : DecidablePred Committed := fun e =>
  inferInstanceAs (Decidable (e.cmd.isCommit = true ∧ e.ans.delivered = true))

theorem eq_commit_of_isCommit {c : SettlementCmd} (h : c.isCommit = true) :
    c = .commitSettlement := by
  cases c <;> first | rfl | cases h

end VibemeetBackend.Settlement
