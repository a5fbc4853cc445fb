import VibemeetBackend.Async.Transaction
import VibemeetBackend.Mongo.Collection
import VibemeetBackend.Mongo.Unique

/-!
# Staff revenue

The staff part of the settlement transaction of `settleCall` (`billing-settlement.service.ts`), and
`staff-wallet-reconciliation.service.ts`, which recomputes the wallets of the staff from their ledger.

The debit of the payer, the credit of the creator and the call history are statements of the same
transaction, of which only the errors matter here.  The snapshots and references in a ledger row, the
metrics and the logs are left out; the chunks of the reconciliation are one list.
-/

namespace VibemeetBackend.Staff

open Async

/-! ### Documents -/

structure User where
  id : String
  role : String
  bdId : Option String
  staffCoinsBalance : ℕ
  deriving DecidableEq

structure Creator where
  id : String
  userId : String
  assignedAgencyId : Option String

inductive Direction where
  | credit
  | debit
  deriving DecidableEq

structure StaffWalletLedger where
  staffUserId : String
  direction : Direction
  amountCoins : ℕ
  idempotencyKey : String
  deriving DecidableEq

structure Store where
  users : List User
  creators : List Creator
  ledger : Mongo.Unique StaffWalletLedger.idempotencyKey

inductive StaffRole where
  | bd
  | agency
  deriving DecidableEq

structure Share where
  callId : String
  role : StaffRole
  staffUserId : String
  coins : ℕ
  deriving DecidableEq

/-- `bdKey` and `agKey`. -/
def Share.key (p : Share) : String :=
  match p.role with
  | .bd => "staff_ledger_call_" ++ p.callId ++ "_bd_credit"
  | .agency => "staff_ledger_call_" ++ p.callId ++ "_agency_credit"

def Share.row (p : Share) : StaffWalletLedger := ⟨p.staffUserId, .credit, p.coins, p.key⟩

namespace Store

variable (s : Store)

def user (id : String) : Option User := s.users.find? fun u => u.id == id

def creator (id : String) : Option Creator := s.creators.find? fun c => c.id == id

def balance (userId : String) : Option ℕ := (s.user userId).map fun u => u.staffCoinsBalance

def total (direction : Direction) (staffUserId : String) : ℕ :=
  ((s.ledger.rows.filter fun t => t.staffUserId == staffUserId && t.direction == direction).map
    fun t => t.amountCoins).sum

/-- `recomputeBalanceFromLedger`. -/
def net (staffUserId : String) : ℤ :=
  (s.total .credit staffUserId : ℤ) - (s.total .debit staffUserId : ℤ)

/-- `$inc` of the wallet of a staff user. -/
def inc (p : Share) : Store :=
  { s with users := s.users.map fun u =>
      if u.id = p.staffUserId then { u with staffCoinsBalance := u.staffCoinsBalance + p.coins }
      else u }

def setBalance (staffUserId : String) (v : ℕ) : Store :=
  { s with users := s.users.map fun u =>
      if u.id = staffUserId then { u with staffCoinsBalance := v } else u }

end Store

/-! ### Commands -/

/-- The staff writes of an attempt, with the snapshot that they were computed from. -/
structure Settlement where
  read : Store
  incs : List Share
  rows : List Share

def Store.settle (s : Store) (w : Settlement) : Store :=
  { w.incs.foldl Store.inc s with ledger := s.ledger.insertAll (w.rows.map Share.row) }

/-- A wallet has changed, or the key of a row was taken. -/
def Settlement.conflicts (w : Settlement) (s : Store) : Bool :=
  (w.incs.any fun p => s.user p.staffUserId != w.read.user p.staffUserId) ||
    w.rows.any fun p => (s.ledger.get p.key).isSome

inductive Write where
  | settle (w : Settlement)
  | setBalance (staffUserId : String) (v : ℕ)

def Write.conflicts : Write → Store → Bool
  | .settle w, s => w.conflicts s
  | .setBalance _ _, _ => false

def Write.exec : Write → Store → Store
  | .settle w, s => s.settle w
  | .setBalance staffUserId v, s => s.setBalance staffUserId v

inductive Statement where
  | debitUser
  | findCreator
  | findCreatorUser
  | creditCreator
  | findAgency
  | findLine (p : Share)
  | incBalance (p : Share)
  | createLine (p : Share)
  | upsertCallHistory

structure ReconcileStaffBalanceResult where
  staffUserId : String
  expectedBalance : ℤ
  actualBalance : ℤ
  driftAmount : ℤ
  autoCorrected : Bool
  correctionAmount : ℤ

/-- The labels of an error, the rates in effect, and whether the billing of a call is settled. -/
structure Reply where
  delivered : Bool
  answered : Bool
  transient : Bool
  unknownCommitResult : Bool
  bdBps : ℕ
  agencyBps : ℕ
  settled : Bool

def Reply.ok (r : Reply) : Bool := r.delivered && r.answered

inductive Cmd where
  | snapshot
  | statement (st : Statement)
  | resolveStaffCommissionBps (bdUserId bdId : String)
  | commit (w : Option Write)
  | isCallBillingAlreadySettled (callId : String)
  | aggregate (staffUserId : String)
  | findUser (staffUserId : String)
  | distinctStaffUserIds
  | findBalanceUsers
  | createLog (result : ReconcileStaffBalanceResult)

def Cmd.exec (c : Cmd) (r : Reply) (s : Store) : Store :=
  match c with
  | .commit (some w) => if (r.delivered && !w.conflicts s) = true then w.exec s else s
  | _ => s

def transactions : Transactions Cmd Reply Store Write where
  snapshot := .snapshot
  commit := .commit
  delivered := Reply.delivered
  answered := Reply.answered
  transient := Reply.transient
  conflicts := Write.conflicts

abbrev StaffFlow (α : Type) : Type := Flow Cmd Reply Store α

def run (c : Cmd) : StaffFlow (Reply × Store) := Flow.call Reply.ok "request failed" c

/-! ### Settlement -/

structure StaffCutsFromHost where
  bdCut : ℕ
  agencyCut : ℕ

def computeStaffCutsFromHostEarnings (totalEarnedCreator bdBps agencyBps : ℕ) (hasBd : Bool) :
    StaffCutsFromHost :=
  { bdCut := if hasBd = true then totalEarnedCreator * bdBps / 10000 else 0
    agencyCut := totalEarnedCreator * agencyBps / 10000 }

def isAgencyRole (role : String) : Bool := role == "agency"

structure Pending where
  incs : List Share
  rows : List Share

def Pending.empty : Pending := ⟨[], []⟩

/-- The ledger line of one role, with `$inc` before it; `false` when a statement has thrown. -/
def creditStaff (s : Store) (p : Share) (tx : Pending) : StaffFlow (Bool × Pending) :=
  if p.coins = 0 then pure (true, tx)
  else do
    let (r, _) ← Flow.issue (.statement (.findLine p))
    if r.ok = false then pure (false, tx)
    else if (s.ledger.get p.key).isSome = true then pure (true, tx)
    else do
      let (r, _) ← Flow.issue (.statement (.incBalance p))
      let tx := if r.delivered = true then { tx with incs := tx.incs ++ [p] } else tx
      if r.ok = false then pure (false, tx)
      else do
        let (r, _) ← Flow.issue (.statement (.createLine p))
        let tx := if r.delivered = true then { tx with rows := tx.rows ++ [p] } else tx
        pure (r.ok, tx)

def creditBd (s : Store) (callId : String) (bdId : Option String) (bdCut : ℕ) :
    StaffFlow (Bool × Pending) :=
  match bdId with
  | none => pure (true, .empty)
  | some bdId => creditStaff s ⟨callId, .bd, bdId, bdCut⟩ .empty

def creditBoth (s : Store) (callId agencyId : String) (bdId : Option String)
    (cuts : StaffCutsFromHost) : StaffFlow (Bool × Pending) := do
  let (fine, tx) ← creditBd s callId bdId cuts.bdCut
  if fine = false then pure (false, tx)
  else creditStaff s ⟨callId, .agency, agencyId, cuts.agencyCut⟩ tx

/-- `staff_revenue_split`. -/
def staffRevenueSplit (s : Store) (callId : String) (totalEarnedCreator : ℕ) (creator : Creator) :
    StaffFlow (Bool × Pending) :=
  match creator.assignedAgencyId with
  | none => pure (true, .empty)
  | some agencyId => do
    let _ ← run (.statement .findAgency)
    match s.user agencyId with
    | none => pure (true, .empty)
    | some agency =>
      if isAgencyRole agency.role = false then pure (true, .empty)
      else do
        let (r, _) ← run (.resolveStaffCommissionBps (agency.bdId.getD agencyId) agencyId)
        creditBoth s callId agencyId agency.bdId
          (computeStaffCutsFromHostEarnings totalEarnedCreator r.bdBps r.agencyBps
            agency.bdId.isSome)

structure SettleRequest where
  callId : String
  creatorMongoId : String
  totalEarnedCreator : ℕ

/-- The creator block, which no error leaves: `totalEarnedCreator` after it, and the staff writes. -/
def creatorBlock (q : SettleRequest) (s : Store) (totalEarnedCreator : ℕ) :
    StaffFlow (ℕ × Pending) :=
  if totalEarnedCreator = 0 then pure (0, .empty)
  else
    tryCatch
      (do
        let _ ← run (.statement .findCreator)
        match s.creator q.creatorMongoId with
        | none => pure (0, .empty)
        | some creator => do
          let _ ← run (.statement .findCreatorUser)
          match s.user creator.userId with
          | none => pure (0, .empty)
          | some _ => do
            let _ ← run (.statement .creditCreator)
            let (fine, tx) ← staffRevenueSplit s q.callId totalEarnedCreator creator
            pure (if fine = true then totalEarnedCreator else 0, tx))
      fun _ => pure (0, .empty)

def settlementTxnMaxAttempts : ℕ := 3

/-- The attempts that are left; `totalEarnedCreator` is shared between them. -/
def settleAttempts (q : SettleRequest) : ℕ → ℕ → StaffFlow Unit
  | 0, _ => throw "Settlement transaction failed"
  | attempts + 1, totalEarnedCreator => do
    let fail (r : Reply) (totalEarnedCreator : ℕ) : StaffFlow Unit :=
      if r.transient = true then settleAttempts q attempts totalEarnedCreator
      else throw "Settlement transaction failed"
    let (r, s) ← Flow.issue .snapshot
    if r.ok = false then fail r totalEarnedCreator
    else do
      let (r, _) ← Flow.issue (.statement .debitUser)
      if r.ok = false then fail r totalEarnedCreator
      else do
        let (totalEarnedCreator, tx) ← creatorBlock q s totalEarnedCreator
        let (r, _) ← Flow.issue (.statement .upsertCallHistory)
        if r.ok = false then fail r totalEarnedCreator
        else do
          let w : Write := .settle ⟨s, tx.incs, tx.rows⟩
          let (r, s) ← Flow.issue (.commit (some w))
          if (r.ok && !w.conflicts s) = true then pure ()
          else if r.unknownCommitResult = true then do
            let (r', _) ← run (.isCallBillingAlreadySettled q.callId)
            if r'.settled = true then pure () else fail r totalEarnedCreator
          else fail r totalEarnedCreator

/-! ### Reconciliation -/

/-- `STAFF_WALLET_RECONCILE_TOLERANCE_COINS` and `STAFF_WALLET_RECONCILE_AUTO_FIX`. -/
structure ReconcileConfig where
  toleranceCoins : Option ℤ
  autoFix : Bool

def ReconcileConfig.tolerance (cfg : ReconcileConfig) : ℤ := max 0 (cfg.toleranceCoins.getD 0)

def correct (staffUserId : String) (expectedBalance : ℤ) (attempts : ℕ) (needsFix : Bool) :
    StaffFlow Unit :=
  if needsFix = true then
    Flow.withTransaction transactions
      (fun _ => .ok (some (.setBalance staffUserId (max 0 expectedBalance).toNat), ())) attempts
  else pure ()

def reconcileStaffBalance (cfg : ReconcileConfig) (dryRun : Bool) (attempts : ℕ)
    (staffUserId : String) : StaffFlow ReconcileStaffBalanceResult := do
  let (_, s) ← run (.aggregate staffUserId)
  let expectedBalance := s.net staffUserId
  let (_, s) ← run (.findUser staffUserId)
  let actualBalance : ℤ := ((s.balance staffUserId).getD 0 : ℕ)
  let driftAmount := actualBalance - expectedBalance
  let needsFix := decide (cfg.tolerance < |driftAmount|) && cfg.autoFix && !dryRun
  correct staffUserId expectedBalance attempts needsFix
  let result : ReconcileStaffBalanceResult :=
    { staffUserId, expectedBalance, actualBalance, driftAmount
      autoCorrected := needsFix
      correctionAmount := if needsFix = true then expectedBalance - actualBalance else 0 }
  let _ ← run (.createLog result)
  pure result

structure StaffWalletReconciliationSummary where
  processed : ℕ
  driftCount : ℕ
  maxAbsDrift : ℤ
  errors : ℕ

def StaffWalletReconciliationSummary.add (tolerance : ℤ)
    (summary : StaffWalletReconciliationSummary) :
    Except String ReconcileStaffBalanceResult → StaffWalletReconciliationSummary
  | .ok result =>
    { summary with
      processed := summary.processed + 1
      driftCount := summary.driftCount + if tolerance < |result.driftAmount| then 1 else 0
      maxAbsDrift := max summary.maxAbsDrift |result.driftAmount| }
  | .error _ => { summary with errors := summary.errors + 1 }

def reconcileEach (cfg : ReconcileConfig) (dryRun : Bool) (attempts : ℕ) :
    List String → StaffWalletReconciliationSummary → StaffFlow StaffWalletReconciliationSummary
  | [], summary => pure summary
  | staffUserId :: rest, summary => do
    let x ← Flow.attempt (reconcileStaffBalance cfg dryRun attempts staffUserId)
    reconcileEach cfg dryRun attempts rest (summary.add cfg.tolerance x)

def collectStaffUserIdsForReconciliation : StaffFlow (List String) := do
  let (_, s) ← run .distinctStaffUserIds
  let ledgerIds := s.ledger.rows.map fun t => t.staffUserId
  let (_, s) ← run .findBalanceUsers
  let balanceUsers := s.users.map fun u => u.id
  pure (ledgerIds ++ balanceUsers).eraseDups

def reconcileAllStaffBalances (cfg : ReconcileConfig) (dryRun : Bool) (attempts : ℕ) :
    StaffFlow StaffWalletReconciliationSummary := do
  let ids ← collectStaffUserIdsForReconciliation
  reconcileEach cfg dryRun attempts ids ⟨0, 0, 0, 0⟩

inductive Request where
  | settleCall (q : SettleRequest)
  | reconcileStaffBalance (cfg : ReconcileConfig) (dryRun : Bool) (attempts : ℕ)
      (staffUserId : String)
  | reconcileAllStaffBalances (cfg : ReconcileConfig) (dryRun : Bool) (attempts : ℕ)

def program : Request → Prog Cmd Reply Store Unit
  | .settleCall q =>
    (settleAttempts q settlementTxnMaxAttempts q.totalEarnedCreator).run >>= fun _ => .ret ()
  | .reconcileStaffBalance cfg dryRun attempts staffUserId =>
    (reconcileStaffBalance cfg dryRun attempts staffUserId).run >>= fun _ => .ret ()
  | .reconcileAllStaffBalances cfg dryRun attempts =>
    (reconcileAllStaffBalances cfg dryRun attempts).run >>= fun _ => .ret ()

end VibemeetBackend.Staff
