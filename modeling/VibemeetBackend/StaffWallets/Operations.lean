import VibemeetBackend.Creator.Withdrawals
import VibemeetBackend.Staff.Revenue

/-!
# The two wallets of the staff

What changes the wallets of agencies and BDs, one complete operation after the other: the staff part
of a settlement (`billing-settlement.service.ts`), the payment of a withdrawal
(`withdrawal-processing.service.ts`), the reward of a referral (`referral.service.ts`) and the transfer
of a creator (`creator-transfer.service.ts`); and the two repairs, of `coins` (`ledger-coins.ts`) and
of `staffCoinsBalance` (`staff-wallet-reconciliation.service.ts`).

The payer and the creator of a call are no staff, and their part of a settlement is left out.  The ids
of a transfer are valid.  Descriptions, notes, dates, events and logs are left out.
-/

namespace VibemeetBackend.StaffWallets

open Staff (Direction StaffWalletLedger Share StaffRole StaffCutsFromHost
  computeStaffCutsFromHostEarnings isAgencyRole ReconcileConfig ReconcileStaffBalanceResult)
open Creator (WithdrawalStatus)

/-! ### Documents -/

structure Referral where
  user : String
  rewardGranted : Bool
  deriving DecidableEq

structure User where
  id : String
  firebaseUid : String
  role : String
  coins : ℕ
  staffCoinsBalance : ℕ
  bdId : Option String
  referredBy : Option String
  referralCode : String
  referrals : List Referral
  agencyDisabled : Bool
  deriving DecidableEq

structure Creator where
  id : String
  userId : Option String
  assignedAgencyId : Option String
  earningsCoins : ℕ

structure CoinTransaction where
  transactionId : String
  userId : String
  type : Direction
  coins : ℕ
  completed : Bool

structure ReferralEdge where
  referredUserId : String
  referrerId : String
  referralCodeUsed : String
  rewardGranted : Bool

structure Withdrawal where
  id : String
  staffUserId : Option String
  creatorUserId : Option String
  creatorFirebaseUid : Option String
  assignedAgencyId : Option String
  amount : ℕ
  amount_pos : amount ≥ 1
  status : WithdrawalStatus
  transactionId : Option String

structure Store where
  users : Mongo.Unique User.id
  creators : List Creator
  edges : Mongo.Unique ReferralEdge.referredUserId
  withdrawals : List Withdrawal
  coinLedger : Mongo.Unique CoinTransaction.transactionId
  staffLedger : Mongo.Unique StaffWalletLedger.idempotencyKey

/-! ### Sums of a ledger -/

section sums

variable {R : Type} (counts : R → Bool) (type : R → Direction) (amount : R → ℕ)

def total (direction : Direction) (rows : List R) : ℕ :=
  ((rows.filter fun t => counts t && type t == direction).map amount).sum

def net (rows : List R) : ℤ :=
  (total counts type amount .credit rows : ℤ) - (total counts type amount .debit rows : ℤ)

def signed (type : Direction) (amount : ℕ) : ℤ :=
  match type with
  | .credit => amount
  | .debit => -amount

theorem total_snoc (direction : Direction) (rows : List R) (t : R) :
    total counts type amount direction (rows ++ [t]) = total counts type amount direction rows +
      if (counts t && type t == direction) = true then amount t else 0 := by
  grind [total]

theorem net_snoc (rows : List R) (t : R) :
    net counts type amount (rows ++ [t]) =
      net counts type amount rows + if counts t = true then signed (type t) (amount t) else 0 := by
  unfold net
  rw [total_snoc, total_snoc]
  cases hcounts : counts t with
  | false => simp
  | true =>
    cases htype : type t <;> grind [signed]

end sums

namespace Store

variable (s : Store)

def coinNet (userId : String) : ℤ :=
  net (fun t => t.userId == userId && t.completed) CoinTransaction.type CoinTransaction.coins
    s.coinLedger.rows

/-- `recomputeBalanceFromLedger`. -/
def staffNet (staffUserId : String) : ℤ :=
  net (fun t => t.staffUserId == staffUserId) StaffWalletLedger.direction
    StaffWalletLedger.amountCoins s.staffLedger.rows

def creator (id : String) : Option Creator := s.creators.find? fun c => c.id == id

def withdrawal (id : String) : Option Withdrawal := s.withdrawals.find? fun w => w.id == id

/-! ### Writes -/

/-- `$inc` of `coins`. -/
def addCoins (userId : String) (n : ℤ) : Store :=
  { s with users := s.users.update userId fun d => { d with coins := (d.coins + n).toNat } }

/-- `$inc` of `staffCoinsBalance`. -/
def addStaff (userId : String) (n : ℤ) : Store :=
  { s with users := s.users.update userId fun d =>
      { d with staffCoinsBalance := (d.staffCoinsBalance + n).toNat } }

def createTransaction (row : CoinTransaction) : Store :=
  { s with coinLedger := s.coinLedger.insert row }

def createLedgerRow (row : StaffWalletLedger) : Store :=
  { s with staffLedger := s.staffLedger.insert row }

def saveWithdrawal (w : Withdrawal) : Store :=
  { s with withdrawals := s.withdrawals.map fun w' => if w'.id = w.id then w else w' }

def updateCreator (id : String) (f : Creator → Creator) : Store :=
  { s with creators := s.creators.map fun c => if c.id = id then f c else c }

end Store

structure ProfileEdit where
  run : User → User
  id : ∀ d, (run d).id = d.id
  coins : ∀ d, (run d).coins = d.coins
  staffCoinsBalance : ∀ d, (run d).staffCoinsBalance = d.staffCoinsBalance

def Store.edit (s : Store) (userId : String) (e : ProfileEdit) : Store :=
  { s with users := s.users.update userId e.run }

def ProfileEdit.referredBy (agencyId : String) : ProfileEdit where
  run d := { d with referredBy := some agencyId }
  id _ := rfl
  coins _ := rfl
  staffCoinsBalance _ := rfl

def ProfileEdit.referrals (f : List Referral → List Referral) : ProfileEdit where
  run d := { d with referrals := f d.referrals }
  id _ := rfl
  coins _ := rfl
  staffCoinsBalance _ := rfl

/-! ### Settlement -/

/-- A staff line of a settlement, with `$inc` before it. -/
def creditStaff (s : Store) (p : Share) : Store :=
  if p.coins = 0 then s
  else if (s.staffLedger.get p.key).isSome = true then s
  else (s.addStaff p.staffUserId p.coins).createLedgerRow p.row

structure SettleRequest where
  callId : String
  creatorMongoId : String
  totalEarnedCreator : ℕ
  bdBps : ℕ
  agencyBps : ℕ

def creditBd (s : Store) (callId : String) (bdId : Option String) (bdCut : ℕ) : Store :=
  match bdId with
  | none => s
  | some bdId => creditStaff s ⟨callId, .bd, bdId, bdCut⟩

/-- `staff_revenue_split`, for a creator whose user exists. -/
def settleStaff (s : Store) (q : SettleRequest) : Store :=
  if q.totalEarnedCreator = 0 then s
  else
    match s.creator q.creatorMongoId with
    | none => s
    | some creator =>
      match creator.userId.bind s.users.get, creator.assignedAgencyId with
      | some _, some agencyId =>
        match s.users.get agencyId with
        | none => s
        | some agency =>
          if isAgencyRole agency.role = false then s
          else
            let cuts := computeStaffCutsFromHostEarnings q.totalEarnedCreator q.bdBps q.agencyBps
              agency.bdId.isSome
            creditStaff (creditBd s q.callId agency.bdId cuts.bdCut)
              ⟨q.callId, .agency, agencyId, cuts.agencyCut⟩
      | _, _ => s

/-! ### Withdrawals -/

/-- How an operation ends. -/
inductive Outcome (α : Type) where
  | ok (data : α)
  | failed (status : ℕ) (error : String)
  | thrown (error : String)

structure PaidWithdrawal where
  withdrawalId : String
  status : WithdrawalStatus
  amount : ℕ
  transactionId : String
  /-- The wallet of a creator before and after. -/
  balances : Option (ℕ × ℕ)

structure MarkPaidRequest where
  withdrawalId : String
  actingRole : String
  isAdmin : Bool
  randomUUID : String

def isSuperAdminRole (role : String) : Bool := role == "admin" || role == "super_admin"

/-- `!withdrawal.transactionId`. -/
def Withdrawal.unpaid (w : Withdrawal) : Bool := w.transactionId.getD "" == ""

def Withdrawal.paid (w : Withdrawal) (transactionId : String) : Withdrawal :=
  { w with status := .paid, transactionId := some transactionId }

def staffTransactionId (w : Withdrawal) (uuid : String) : String :=
  "staff_withdrawal_" ++ w.id ++ "_" ++ uuid

def staffDebitRow (w : Withdrawal) (staffUserId uuid : String) : CoinTransaction :=
  ⟨staffTransactionId w uuid, staffUserId, .debit, w.amount, true⟩

def staffLedgerRow (w : Withdrawal) (staffUserId : String) : StaffWalletLedger :=
  ⟨staffUserId, .debit, w.amount, "staff_ledger_withdrawal_" ++ w.id ++ "_paid_debit"⟩

def notEnough (wallet : String) (balance amount : ℕ) (suffix : String) : String :=
  wallet ++ " balance (" ++ toString balance ++ ") is less than withdrawal amount (" ++
    toString amount ++ ")." ++ suffix

def finishPaid (s : Store) (w : Withdrawal) (transactionId : String) (balances : Option (ℕ × ℕ)) :
    Store × Outcome PaidWithdrawal :=
  (s.saveWithdrawal (w.paid transactionId), .ok ⟨w.id, .paid, w.amount, transactionId, balances⟩)

/-- The debit of a staff withdrawal: a row of `CoinTransaction`, the staff wallet and its ledger. -/
def debitStaff (s : Store) (w : Withdrawal) (staffUserId uuid : String) :
    Store × Outcome PaidWithdrawal :=
  match s.users.get staffUserId with
  | none => (s, .failed 404 "Staff user not found")
  | some staffUser =>
    if staffUser.staffCoinsBalance < w.amount then
      (s, .failed 400 (notEnough "Staff wallet" staffUser.staffCoinsBalance w.amount ""))
    else if (s.coinLedger.get (staffTransactionId w uuid)).isSome = true then (s, .thrown "E11000")
    else
      let s := (s.createTransaction (staffDebitRow w staffUserId uuid)).addStaff staffUserId (-w.amount)
      let row := staffLedgerRow w staffUserId
      if (s.staffLedger.get row.idempotencyKey).isSome = true then (s, .thrown "E11000")
      else finishPaid (s.createLedgerRow row) w (staffTransactionId w uuid) none

def resolveWithdrawalCreatorUser (s : Store) (w : Withdrawal) : Option User :=
  match w.creatorUserId, w.creatorFirebaseUid with
  | some userId, _ => s.users.get userId
  | none, some uid => s.users.rows.find? fun u => u.firebaseUid == uid
  | none, none => none

def debitCreator (s : Store) (w : Withdrawal) (creatorUser : User) (uuid : String) :
    Store × Outcome PaidWithdrawal :=
  let txId := "withdrawal_" ++ w.id ++ "_" ++ uuid
  if creatorUser.coins < w.amount then
    (s, .failed 400
      (notEnough "Creator" creatorUser.coins w.amount " Cannot mark as paid."))
  else if (s.coinLedger.get txId).isSome = true then (s, .thrown "E11000")
  else
    let s := (s.createTransaction ⟨txId, creatorUser.id, .debit, w.amount, true⟩).addCoins
      creatorUser.id (-w.amount)
    let s := { s with creators := s.creators.map fun c =>
      if c.userId = some creatorUser.id then
        { c with earningsCoins := c.earningsCoins - w.amount } else c }
    finishPaid s { w with creatorUserId := some (w.creatorUserId.getD creatorUser.id) } txId
      (some (creatorUser.coins, creatorUser.coins - w.amount))

def processWithdrawalMarkPaid (s : Store) (q : MarkPaidRequest) : Store × Outcome PaidWithdrawal :=
  match s.withdrawal q.withdrawalId with
  | none => (s, .failed 404 "Withdrawal not found")
  | some w =>
    if q.isAdmin = false then
      (s, .failed 403 "Creator withdrawal actions require super admin")
    else if w.status ≠ .approved then
      (s, .failed 400 ("Cannot mark as paid. Withdrawal status is '" ++ w.status.text ++
        "', expected 'approved'."))
    else
      match w.staffUserId with
      | some staffUserId =>
        if isSuperAdminRole q.actingRole = false then
          (s, .failed 403 "Staff withdrawals require super admin")
        else if w.unpaid = true then debitStaff s w staffUserId q.randomUUID
        else finishPaid s w (w.transactionId.getD "") none
      | none =>
        match resolveWithdrawalCreatorUser s w with
        | none => (s, .failed 404 "Creator user not found")
        | some creatorUser =>
          if w.unpaid = true then debitCreator s w creatorUser q.randomUUID
          else finishPaid s w (w.transactionId.getD "") none

/-! ### Referrals -/

structure ReferralRequest where
  enabled : Bool
  minPurchaseInr : ℕ
  rewardCoins : ℕ
  referredUserId : String
  purchasePriceInr : ℕ

def referralRewardTransactionId (referrerId referredUserId : String) : String :=
  "referral_reward_" ++ referrerId ++ "_" ++ referredUserId

def User.referral (referrer : User) (referredUserId : String) : Option Referral :=
  referrer.referrals.find? fun r => r.user == referredUserId

def grantEdge (s : Store) (referredUserId : String) : Store :=
  { s with edges := s.edges.update referredUserId fun e => { e with rewardGranted := true } }

/-- `referrals.$[r].rewardGranted` of the entries that are not granted. -/
def grantReferral (referredUserId : String) : ProfileEdit :=
  .referrals fun rs => rs.map fun r =>
    if r.user = referredUserId ∧ r.rewardGranted = false then { r with rewardGranted := true } else r

def User.grantable (referrer : User) (referredUserId : String) : Bool :=
  referrer.referrals.any fun r => r.user == referredUserId && !r.rewardGranted

def ensureReferralEdgeForReferredUser (s : Store) (referredUserId : String) : Store :=
  match s.edges.get referredUserId with
  | some existing =>
    let entry := (s.users.get existing.referrerId).bind fun u => u.referral referredUserId
    if (entry.any fun r => r.rewardGranted) = true ∧ existing.rewardGranted = false then
      grantEdge s referredUserId
    else s
  | none =>
    match (s.users.get referredUserId).bind User.referredBy with
    | none => s
    | some referrerId =>
      match s.users.get referrerId with
      | none => s
      | some referrer =>
        match referrer.referral referredUserId with
        | none => s
        | some entry =>
          let edge : ReferralEdge :=
            ⟨referredUserId, referrerId, referrer.referralCode, entry.rewardGranted⟩
          { s with edges := s.edges.insert edge }

def grantReward (s : Store) (q : ReferralRequest) (referrer : User) : Store × Bool :=
  if referrer.grantable q.referredUserId = false then (s, false)
  else
    let s := (s.edit referrer.id (grantReferral q.referredUserId)).addCoins referrer.id q.rewardCoins
    ((grantEdge s q.referredUserId).createTransaction
      ⟨referralRewardTransactionId referrer.id q.referredUserId, referrer.id, .credit, q.rewardCoins,
        true⟩, true)

def processReferralRewardOnPurchase (s : Store) (q : ReferralRequest) : Store × Bool :=
  if q.enabled = false ∨ q.purchasePriceInr < q.minPurchaseInr then (s, false)
  else
    let s := ensureReferralEdgeForReferredUser s q.referredUserId
    match ((s.users.get q.referredUserId).bind User.referredBy).bind s.users.get with
    | none => (s, false)
    | some referrer =>
      if referrer.role ≠ "user" then (s, false)
      else if (s.coinLedger.get
          (referralRewardTransactionId referrer.id q.referredUserId)).isSome = true then
        (grantEdge (s.edit referrer.id (grantReferral q.referredUserId)) q.referredUserId, false)
      else grantReward s q referrer

/-! ### Transfers -/

structure TransferRequest where
  creatorId : String
  targetAgencyId : String
  idempotencyKey : String
  moveGrantedReferralRewards : Bool
  /-- `getReferralRewardCoins()`. -/
  rewardCoins : ℕ

structure TransferData where
  creatorId : String
  creatorUserId : String
  oldAssignedAgencyId : Option String
  newAssignedAgencyId : String
  oldReferredByUserId : Option String
  newReferredByUserId : String
  oldReferralCodeUsed : Option String
  newReferralCodeUsed : String
  rewardMoved : Bool
  moveGrantedReferralRewardsAttempted : Bool
  pendingWithdrawalsReassigned : ℕ

structure TransferPlan where
  creator : Creator
  creatorUserId : String
  referralCode : String
  oldReferredBy : Option String
  edge : Option ReferralEdge
  /-- The previous referrer, when the reward is moved. -/
  movesFrom : Option String

def TransferPlan.rewardGranted (p : TransferPlan) : Bool := (p.edge.map (·.rewardGranted)).getD false

def rewardMove (s : Store) (q : TransferRequest) (oldReferredBy : Option String)
    (rewardGranted : Bool) : Except (Outcome TransferData) (Option String) :=
  match oldReferredBy with
  | none => .ok none
  | some oldRefId =>
    if q.moveGrantedReferralRewards = false ∨ rewardGranted = false ∨ oldRefId = q.targetAgencyId then
      .ok none
    else
      match s.users.get oldRefId with
      | none => .error (.thrown "ABORT_TX")
      | some oldRef =>
        if isAgencyRole oldRef.role = false then .ok none
        else if oldRef.coins < q.rewardCoins then .error (.thrown "ABORT_TX")
        else .ok (some oldRefId)

def planTransfer (s : Store) (q : TransferRequest) : Except (Outcome TransferData) TransferPlan :=
  match s.creator q.creatorId with
  | none => .error (.failed 404 "Creator not found")
  | some creator =>
    match creator.userId with
    | none => .error (.failed 409 "Creator is missing linked userId")
    | some creatorUserId =>
      match (s.users.get q.targetAgencyId).filter
          fun u => u.role == "agency" && !u.agencyDisabled with
      | none => .error (.failed 404 "Target agency not found or disabled")
      | some targetAgency =>
        if targetAgency.referralCode = "" then
          .error (.failed 409 ("Target agency has no referralCode. " ++
            "Run backfill-referral-codes or recreate agency."))
        else
          match s.users.get creatorUserId with
          | none => .error (.failed 404 "Creator linked user not found")
          | some user =>
            let edge := s.edges.get creatorUserId
            match rewardMove s q user.referredBy ((edge.map (·.rewardGranted)).getD false) with
            | .error e => .error e
            | .ok movesFrom =>
              .ok ⟨creator, creatorUserId, targetAgency.referralCode.toUpper, user.referredBy, edge,
                movesFrom⟩

def transferEdge (s : Store) (q : TransferRequest) (p : TransferPlan) : Store :=
  match p.edge with
  | some _ =>
    { s with edges := s.edges.update p.creatorUserId fun e =>
        { e with referrerId := q.targetAgencyId, referralCodeUsed := p.referralCode } }
  | none =>
    { s with edges := s.edges.insert ⟨p.creatorUserId, q.targetAgencyId, p.referralCode, false⟩ }

/-- `$pull` of a referral. -/
def pullReferral (user : String) : ProfileEdit := .referrals fun rs => rs.filter fun r => r.user ≠ user

/-- `$push` of a referral. -/
def pushReferral (r : Referral) : ProfileEdit := .referrals fun rs => rs ++ [r]

def transferReferrals (s : Store) (q : TransferRequest) (p : TransferPlan) : Store :=
  let s := match p.oldReferredBy with
    | none => s
    | some oldRefId => s.edit oldRefId (pullReferral p.creatorUserId)
  (s.edit q.targetAgencyId (pullReferral p.creatorUserId)).edit q.targetAgencyId
    (pushReferral ⟨p.creatorUserId, p.rewardGranted⟩)

def transferSuffix (q : TransferRequest) (p : TransferPlan) (oldRefId : String) : String :=
  p.creatorUserId ++ "_" ++ oldRefId ++ "_" ++ q.targetAgencyId ++
    if q.idempotencyKey = "" then "" else "_" ++ q.idempotencyKey

def debitTxnId (suffix : String) : String := "referral_reward_transfer_out_" ++ suffix

def creditTxnId (suffix : String) : String := "referral_reward_transfer_in_" ++ suffix

def moveReward (s : Store) (q : TransferRequest) (p : TransferPlan) : Store × Bool :=
  match p.movesFrom with
  | none => (s, false)
  | some oldRefId =>
    let suffix := transferSuffix q p oldRefId
    if (s.coinLedger.get (debitTxnId suffix)).isSome = true ∨
        (s.coinLedger.get (creditTxnId suffix)).isSome = true then (s, false)
    else
      let s := (s.createTransaction ⟨debitTxnId suffix, oldRefId, .debit, q.rewardCoins, true⟩)
      let s := s.createTransaction ⟨creditTxnId suffix, q.targetAgencyId, .credit, q.rewardCoins, true⟩
      ((s.addCoins oldRefId (-q.rewardCoins)).addCoins q.targetAgencyId q.rewardCoins, true)

def Withdrawal.reassigned (p : TransferPlan) (w : Withdrawal) : Bool :=
  w.creatorUserId == some p.creatorUserId && w.status == .pending

def reassignWithdrawals (s : Store) (q : TransferRequest) (p : TransferPlan) : Store :=
  { s with withdrawals := s.withdrawals.map fun w =>
      if w.reassigned p = true then { w with assignedAgencyId := some q.targetAgencyId } else w }

def commitTransfer (s : Store) (q : TransferRequest) (p : TransferPlan) : Store × TransferData :=
  let s := transferEdge s q p
  let s := s.updateCreator p.creator.id fun c => { c with assignedAgencyId := some q.targetAgencyId }
  let s := s.edit p.creatorUserId (.referredBy q.targetAgencyId)
  let moved := moveReward (transferReferrals s q p) q p
  (reassignWithdrawals moved.1 q p,
    { creatorId := p.creator.id
      creatorUserId := p.creatorUserId
      oldAssignedAgencyId := p.creator.assignedAgencyId
      newAssignedAgencyId := q.targetAgencyId
      oldReferredByUserId := p.oldReferredBy
      newReferredByUserId := q.targetAgencyId
      oldReferralCodeUsed := p.edge.map (·.referralCodeUsed)
      newReferralCodeUsed := p.referralCode
      rewardMoved := moved.2
      moveGrantedReferralRewardsAttempted := q.moveGrantedReferralRewards
      pendingWithdrawalsReassigned := moved.1.withdrawals.countP fun w =>
        w.reassigned p && w.assignedAgencyId != some q.targetAgencyId })

def transferCreatorToAgency (s : Store) (q : TransferRequest) : Store × Outcome TransferData :=
  match planTransfer s q with
  | .error outcome => (s, outcome)
  | .ok p => ((commitTransfer s q p).1, .ok (commitTransfer s q p).2)

/-! ### Repairs -/

structure LedgerCoinsResult where
  actualCoins : ℤ
  expectedCoins : ℤ
  discrepancy : ℤ
  repaired : Bool

def getCanonicalCoinsAndRepairIfNeeded (s : Store) (userId : String) (actualCoins : ℤ)
    (tolerance : Option ℤ) : Store × LedgerCoinsResult :=
  let expectedCoins := max 0 (s.coinNet userId)
  let discrepancy := actualCoins - expectedCoins
  if abs discrepancy ≤ max 0 (tolerance.getD 1) then
    (s, ⟨actualCoins, expectedCoins, discrepancy, false⟩)
  else
    ({ s with users := s.users.update userId fun d => { d with coins := expectedCoins.toNat } },
      ⟨actualCoins, expectedCoins, discrepancy, true⟩)

def reconcileStaffBalance (s : Store) (cfg : ReconcileConfig) (dryRun : Bool)
    (staffUserId : String) : Store × ReconcileStaffBalanceResult :=
  let expectedBalance := s.staffNet staffUserId
  let actualBalance : ℤ := (((s.users.get staffUserId).map User.staffCoinsBalance).getD 0 : ℕ)
  let driftAmount := actualBalance - expectedBalance
  let needsFix := decide (cfg.tolerance < |driftAmount|) && cfg.autoFix && !dryRun
  let result : ReconcileStaffBalanceResult :=
    { staffUserId, expectedBalance, actualBalance, driftAmount
      autoCorrected := needsFix
      correctionAmount := if needsFix = true then expectedBalance - actualBalance else 0 }
  if needsFix = true then
    ({ s with users := s.users.update staffUserId fun d =>
        { d with staffCoinsBalance := (max 0 expectedBalance).toNat } }, result)
  else (s, result)

/-! ### Sequences -/

inductive Operation where
  | settle (q : SettleRequest)
  | markPaid (q : MarkPaidRequest)
  | referralReward (q : ReferralRequest)
  | transfer (q : TransferRequest)
  | canonicalCoins (userId : String) (tolerance : Option ℤ)
  | reconcile (cfg : ReconcileConfig) (dryRun : Bool) (staffUserId : String)

def canonicalCoins (s : Store) (userId : String) (tolerance : Option ℤ) : Store :=
  match s.users.get userId with
  | none => s
  | some d => (getCanonicalCoinsAndRepairIfNeeded s userId d.coins tolerance).1

def exec (s : Store) : Operation → Store
  | .settle q => settleStaff s q
  | .markPaid q => (processWithdrawalMarkPaid s q).1
  | .referralReward q => (processReferralRewardOnPurchase s q).1
  | .transfer q => (transferCreatorToAgency s q).1
  | .canonicalCoins userId tolerance => canonicalCoins s userId tolerance
  | .reconcile cfg dryRun staffUserId => (reconcileStaffBalance s cfg dryRun staffUserId).1

end VibemeetBackend.StaffWallets
