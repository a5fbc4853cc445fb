import Mathlib.Data.Rat.Floor
import VibemeetBackend.Billing.Session
import VibemeetBackend.Creator.Withdrawals
import VibemeetBackend.Mongo.Unique

/-!
# Withdrawal requests

`requestWithdrawal` of creators and `createStaffWithdrawalRequest` of staff, on the collection of all
withdrawals, next to the operations on each of them.  A request looks for an active withdrawal and
creates its own by a later command; the collection has no unique index but the id.

Names and account numbers, notifications and caches are left out of the documents.
-/

namespace VibemeetBackend.Creator

open Async
open Billing (isBlank)
open Mongo (Unique)

/-! ### Documents -/

/-- `MIN_WITHDRAWAL_COINS`. -/
def minWithdrawalCoins : ℤ := 1000

inductive Requester where
  | creator (userId : String)
  | staff (staffUserId : String)
  deriving DecidableEq, Repr

structure WithdrawalDoc where
  id : String
  withdrawal : Withdrawal

/-- `ACTIVE_WITHDRAWAL_STATUSES`. -/
def WithdrawalStatus.isActive (status : WithdrawalStatus) : Bool :=
  status = .pending ∨ status = .approved

def Requester.requested (who : Requester) (d : WithdrawalDoc) : Bool :=
  match who with
  | .creator userId => d.withdrawal.creatorUserId = some userId
  | .staff staffUserId => d.withdrawal.staffUserId = some staffUserId

def Requester.activeIn (who : Requester) (d : WithdrawalDoc) : Bool :=
  who.requested d && d.withdrawal.status.isActive

structure StaffPayoutAccount where
  staffUserId : String
  accountHolderName : String
  accountNumber : Option String
  ifsc : Option String
  upi : Option String

/-- `Boolean(field?.trim())`. -/
def filled (field : Option String) : Bool := field.any fun x => !isBlank x

def StaffPayoutAccount.isComplete (a : StaffPayoutAccount) : Bool :=
  !isBlank a.accountHolderName && (filled a.accountNumber && filled a.ifsc || filled a.upi)

structure RequestStore where
  withdrawals : Unique WithdrawalDoc.id
  users : List WalletUser
  creators : List CreatorDoc
  debits : List DebitRow
  staffLedger : List StaffLedgerEntry
  /-- The roles of the users, which nothing here changes. -/
  role : String → String
  bdDisabled : String → Bool
  payoutAccounts : List StaffPayoutAccount

def RequestStore.view (id : String) (s : RequestStore) : WithdrawalStore where
  withdrawal := (s.withdrawals.get id).map (·.withdrawal)
  users := s.users
  creators := s.creators
  debits := s.debits
  staffLedger := s.staffLedger

/-! ### Commands -/

inductive RequestCmd where
  | findUser (k : UserKey)
  | findActive (who : Requester)
  | findCreator (userId : String)
  | findPayoutAccount (staffUserId : String)
  | createWithdrawal (d : WithdrawalDoc)
  | process (id : String) (c : WithdrawalCmd)

def WithdrawalDoc.processed (v : WithdrawalStore) (d : WithdrawalDoc) : WithdrawalDoc :=
  { d with withdrawal := v.withdrawal.getD d.withdrawal }

def RequestStore.putView (id : String) (v : WithdrawalStore) (s : RequestStore) : RequestStore :=
  { s with
    withdrawals := s.withdrawals.update id (WithdrawalDoc.processed v)
    users := v.users
    creators := v.creators
    debits := v.debits
    staffLedger := v.staffLedger }

def RequestCmd.exec (c : RequestCmd) (r : WithdrawalReply) (s : RequestStore) : RequestStore :=
  match c with
  | .createWithdrawal d =>
    if r.delivered = false then s else { s with withdrawals := s.withdrawals.insert d }
  | .process id c => s.putView id (c.exec r (s.view id))
  | _ => s

abbrev RequestFlow (α : Type) : Type := Flow RequestCmd WithdrawalReply RequestStore α

def request (c : RequestCmd) : RequestFlow (WithdrawalReply × RequestStore) :=
  Flow.call WithdrawalReply.ok "MongoServerError" c

def RequestStore.active (s : RequestStore) (who : Requester) : Option WithdrawalDoc :=
  s.withdrawals.rows.reverse.find? who.activeIn

def alreadyActive (d : WithdrawalDoc) : String :=
  if d.withdrawal.status = .pending then
    "You already have a pending withdrawal request. Please wait for it to be processed."
  else
    "You already have an approved withdrawal awaiting payout. Please wait until it is marked paid."

/-! ### Requests -/

structure WithdrawalBody where
  amount : Option ℤ
  name : Option String
  number : Option String
  upi : Option String
  accountNumber : Option String
  ifsc : Option String

/-- Status and error of an answer; none is a success. -/
abbrev Answer : Type := Option (ℕ × String)

def isSuperAdminRole (role : String) : Bool := role = "admin" ∨ role = "super_admin"

/-- The checks of a creator's request before the database is asked again. -/
def checkBody (body : WithdrawalBody) (coins : ℤ) : Except (ℕ × String) ℤ :=
  match body.amount with
  | none => .error (400, "Amount must be a positive number")
  | some amount =>
    if amount ≤ 0 then .error (400, "Amount must be a positive number")
    else if ¬filled body.name then .error (400, "Name is required")
    else if ¬filled body.number then .error (400, "Phone number is required")
    else if ¬filled body.upi ∧ (¬filled body.accountNumber ∨ ¬filled body.ifsc) then
      .error (400, "Either UPI ID or both Account Number and IFSC are required")
    else if filled body.accountNumber ∧ ¬filled body.ifsc then
      .error (400, "IFSC code is required when account number is provided")
    else if amount < minWithdrawalCoins then
      .error (400, "Minimum withdrawal amount is " ++ toString minWithdrawalCoins ++ " coins")
    else if coins < amount then
      .error (400, "Insufficient balance. You have " ++ toString coins ++ " coins but requested " ++
        toString amount)
    else .ok amount

def newWithdrawal (who : Requester) (amount : ℤ) : Withdrawal where
  creatorUserId := match who with
    | .creator userId => some userId
    | .staff _ => none
  creatorFirebaseUid := none
  staffUserId := match who with
    | .creator _ => none
    | .staff staffUserId => some staffUserId
  amount := amount
  status := .pending
  transactionId := none
  notes := none

/-- The part of a creator's request after its checks.  `id` is the id of the new document. -/
def createForCreator (id : String) (userId : String) (amount : ℤ) : RequestFlow Answer := do
  let (_, s) ← request (.findActive (.creator userId))
  match s.active (.creator userId) with
  | some d => return some (409, alreadyActive d)
  | none => do
    let (_, s) ← request (.findCreator userId)
    match s.creators.find? fun c => c.userId == userId with
    | none => return some (404, "Creator profile not found")
    | some _ => do
      let _ ← request (.createWithdrawal ⟨id, newWithdrawal (.creator userId) amount⟩)
      return none

def requestWithdrawal (id firebaseUid : String) (body : WithdrawalBody) : RequestFlow Answer := do
  let (_, s) ← request (.findUser (.byFirebaseUid firebaseUid))
  match s.users.find? (UserKey.byFirebaseUid firebaseUid).selects with
  | none => return some (404, "User not found")
  | some currentUser =>
    if s.role currentUser.id ≠ "creator" ∧ ¬isSuperAdminRole (s.role currentUser.id) then
      return some (403, "Only creators can request withdrawals")
    else
      match checkBody body currentUser.coins with
      | .error e => return some e
      | .ok amount => createForCreator id currentUser.id amount

def createForStaff (id staffUserId : String) (amount : ℤ) : RequestFlow Unit := do
  let (_, s) ← request (.findActive (.staff staffUserId))
  match s.active (.staff staffUserId) with
  | some d => throw (alreadyActive d)
  | none => do
    let (_, s) ← request (.findPayoutAccount staffUserId)
    match s.payoutAccounts.find? fun a => a.staffUserId == staffUserId with
    | none => throw "Bind a payout account in Wallet before requesting withdrawal"
    | some account =>
      if account.isComplete = false then
        throw "Bind a payout account in Wallet before requesting withdrawal"
      else do
        let _ ← request (.createWithdrawal ⟨id, newWithdrawal (.staff staffUserId) amount⟩)
        return ()

def createStaffWithdrawalRequest (id staffUserId : String) (amountRaw : ℚ)
    (blockIfbdDisabled : Bool) : RequestFlow Unit :=
  if ⌊amountRaw⌋ < minWithdrawalCoins then
    throw ("Minimum withdrawal amount is " ++ toString minWithdrawalCoins ++ " coins")
  else do
    let (_, s) ← request (.findUser (.byId staffUserId))
    match s.users.find? (UserKey.byId staffUserId).selects with
    | none => throw "Unauthorized"
    | some user =>
      if blockIfbdDisabled = true ∧ s.bdDisabled user.id = true then
        throw "Account is disabled — new payout requests are blocked"
      else if user.staffCoinsBalance < ⌊amountRaw⌋ then throw "Insufficient wallet balance"
      else createForStaff id staffUserId ⌊amountRaw⌋

inductive Request where
  | creator (id firebaseUid : String) (body : WithdrawalBody)
  | staff (id staffUserId : String) (amountRaw : ℚ) (blockIfbdDisabled : Bool)
  | process (id : String) (q : WithdrawalRequest)

def requestProgram : Request → Prog RequestCmd WithdrawalReply RequestStore Unit
  | .creator id uid body => (requestWithdrawal id uid body).run >>= fun _ => .ret ()
  | .staff id staffUserId amountRaw block =>
    (createStaffWithdrawalRequest id staffUserId amountRaw block).run >>= fun _ => .ret ()
  | .process id q => (withdrawalProgram id q).focus (.process id) (fun r => r) (·.view id)

end VibemeetBackend.Creator
