import VibemeetBackend.Async.Watch
import VibemeetBackend.Billing.SettleTransaction
import VibemeetBackend.Moments.Cursor

/-!
# The refund of a call

`refundCall` of `admin.controller.ts`, as a program on the rows of one call, the wallets and the
ledger.  A wallet is loaded, and later saved as a whole; in between, other features move coins by
transactions of their own, which write a row and change the wallet at once.

The ids of the rows are random and not read.  The audit log never fails, the checks of the balances
that follow a refund only put wallets on a list, and both are left out with the caches.
-/

namespace VibemeetBackend.Refund

open Async
open Moments (Text trim utf16Length)

/-! ### Documents -/

structure CallHistory extends Billing.CallHistory where
  ownerUserId : String
  createdAt : ℤ

inductive TxType
  | credit | debit
  deriving DecidableEq, Repr

/-- `admin`, or the source of another feature. -/
inductive Source
  | admin | feature
  deriving DecidableEq

structure CoinTransaction where
  userId : String
  type : TxType
  coins : ℕ
  source : Source
  description : Text
  callId : Option String

def CoinTransaction.signed (row : CoinTransaction) : ℤ :=
  match row.type with
  | .credit => row.coins
  | .debit => -row.coins

/-- The rows of one call with the wallets (`User.coins`) and the ledger. -/
structure Store where
  callId : String
  userCall : Option CallHistory
  creatorCall : Option CallHistory
  coins : String → Option ℕ
  rows : List CoinTransaction

def refundPrefix : Text := ['R', 'E', 'F', 'U', 'N', 'D']

/-- The filter of `existingRefund`. -/
def CoinTransaction.isRefund (row : CoinTransaction) (callId : String) : Bool :=
  row.callId == some callId && row.source == .admin && refundPrefix.isPrefixOf row.description

def Store.refunds (s : Store) : List CoinTransaction := s.rows.filter fun row => row.isRefund s.callId

def Store.insert (s : Store) (row : CoinTransaction) : Store := { s with rows := s.rows ++ [row] }

def Store.setCoins (s : Store) (userId : String) (coins : ℕ) : Store :=
  { s with coins := fun id => if id = userId then (s.coins id).map fun _ => coins else s.coins id }

/-! ### Commands -/

inductive Cmd
  | assertAdmin
  | findUserCall
  | findRefund
  | getAdminUser
  | findCreatorCall
  | findUser (userId : String)
  | insertTransaction (row : CoinTransaction)
  /-- `user.save()` of a document that was loaded with `loaded` coins. -/
  | saveCoins (userId : String) (loaded coins : ℕ)
  /-- A transaction of another feature; a debit that is not covered is refused. -/
  | movement (userId : String) (type : TxType) (coins : ℕ)

/-- `ok` when the command is answered; one that is not may have been executed all the same. -/
structure Reply where
  ok : Bool
  executed : Bool
  isAdmin : Bool
  email : Option Text
  now : ℤ

/-- The wallet after a movement; a debit that is not covered has none. -/
def moved (type : TxType) (coins wallet : ℕ) : Option ℕ :=
  match type with
  | .credit => some (wallet + coins)
  | .debit => if coins ≤ wallet then some (wallet - coins) else none

def Cmd.effect (c : Cmd) (s : Store) : Store :=
  match c with
  | .insertTransaction row => s.insert row
  | .saveCoins userId _ coins => s.setCoins userId coins
  | .movement userId type coins =>
    match (s.coins userId).bind (moved type coins) with
    | some wallet =>
      (s.setCoins userId wallet).insert ⟨userId, type, coins, .feature, [], none⟩
    | none => s
  | _ => s

def Cmd.exec (c : Cmd) (r : Reply) (s : Store) : Store :=
  if r.ok || r.executed then c.effect s else s

/-! ### The controller -/

abbrev RefundFlow (α : Type) : Type := Flow Cmd Reply Store α

def run (c : Cmd) : RefundFlow (Reply × Store) := Flow.call Reply.ok "MongoError" c

def refundMaxAgeDays : ℕ := 30

def callAge (now createdAt : ℤ) : ℚ := (now - createdAt : ℚ) / (1000 * 60 * 60 * 24)

structure BalanceChange where
  before : ℕ
  after : Option ℕ

inductive Response
  | error (status : ℕ) (message : String)
  | refunded (refundedAmount : ℕ) (user creator : Option BalanceChange)

/-- `adminUser?.email || 'admin'`. -/
def adminName (email : Option Text) : Text := (email.filter (· ≠ [])).getD "admin".toList

def refundDescription (callId : String) (email : Option Text) (reason : Text) : Text :=
  refundPrefix ++ (" call ".toList ++ callId.toList ++ " by ".toList ++ adminName email ++
    ": ".toList ++ reason)

def clawbackDescription (callId : String) (email : Option Text) (reason : Text) : Text :=
  refundPrefix ++ (" clawback call ".toList ++ callId.toList ++ " by ".toList ++
    adminName email ++ ": ".toList ++ reason)

def creditUser (callId : String) (userCall : CallHistory) (description : Text) :
    RefundFlow (Option BalanceChange) := do
  let refundAmount := userCall.coinsDeducted
  let (_, s) ← run (.findUser userCall.ownerUserId)
  match s.coins userCall.ownerUserId with
  | none => return none
  | some coins => do
    let _ ← run (.insertTransaction
      ⟨userCall.ownerUserId, .credit, refundAmount, .admin, description, some callId⟩)
    let _ ← run (.saveCoins userCall.ownerUserId coins (coins + refundAmount))
    return some ⟨coins, some (coins + refundAmount)⟩

def debitCreator (callId : String) (creatorCall : Option CallHistory) (description : Text) :
    RefundFlow (Option BalanceChange) :=
  match creatorCall with
  | none => return none
  | some creatorCall =>
    if creatorCall.coinsEarned = 0 then return none
    else do
      let (_, s) ← run (.findUser creatorCall.ownerUserId)
      match s.coins creatorCall.ownerUserId with
      | none => return none
      | some coins =>
        let debitAmount := min creatorCall.coinsEarned coins
        if debitAmount = 0 then return some ⟨coins, none⟩
        else do
          let _ ← run (.insertTransaction
            ⟨creatorCall.ownerUserId, .debit, debitAmount, .admin, description, some callId⟩)
          let _ ← run (.saveCoins creatorCall.ownerUserId coins (coins - debitAmount))
          return some ⟨coins, some (coins - debitAmount)⟩

def executeRefund (callId : String) (userCall : CallHistory) (reason : Text) :
    RefundFlow Response := do
  let (adminUser, _) ← run .getAdminUser
  let (_, s) ← run .findCreatorCall
  let user ← creditUser callId userCall (refundDescription callId adminUser.email (trim reason))
  let creator ←
    debitCreator callId s.creatorCall (clawbackDescription callId adminUser.email (trim reason))
  return .refunded userCall.coinsDeducted user creator

def tooOld (age : ℚ) : String :=
  "Cannot refund calls older than 30 days (this call is " ++ toString (mathRound age) ++ "d old)"

def guardedRefund (reason : Text) : RefundFlow Response := do
  let (r, s) ← run .findUserCall
  match s.userCall with
  | none => return .error 404 "Call not found"
  | some userCall => do
    if refundMaxAgeDays < callAge r.now userCall.createdAt then
      return .error 400 (tooOld (callAge r.now userCall.createdAt))
    if userCall.coinsDeducted = 0 then
      return .error 400 "Nothing to refund (0 coins deducted)"
    let (_, t) ← run .findRefund
    if t.refunds ≠ [] then return .error 409 "Call already refunded"
    executeRefund s.callId userCall reason

/-- The `try` block; `reason` is none when the body has no text of that name. -/
def tryRefund (reason : Option Text) : RefundFlow Response := do
  let (admin, _) ← run .assertAdmin
  if !admin.isAdmin then return .error 403 "Admin access required"
  match reason with
  | none => return .error 400 "reason is required (min 5 characters)"
  | some reason =>
    if utf16Length (trim reason) < 5 then
      return .error 400 "reason is required (min 5 characters)"
    else guardedRefund reason

def refundCall (reason : Option Text) : RefundFlow Response :=
  tryCatch (tryRefund reason) fun _ => return .error 500 "Internal server error"

inductive Request
  | refund (reason : Option Text)
  | movement (userId : String) (type : TxType) (coins : ℕ)

def program (q : Request) : Prog Cmd Reply Store Unit :=
  match q with
  | .refund reason => (refundCall reason).run >>= fun _ => .ret ()
  | .movement userId type coins => (run (.movement userId type coins)).run >>= fun _ => .ret ()

end VibemeetBackend.Refund
