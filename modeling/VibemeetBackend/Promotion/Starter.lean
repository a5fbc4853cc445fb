import VibemeetBackend.Ledger.CoinTransaction
import VibemeetBackend.Mongo.Retried
import VibemeetBackend.Referral.Apply

/-!
# Promotion of a user to a creator

`ensureCreatorPromotionWalletClearedEntry` and `promoteUserToCreatorWithStarterProfile` of
`creator-starter.service.ts`, `createCreator` and `deleteCreatorCore` of `creator.controller.ts`, for
one user.

The user is loaded before the transaction and keeps in memory what an attempt assigned.  The
transaction of `createCreator` runs once; those of the callers of the starter profile may run again.
What requests are refused for before they load the user is left out, and so are the texts of the
profile.
-/

namespace VibemeetBackend.Promotion

open Ledger Mongo
open Referral (UserRole)

/-! ### Documents -/

structure Store where
  coins : ℤ
  role : UserRole
  profile : Bool
  rows : List CoinTransaction

def Store.has (s : Store) (transactionId : String) : Bool :=
  s.rows.any fun row => row.transactionId == transactionId

/-- A movement of another feature writes its row and changes the wallet. -/
def Store.move (userId : String) (s : Store) (row : CoinTransaction) : Store :=
  if s.has row.transactionId then s
  else { s with
    rows := s.rows ++ [row]
    coins :=
      if row.userId = userId ∧ row.status = .completed then s.coins + row.signed else s.coins }

def creatorPromotionWalletClearTransactionId (userId : String) : String :=
  "creator_promotion_wallet_clear_" ++ userId

def total (type : TxType) (userId : String) (rows : List CoinTransaction) : ℕ :=
  ((rows.filter fun row => row.userId == userId && row.status == .completed &&
    row.type == type).map (·.coins)).sum

def getCompletedLedgerBalance (userId : String) (rows : List CoinTransaction) : ℤ :=
  (total .credit userId rows : ℤ) - total .debit userId rows

def walletClearedRow (userId : String) (ledgerBalance : ℤ) : CoinTransaction where
  transactionId := creatorPromotionWalletClearTransactionId userId
  userId
  type := if 0 < ledgerBalance then .debit else .credit
  coins := ledgerBalance.natAbs
  source := "admin"
  description :=
    if 0 < ledgerBalance then "Consumer wallet cleared on creator promotion"
    else "Ledger correction on creator promotion"
  status := .completed

def ensureCreatorPromotionWalletClearedEntry (userId : String) (s : Store) : Store :=
  if s.has (creatorPromotionWalletClearTransactionId userId) then s
  else
    let ledgerBalance := getCompletedLedgerBalance userId s.rows
    if ledgerBalance = 0 then s
    else { s with rows := s.rows ++ [walletClearedRow userId ledgerBalance] }

/-! ### Promotions -/

structure UserDoc where
  coins : DocField ℤ
  role : DocField UserRole

abbrev PromotionStep : Type := Step UserDoc Store

/-- `user.save()` after the wallet was assigned zero. -/
def saveUser (role : UserRole → UserRole) : PromotionStep where
  assign m := { coins := m.coins.set 0, role := m.role.set (role m.role.value) }
  command m s := .ok { s with coins := m.coins.write s.coins, role := m.role.write s.role }
  settle m := { coins := m.coins.saved, role := m.role.saved }

def write (command : Store → Except String Store) : PromotionStep where
  assign := id
  command _ := command
  settle := id

/-- `Creator.create`: `userId` is unique. -/
def createProfile (s : Store) : Except String Store :=
  if s.profile then .error "E11000 duplicate key" else .ok { s with profile := true }

inductive Entry
  | createCreator
  | starterProfile (aborted : List ℕ)

namespace Entry

def isSuperAdminRole (role : UserRole) : Bool := role == .admin || role == .superAdmin

def role (entry : Entry) (role : UserRole) : UserRole :=
  match entry with
  | .createCreator => if role ≠ .creator ∧ isSuperAdminRole role = false then .creator else role
  | .starterProfile _ => .creator

def aborted : Entry → List ℕ
  | .createCreator => []
  | .starterProfile aborted => aborted

/-- The third step assigns a referral code, which is no part of this. -/
def steps (userId : String) (entry : Entry) : List PromotionStep :=
  [saveUser entry.role, write fun s => .ok (ensureCreatorPromotionWalletClearedEntry userId s),
    write .ok, write createProfile]

end Entry

/-- A promotion; `between` are the movements after the user was loaded. -/
def promote (userId : String) (entry : Entry) (between : List CoinTransaction) (s : Store) :
    Except String Store :=
  if s.profile then .error "User is already a creator"
  else
    (withTransaction (fun (_ : Unit) _ => entry.steps userId) (entry.aborted.map fun cut => ((), cut))
      () ⟨.load s.coins, .load s.role⟩ (between.foldl (Store.move userId) s)).map Prod.snd

def deleteCreatorCore (s : Store) : Store :=
  if s.profile then
    { s with profile := false, role := if s.role = .creator then .user else s.role }
  else s

/-! ### Histories -/

inductive Event
  | movement (row : CoinTransaction)
  | promotion (entry : Entry) (between : List CoinTransaction)
  | deletion

def Event.next (userId : String) (s : Store) : Event → Store
  | .movement row => s.move userId row
  | .promotion entry between =>
    match promote userId entry between s with
    | .ok t => t
    | .error _ => between.foldl (Store.move userId) s
  | .deletion => deleteCreatorCore s

end VibemeetBackend.Promotion
