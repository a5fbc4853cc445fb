import Mathlib.Tactic

/-!
# The coin ledger

`CoinTransaction` of `coin-transaction.model.ts`: rows that are only appended, one for each movement
of a wallet.  `transactionId` is unique.
-/

namespace VibemeetBackend.Ledger

inductive TxType
  | credit | debit
  deriving DecidableEq, Repr

inductive TxStatus
  | completed | pending | failed
  deriving DecidableEq

structure CoinTransaction where
  transactionId : String
  userId : String
  type : TxType
  coins : ℕ
  source : String
  description : String
  status : TxStatus

def CoinTransaction.signed (row : CoinTransaction) : ℤ :=
  match row.type with
  | .credit => row.coins
  | .debit => -row.coins

def net (rows : List CoinTransaction) (userId : String) : ℤ :=
  ((rows.filter fun row => row.userId == userId && row.status == .completed).map
    CoinTransaction.signed).sum

@[simp] theorem net_nil (userId : String) : net [] userId = 0 := rfl

theorem net_append (rows rows' : List CoinTransaction) (userId : String) :
    net (rows ++ rows') userId = net rows userId + net rows' userId := by
  unfold net
  rw [List.filter_append, List.map_append, List.sum_append]

theorem net_cons (row : CoinTransaction) (rows : List CoinTransaction) (userId : String) :
    net (row :: rows) userId =
      (if row.userId = userId ∧ row.status = .completed then row.signed else 0) +
        net rows userId := by
  unfold net
  rw [List.filter_cons]
  by_cases h : row.userId = userId ∧ row.status = .completed
  · rw [if_pos (by simp [h]), if_pos h, List.map_cons, List.sum_cons]
  · rw [if_neg (by simpa using h), if_neg h, zero_add]

def create (rows : List CoinTransaction) (transactionId userId : String) (type : TxType) (coins : ℤ)
    (source description : String) : Except String (List CoinTransaction) :=
  if coins < 0 then .error "ValidationError"
  else if rows.any (·.transactionId == transactionId) then .error "E11000 duplicate key"
  else .ok (rows ++ [⟨transactionId, userId, type, coins.toNat, source, description, .completed⟩])

theorem ok_of_create {rows rows' : List CoinTransaction} {transactionId userId : String}
    {type : TxType} {coins : ℤ} {source description : String}
    (h : create rows transactionId userId type coins source description = .ok rows') :
    0 ≤ coins ∧ rows' = rows ++
      [⟨transactionId, userId, type, coins.toNat, source, description, .completed⟩] := by
  grind [create]

end VibemeetBackend.Ledger
