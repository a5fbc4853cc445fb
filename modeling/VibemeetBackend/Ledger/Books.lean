import VibemeetBackend.Async.Debt
import VibemeetBackend.Ledger.CoinTransaction

/-!
# Wallets against their rows

A program that has made one of two writes, a row and the wallet of its user, owes the other one.
-/

namespace VibemeetBackend.Ledger

open Async

/-- `User.coins` by user. -/
abbrev Wallets : Type := String → Option ℕ

def Wallets.set (coins : Wallets) (userId : String) (wallet : ℕ) : Wallets := fun id =>
  if id = userId then (coins id).map fun _ => wallet else coins id

/-- Each wallet changes by the completed rows of its user. -/
def WalletsKept (coins : Wallets) (rows : List CoinTransaction) (coins' : Wallets)
    (rows' : List CoinTransaction) : Prop :=
  ∀ userId, (coins' userId).map (fun n : ℕ => (n : ℤ)) =
    (coins userId).map fun n : ℕ => (n : ℤ) + (net rows' userId - net rows userId)

def books (coins : Wallets) (rows : List CoinTransaction) (due : ℤ) (userId : String) : Option ℤ :=
  (coins userId).map fun n : ℕ => (n : ℤ) + due - net rows userId

variable {coins coins' : Wallets} {rows rows' : List CoinTransaction} {row : CoinTransaction}

theorem walletsKept_of_books (h : ∀ userId, books coins' rows' 0 userId = books coins rows 0 userId) :
    WalletsKept coins rows coins' rows' := by
  intro userId
  have hbooks := h userId
  unfold books at hbooks
  cases hcoins : coins userId with
  | none =>
    rw [hcoins] at hbooks
    rw [Option.map_eq_none_iff.1 hbooks]
    rfl
  | some n =>
    rw [hcoins] at hbooks
    obtain ⟨n', hcoins', heq⟩ := Option.map_eq_some_iff.1 hbooks
    rw [hcoins', Option.map_some, Option.map_some]
    congr 1
    dsimp only at heq
    omega

theorem net_snoc (hdone : row.status = .completed) (userId : String) :
    net (rows ++ [row]) userId = net rows userId + if row.userId = userId then row.signed else 0 := by
  rw [net_append, net_cons, net_nil, add_zero]
  simp [hdone]

theorem books_row (hdone : row.status = .completed) (due : ℤ) (userId : String) :
    books coins (rows ++ [row]) (due + if row.userId = userId then row.signed else 0) userId =
      books coins rows due userId := by
  unfold books
  rw [net_snoc hdone]
  congr 1
  funext n
  ring

theorem books_set (rows : List CoinTransaction) {userId : String} {n n' : ℕ} {change : ℤ}
    (hcoins : coins userId = some n) (hn : (n' : ℤ) = n + change) (due : ℤ) (id : String) :
    books (coins.set userId n') rows (due - if userId = id then change else 0) id =
      books coins rows due id := by
  unfold books Wallets.set
  by_cases hid : userId = id
  · subst hid
    rw [if_pos rfl, if_pos rfl, hcoins, Option.map_some, Option.map_some, Option.map_some]
    congr 1
    omega
  · rw [if_neg hid, if_neg (Ne.symm hid), sub_zero]

/-- **A movement** writes its row and changes its wallet at once. -/
theorem books_move {n n' : ℕ} (hcoins : coins row.userId = some n) (hn : (n' : ℤ) = n + row.signed)
    (hdone : row.status = .completed) (due : ℤ) (id : String) :
    books (coins.set row.userId n') (rows ++ [row]) due id = books coins rows due id := by
  have hset := books_set (rows ++ [row]) hcoins hn
    (due + if row.userId = id then row.signed else 0) id
  rw [add_sub_cancel_right, books_row hdone] at hset
  exact hset

end VibemeetBackend.Ledger
