import Mathlib.Tactic

/-!
# The coin ledger: users and coin transactions

The two collections every wallet payment touches.  A `CoinTx` is a document of `CoinTransaction`
(`user/coin-transaction.model.ts`); its `transactionId` carries a unique index, which `Ledger`
keeps as a field, so a ledger with two rows of one id cannot be built.  The order of the list is
the order of creation.
-/

namespace VibemeetBackend.Payment

/-- `CoinTransaction.status`. -/
inductive TxStatus where
  | completed
  | pending
  | failed
  deriving DecidableEq

/-- `CoinTransaction.source`, as far as the payment code tells the sources apart. -/
inductive TxSource where
  | paymentGateway
  | rechargeBonus
  | otherSource
  deriving DecidableEq

/-- A credit row of `CoinTransaction`. -/
structure CoinTx where
  transactionId : String
  userId : String
  coins : ℕ
  source : TxSource
  paymentGatewayTransactionId : Option String
  paymentGatewayOrderId : Option String
  status : TxStatus
  deriving DecidableEq

/-- A `User` document: the fields the payment code reads and the wallet it credits. -/
structure User where
  id : String
  firebaseUid : String
  role : String
  phone : Option String
  email : Option String
  coins : ℤ

/-- The rows of `CoinTransaction`, with their unique index. -/
structure Ledger where
  txs : List CoinTx
  unique : (txs.map CoinTx.transactionId).Nodup

/-- A query without a sort: the environment's `pick` selects one of the matching documents. -/
def findOne {α : Type} (pick : ℕ) (p : α → Bool) (docs : List α) : Option α :=
  (docs.filter p)[pick % (docs.filter p).length]?

theorem findOne_some {α : Type} {pick : ℕ} {p : α → Bool} {docs : List α} {a : α}
    (h : findOne pick p docs = some a) : a ∈ docs ∧ p a = true := by
  have hm := List.mem_of_getElem? h
  exact List.mem_filter.1 hm

def buildPendingTransactionId (orderId : String) : String := "pay_" ++ orderId

def buildPendingBonusTransactionId (orderId : String) : String := "pay_bonus_" ++ orderId

/-- `getOrderTransactionSelectors`, as the predicate of the `$or` query. -/
def orderSelectors (orderId : String) (t : CoinTx) : Bool :=
  t.transactionId == buildPendingTransactionId orderId ||
    t.transactionId == "razorpay_" ++ orderId ||
    t.paymentGatewayOrderId == some orderId

namespace Ledger

variable (l : Ledger)

def row (id : String) : Option CoinTx := l.txs.find? fun t => t.transactionId == id

/-- `updateOne({ transactionId })`: rewrite the row of an id, which keeps its id. -/
def setRow (id : String) (f : CoinTx → CoinTx)
    (hf : ∀ t, (f t).transactionId = t.transactionId) : Ledger where
  txs := l.txs.map fun t => if t.transactionId = id then f t else t
  unique := by
    have h : (l.txs.map fun t => if t.transactionId = id then f t else t).map
        CoinTx.transactionId = l.txs.map CoinTx.transactionId := by
      rw [List.map_map]
      refine List.map_congr_left fun t _ => ?_
      simp only [Function.comp_apply]
      split
      · exact hf t
      · rfl
    rw [h]
    exact l.unique

/-- `create`: append a row, or fail on the unique index and leave the collection as it was. -/
def insert (t : CoinTx) : Ledger :=
  if h : t.transactionId ∈ l.txs.map CoinTx.transactionId then l
  else
    { txs := l.txs ++ [t]
      unique := by
        rw [List.map_append, List.nodup_append]
        refine ⟨l.unique, by simp, fun a ha b hb => ?_⟩
        simp only [List.map_cons, List.map_nil, List.mem_singleton] at hb
        rintro rfl
        exact h (hb ▸ ha) }

variable {l}

theorem row_some {id : String} {t : CoinTx} (h : l.row id = some t) :
    t ∈ l.txs ∧ t.transactionId = id :=
  ⟨List.mem_of_find?_eq_some h, by simpa using List.find?_some h⟩

theorem row_of_mem {t : CoinTx} (h : t ∈ l.txs) : l.row t.transactionId = some t := by
  obtain ⟨txs, hu⟩ := l
  simp only [row] at h ⊢
  induction txs with
  | nil => cases h
  | cons a as ih =>
    rw [List.map_cons, List.nodup_cons] at hu
    rcases List.mem_cons.1 h with rfl | h
    · simp
    · have hne : a.transactionId ≠ t.transactionId := fun he =>
        hu.1 (he ▸ List.mem_map_of_mem h)
      rw [List.find?_cons_of_neg (by simpa using hne)]
      exact ih hu.2 h

theorem row_eq_none {id : String} : l.row id = none ↔ ∀ t ∈ l.txs, t.transactionId ≠ id := by
  simp [row, List.find?_eq_none]

@[simp] theorem row_setRow (id id' : String) (f : CoinTx → CoinTx)
    (hf : ∀ t, (f t).transactionId = t.transactionId) :
    (l.setRow id f hf).row id' = if id' = id then (l.row id').map f else l.row id' := by
  simp only [row, setRow]
  induction l.txs with
  | nil => simp
  | cons a as ih =>
    rw [List.map_cons]
    by_cases ha : a.transactionId = id
    · rw [if_pos ha]
      by_cases hid : id' = id
      · subst hid
        simp [hf, ha]
      · have hne : a.transactionId ≠ id' := fun h => hid (h.symm.trans ha)
        simp_all
    · rw [if_neg ha]
      by_cases ha' : a.transactionId = id'
      · have hid : id' ≠ id := fun h => ha (ha'.trans h)
        simp [ha', hid]
      · rw [List.find?_cons_of_neg (by simpa using ha'),
          List.find?_cons_of_neg (by simpa using ha'), ih]

@[simp] theorem row_insert (t : CoinTx) (id : String) :
    (l.insert t).row id =
      match l.row id with
      | some t' => some t'
      | none => if t.transactionId = id then some t else none := by
  unfold insert
  split
  · rename_i hmem
    cases hr : l.row id with
    | some t' => rfl
    | none =>
      have hne : t.transactionId ≠ id := by
        rintro rfl
        obtain ⟨t', ht', he⟩ := List.mem_map.1 hmem
        exact row_eq_none.1 hr t' ht' he
      simp [hne]
  · simp only [row, List.find?_append]
    cases l.txs.find? fun t => t.transactionId == id with
    | some t' => rfl
    | none => by_cases h : t.transactionId = id <;> simp [h]

end Ledger

/-! ### Wallets -/

/-- `User.coins` of a user, zero for a user that does not exist. -/
def coinsOf (users : List User) (u : String) : ℤ :=
  ((users.find? fun x => x.id == u).map User.coins).getD 0

/-- `User.findByIdAndUpdate(u, { $inc: { coins: d } })`. -/
def incCoins (users : List User) (u : String) (d : ℤ) : List User :=
  users.map fun x => if x.id = u then { x with coins := x.coins + d } else x

theorem coinsOf_incCoins (users : List User) (u v : String) (d : ℤ)
    (hu : (users.find? fun x => x.id == u).isSome) :
    coinsOf (incCoins users u d) v = coinsOf users v + if v = u then d else 0 := by
  simp only [coinsOf, incCoins]
  by_cases hv : v = u
  · subst hv
    induction users with
    | nil => simp at hu
    | cons a as ih =>
      by_cases ha : a.id = v
      · simp [ha]
      grind
  · rw [if_neg hv, add_zero]
    clear hu
    induction users with
    | nil => rfl
    | cons a as ih =>
      rw [List.map_cons]
      by_cases ha : a.id = v
      · have hau : a.id ≠ u := fun h => hv (ha.symm.trans h)
        rw [if_neg hau]
        simp [ha]
      · have ha' : (if a.id = u then { a with coins := a.coins + d } else a).id ≠ v := by
          split
          · exact ha
          · exact ha
        rw [List.find?_cons_of_neg (by simpa using ha'), List.find?_cons_of_neg (by simpa using ha)]
        exact ih

end VibemeetBackend.Payment
