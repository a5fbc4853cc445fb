import VibemeetBackend.Payment.CoinLedger

/-!
# `finalizePaymentAtomically`

The one transaction that credits a captured wallet payment
(`payment/payment-finalization.service.ts`).  It runs under `session.withTransaction`, so it is a
pure function of the store: an error leaves the store as it was.
-/

namespace VibemeetBackend.Payment

/-- `PaymentWebhookEvent.status`. -/
inductive WebhookStatus where
  | received
  | processing
  | processed
  | failed
  deriving DecidableEq

structure PaymentWebhookEvent where
  id : String
  eventType : String
  orderId : Option String
  paymentId : Option String
  status : WebhookStatus
  attemptCount : ℕ
  nextRetryAt : Option ℤ
  failureReason : Option String

/-- `CheckoutContext.status`. -/
inductive CheckoutStatus where
  | created
  | pending
  | success
  | failed
  | cancelled
  deriving DecidableEq

/-- A `CheckoutContext` document, as far as the payment code reads and writes it. -/
structure CheckoutContext where
  checkoutId : String
  orderId : Option String
  status : CheckoutStatus
  deriving DecidableEq

structure Store where
  ledger : Ledger
  users : List User
  events : List PaymentWebhookEvent
  checkouts : List CheckoutContext

/-- `FinalizePaymentResult.status`. -/
inductive FinalizeStatus where
  | completed
  | alreadyCompleted
  deriving DecidableEq

structure FinalizePaymentResult where
  status : FinalizeStatus
  transaction : CoinTx
  updatedUserCoins : ℤ
  coinsAdded : ℕ

/-- The update of `completePendingTransaction`. -/
def CoinTx.complete (orderId paymentId : String) (t : CoinTx) : CoinTx :=
  { t with
    status := .completed
    paymentGatewayTransactionId := some paymentId
    paymentGatewayOrderId := some orderId }

@[simp] theorem complete_transactionId (o p : String) (t : CoinTx) :
    (t.complete o p).transactionId = t.transactionId := rfl

@[simp] theorem complete_coins (o p : String) (t : CoinTx) : (t.complete o p).coins = t.coins := rfl

@[simp] theorem complete_status (o p : String) (t : CoinTx) :
    (t.complete o p).status = .completed := rfl

/-- `findOneAndUpdate({ _id, status: { $ne: 'completed' } }, …)`: the completed row and the new
collection, or `none` when the row is completed already. -/
def completePendingTransaction (tx : CoinTx) (orderId paymentId : String) (l : Ledger) :
    Option (CoinTx × Ledger) :=
  match l.row tx.transactionId with
  | some t =>
    if t.status = .completed then none
    else some (t.complete orderId paymentId,
      l.setRow tx.transactionId (CoinTx.complete orderId paymentId) (complete_transactionId orderId paymentId))
  | none => none

def completeBonus (orderId paymentId : String) (l : Ledger) : ℕ × Ledger :=
  match l.row (buildPendingBonusTransactionId orderId) with
  | some bonusTx =>
    if bonusTx.status = .completed then (0, l)
    else
      match completePendingTransaction bonusTx orderId paymentId l with
      | some (completedBonus, l') => (completedBonus.coins, l')
      | none => (0, l)
  | none => (0, l)

/-- The transaction of `finalizePaymentAtomically`.  `pick` chooses among the rows the unsorted
query of the order matches; an error aborts the transaction. -/
def finalizePaymentAtomically (pick : ℕ) (orderId paymentId : String)
    (expectedUserId : Option String) (s : Store) : Except String (FinalizePaymentResult × Store) :=
  match findOne pick (orderSelectors orderId) s.ledger.txs with
  | none => .error "TRANSACTION_NOT_FOUND"
  | some currentTx =>
    let txUserId := currentTx.userId
    -- an empty `expectedUserId` is falsy: no check
    if ∃ e, expectedUserId = some e ∧ e ≠ "" ∧ txUserId ≠ e then
      .error "TRANSACTION_USER_MISMATCH"
    else
      match s.users.find? fun x => x.id == txUserId with
      | none => .error "USER_NOT_FOUND"
      | some user =>
        match completePendingTransaction currentTx orderId paymentId s.ledger with
        | none =>
          match s.ledger.row currentTx.transactionId with
          | none => .error "TRANSACTION_NOT_FOUND"
          | some alreadyCompleted =>
            let (bonusCoinsAdded, ledger) := completeBonus orderId paymentId s.ledger
            .ok ({ status := .alreadyCompleted
                   transaction := alreadyCompleted
                   updatedUserCoins := user.coins + bonusCoinsAdded
                   coinsAdded := bonusCoinsAdded },
              { s with ledger, users := incCoins s.users txUserId bonusCoinsAdded })
        | some (updatedTx, ledger₁) =>
          let (bonusCoins, ledger) := completeBonus orderId paymentId ledger₁
          let totalCoinsAdded := updatedTx.coins + bonusCoins
          .ok ({ status := .completed
                 transaction := updatedTx
                 updatedUserCoins := user.coins + totalCoinsAdded
                 coinsAdded := totalCoinsAdded },
            { s with ledger, users := incCoins s.users txUserId totalCoinsAdded })

/-! ### What a finalization does to the ledger -/

/-- The coins of a row that is not completed: what the row can still add to a wallet. -/
def uncredited (l : Ledger) (id : String) : ℕ :=
  match l.row id with
  | some t => if t.status = .completed then 0 else t.coins
  | none => 0

def rowCoins (l : Ledger) (id : String) : ℕ := ((l.row id).map CoinTx.coins).getD 0

theorem uncredited_le_rowCoins (l : Ledger) (id : String) : uncredited l id ≤ rowCoins l id := by
  unfold uncredited rowCoins
  cases l.row id with
  | none => simp
  | some t => by_cases h : t.status = .completed <;> simp [h]

/-- `l'` is `l` with some rows completed: ids, owners and coins stay, and so does `completed`. -/
structure Completes (l l' : Ledger) : Prop where
  isSome : ∀ id, (l'.row id).isSome = (l.row id).isSome
  coins : ∀ id, rowCoins l' id = rowCoins l id
  completed : ∀ id t, l.row id = some t → t.status = .completed →
    ∃ t', l'.row id = some t' ∧ t'.status = .completed

theorem Completes.refl (l : Ledger) : Completes l l :=
  ⟨fun _ => rfl, fun _ => rfl, fun _ t h hc => ⟨t, h, hc⟩⟩

theorem Completes.trans {l₁ l₂ l₃ : Ledger} (h : Completes l₁ l₂) (h' : Completes l₂ l₃) :
    Completes l₁ l₃ := by
  refine ⟨fun id => (h'.isSome id).trans (h.isSome id), fun id => (h'.coins id).trans (h.coins id),
    fun id t ht hc => ?_⟩
  obtain ⟨t', ht', hc'⟩ := h.completed id t ht hc
  exact h'.completed id t' ht' hc'

variable {o p : String}

theorem completePending_spec {tx u : CoinTx} {l l' : Ledger}
    (h : completePendingTransaction tx o p l = some (u, l')) :
    Completes l l' ∧ u.coins = uncredited l tx.transactionId ∧
      (∀ id, uncredited l' id = if id = tx.transactionId then 0 else uncredited l id) ∧
      ∀ id, id ≠ tx.transactionId → l'.row id = l.row id := by
  unfold completePendingTransaction at h
  cases ht : l.row tx.transactionId with
  | none => simp [ht] at h
  | some t =>
    by_cases hc : t.status = .completed
    · simp [ht, hc] at h
    · simp only [ht, hc, if_false, Option.some.injEq, Prod.mk.injEq] at h
      obtain ⟨rfl, rfl⟩ := h
      refine ⟨⟨fun id => ?_, fun id => ?_, fun id t' ht' hc' => ?_⟩, ?_, fun id => ?_,
        fun id hid => ?_⟩
      · rw [Ledger.row_setRow]
        split <;> simp
      · unfold rowCoins
        rw [Ledger.row_setRow]
        split
        · cases l.row id <;> simp
        · rfl
      · rw [Ledger.row_setRow, ht']
        split
        · exact ⟨_, rfl, rfl⟩
        · exact ⟨_, rfl, hc'⟩
      · simp [uncredited, ht, hc]
      · unfold uncredited
        rw [Ledger.row_setRow]
        by_cases hid : id = tx.transactionId
        · simp [hid, ht]
        · rw [if_neg hid, if_neg hid]
      · rw [Ledger.row_setRow, if_neg hid]

theorem completeBonus_spec (o p : String) (l : Ledger) :
    Completes l (completeBonus o p l).2 ∧
      (completeBonus o p l).1 = uncredited l (buildPendingBonusTransactionId o) ∧
      (∀ id, uncredited (completeBonus o p l).2 id =
        if id = buildPendingBonusTransactionId o then 0 else uncredited l id) ∧
      ∀ id, id ≠ buildPendingBonusTransactionId o →
        (completeBonus o p l).2.row id = l.row id := by
  have hzero : uncredited l (buildPendingBonusTransactionId o) = 0 →
      ∀ id, uncredited l id =
        if id = buildPendingBonusTransactionId o then 0 else uncredited l id := by
    intro h id
    split
    · rename_i hid
      rw [hid, h]
    · rfl
  unfold completeBonus
  cases ht : l.row (buildPendingBonusTransactionId o) with
  | none =>
    have h0 : uncredited l (buildPendingBonusTransactionId o) = 0 := by simp [uncredited, ht]
    exact ⟨Completes.refl l, h0.symm, hzero h0, fun _ _ => rfl⟩
  | some t =>
    dsimp only
    by_cases hc : t.status = .completed
    · have h0 : uncredited l (buildPendingBonusTransactionId o) = 0 := by simp [uncredited, ht, hc]
      rw [if_pos hc]
      exact ⟨Completes.refl l, h0.symm, hzero h0, fun _ _ => rfl⟩
    · have hid : t.transactionId = buildPendingBonusTransactionId o := (Ledger.row_some ht).2
      have hcp : completePendingTransaction t o p l = some (t.complete o p,
          l.setRow t.transactionId (CoinTx.complete o p) (complete_transactionId o p)) := by
        simp [completePendingTransaction, hid, ht, hc]
      have hs := completePending_spec hcp
      simp_all

/-- What a finalization of `o` that picks the row `tx` and adds `added` coins does to the store. -/
structure Finalized (o : String) (tx : CoinTx) (added : ℕ) (s s' : Store) : Prop where
  picked : tx ∈ s.ledger.txs ∧ orderSelectors o tx = true
  completes : Completes s.ledger s'.ledger
  frame : ∀ id, id ≠ tx.transactionId → id ≠ buildPendingBonusTransactionId o →
    s'.ledger.row id = s.ledger.row id
  wallets : ∀ u, coinsOf s'.users u =
    coinsOf s.users u + if u = tx.userId then (added : ℤ) else 0
  left : ∀ id, uncredited s'.ledger id =
    if id = tx.transactionId ∨ id = buildPendingBonusTransactionId o then 0
    else uncredited s.ledger id
  added_eq : added = uncredited s.ledger tx.transactionId +
    if tx.transactionId = buildPendingBonusTransactionId o then 0
    else uncredited s.ledger (buildPendingBonusTransactionId o)
  events : s'.events = s.events

variable {r : FinalizePaymentResult} {e : Option String}

/-- **What a finalization does.**  It completes rows of the order only, keeps every completed row,
and credits one existing user by exactly the coins that stop being uncredited. -/
theorem finalize_finalized {pick : ℕ} {s s' : Store} {tx : CoinTx}
    (htx : findOne pick (orderSelectors o) s.ledger.txs = some tx)
    (h : finalizePaymentAtomically pick o p e s = .ok (r, s')) :
    Finalized o tx r.coinsAdded s s' := by
  have hpicked := findOne_some htx
  have hrow := Ledger.row_of_mem hpicked.1
  unfold finalizePaymentAtomically at h
  simp only [htx] at h
  split at h
  · cases h
  · split at h
    · cases h
    · rename_i user huser
      have hu : (s.users.find? fun x => x.id == tx.userId).isSome := by rw [huser]; rfl
      split at h
      · -- the row is completed already: only the bonus row can change
        rename_i hcp
        obtain ⟨hB, hBc, hBu, hBf⟩ := completeBonus_spec o p s.ledger
        have hdone : tx.status = .completed := by
          by_contra hne
          simp [completePendingTransaction, hrow, hne] at hcp
        have h0 : uncredited s.ledger tx.transactionId = 0 := by simp [uncredited, hrow, hdone]
        simp only [hrow, Except.ok.injEq, Prod.mk.injEq] at h
        obtain ⟨rfl, rfl⟩ := h
        refine ⟨hpicked, hB, fun id _ => hBf id, fun u => coinsOf_incCoins _ _ _ _ hu,
          fun id => ?_, ?_, rfl⟩
        · rw [hBu id]
          by_cases hid : id = tx.transactionId
          · subst hid
            simp [h0]
          · simp [hid]
        grind
      · -- the row is completed now, together with the bonus row
        rename_i updatedTx l₁ hcp
        obtain ⟨hC, hCc, hCu, hCf⟩ := completePending_spec hcp
        obtain ⟨hB, hBc, hBu, hBf⟩ := completeBonus_spec o p l₁
        obtain ⟨rfl, rfl⟩ := h
        refine ⟨hpicked, hC.trans hB, fun id h1 h2 => (hBf id h2).trans (hCf id h1),
          fun u => coinsOf_incCoins _ _ _ _ hu, fun id => ?_, ?_, rfl⟩
        · show uncredited (completeBonus o p l₁).2 id = _
          rw [hBu id, hCu id]
          by_cases h1 : id = buildPendingBonusTransactionId o <;>
            by_cases h2 : id = tx.transactionId <;> simp [h1, h2]
        · show updatedTx.coins + (completeBonus o p l₁).1 = _
          rw [hBc, hCc, hCu]
          congr 1
          by_cases h1 : tx.transactionId = buildPendingBonusTransactionId o
          · simp [h1]
          · rw [if_neg (Ne.symm h1), if_neg h1]

theorem finalize_findOne {pick : ℕ} {s s' : Store}
    (h : finalizePaymentAtomically pick o p e s = .ok (r, s')) :
    ∃ tx, findOne pick (orderSelectors o) s.ledger.txs = some tx := by
  cases htx : findOne pick (orderSelectors o) s.ledger.txs <;> simp_all [finalizePaymentAtomically]

theorem finalize_spec {pick : ℕ} {s s' : Store}
    (h : finalizePaymentAtomically pick o p e s = .ok (r, s')) :
    ∃ tx, Finalized o tx r.coinsAdded s s' := by
  obtain ⟨tx, htx⟩ := finalize_findOne h
  exact ⟨tx, finalize_finalized htx h⟩

end VibemeetBackend.Payment
