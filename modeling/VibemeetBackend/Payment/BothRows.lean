import VibemeetBackend.Payment.Finalization

/-!
# The two rows of an order

`finalizePaymentAtomically` takes the document that its query returns for the main row of the order
and looks for the bonus row itself.  The query matches both rows.
-/

namespace VibemeetBackend.Payment

structure OrderRows (o : String) (main bonus : CoinTx) (l : Ledger) : Prop where
  main_row : l.row main.transactionId = some main
  bonus_row : l.row bonus.transactionId = some bonus
  bonus_id : bonus.transactionId = buildPendingBonusTransactionId o
  main_id : main.transactionId ≠ buildPendingBonusTransactionId o
  buyer : bonus.userId = main.userId
  main_matches : orderSelectors o main = true
  bonus_matches : orderSelectors o bonus = true
  only : ∀ t ∈ l.txs, orderSelectors o t = true → t = main ∨ t = bonus

def Ledger.IsCompleted (l : Ledger) (id : String) : Prop :=
  ∃ t, l.row id = some t ∧ t.status = .completed

/-- Both rows are completed, and the wallet of the buyer has grown by the coins of those that were
not. -/
def CreditsBoth (main bonus : CoinTx) (s s' : Store) : Prop :=
  s'.ledger.IsCompleted main.transactionId ∧ s'.ledger.IsCompleted bonus.transactionId ∧
    coinsOf s'.users main.userId = coinsOf s.users main.userId +
      uncredited s.ledger main.transactionId + uncredited s.ledger bonus.transactionId

/-! ### Which rows a finalization completes -/

variable {o p : String} {l l' : Ledger} {tx u : CoinTx}

theorem completePending_isCompleted (h : completePendingTransaction tx o p l = some (u, l')) :
    l'.IsCompleted tx.transactionId := by
  rw [completePendingTransaction] at h
  split at h
  · rename_i t ht
    split at h
    · cases h
    · cases h
      refine ⟨t.complete o p, ?_, rfl⟩
      simp [ht]
  · cases h

theorem completePending_eq_none (h : completePendingTransaction tx o p l = none)
    (hrow : l.row tx.transactionId = some u) : u.status = .completed := by
  simp_all [completePendingTransaction]

theorem completeBonus_isCompleted (hrow : l.row (buildPendingBonusTransactionId o) = some u) :
    (completeBonus o p l).2.IsCompleted (buildPendingBonusTransactionId o) := by
  have hid : u.transactionId = buildPendingBonusTransactionId o := (Ledger.row_some hrow).2
  rw [completeBonus, hrow]
  dsimp only
  split
  · rename_i hcompleted
    exact ⟨u, hrow, hcompleted⟩
  · rename_i hne
    split
    · rename_i l₁ hl₁
      rw [← hid]
      exact completePending_isCompleted hl₁
    · rename_i hnone
      rw [← hid] at hrow
      exact absurd (completePending_eq_none hnone hrow) hne

theorem Completes.isCompleted (h : Completes l l') {id : String} (hid : l.IsCompleted id) :
    l'.IsCompleted id := by
  obtain ⟨t, ht, hcompleted⟩ := hid
  exact h.completed id t ht hcompleted

/-! ### A finalization -/

variable {pick : ℕ} {e : Option String} {s s' : Store} {r : FinalizePaymentResult}
  {main bonus : CoinTx}

theorem finalize_isCompleted (htx : findOne pick (orderSelectors o) s.ledger.txs = some tx)
    (h : finalizePaymentAtomically pick o p e s = .ok (r, s')) :
    s'.ledger.IsCompleted tx.transactionId ∧
      (s.ledger.row (buildPendingBonusTransactionId o) = some u →
        s'.ledger.IsCompleted (buildPendingBonusTransactionId o)) := by
  have hrow := Ledger.row_of_mem (findOne_some htx).1
  rw [finalizePaymentAtomically, htx] at h
  dsimp only at h
  split at h
  · cases h
  split at h
  · cases h
  split at h
  · -- the row was completed
    rename_i hnone
    rw [hrow] at h
    cases h
    constructor
    · exact (completeBonus_spec o p s.ledger).1.isCompleted
        ⟨tx, hrow, completePending_eq_none hnone hrow⟩
    · exact completeBonus_isCompleted
  · rename_i updatedTx l₁ hl₁
    cases h
    have hcompletes := (completePending_spec hl₁).1
    constructor
    · exact (completeBonus_spec o p l₁).1.isCompleted (completePending_isCompleted hl₁)
    · intro hbonus
      have hsome : (l₁.row (buildPendingBonusTransactionId o)).isSome = true := by
        rw [hcompletes.isSome, hbonus]
        rfl
      obtain ⟨u', hu'⟩ := Option.isSome_iff_exists.1 hsome
      exact completeBonus_isCompleted hu'

theorem uncredited_of_completed (hrow : s.ledger.row tx.transactionId = some tx)
    (hcompleted : tx.status = .completed) : uncredited s.ledger tx.transactionId = 0 := by
  rw [uncredited, hrow]
  exact if_pos hcompleted

/-- **A finalization credits both rows** of an order exactly when the query returns the main row, or
the main row is completed already. -/
theorem creditsBoth_iff (hrows : OrderRows o main bonus s.ledger)
    (h : finalizePaymentAtomically pick o p e s = .ok (r, s')) :
    CreditsBoth main bonus s s' ↔
      findOne pick (orderSelectors o) s.ledger.txs = some main ∨ main.status = .completed := by
  obtain ⟨tx, htx⟩ := finalize_findOne h
  have hfinal := finalize_finalized htx h
  have hbonusRow := hrows.bonus_row
  rw [hrows.bonus_id] at hbonusRow
  obtain ⟨hcompleted, hbonusCompleted⟩ := finalize_isCompleted (u := bonus) htx h
  have hbonus := hbonusCompleted hbonusRow
  rcases hrows.only tx hfinal.picked.1 hfinal.picked.2 with rfl | rfl
  · -- the query returns the main row
    refine iff_of_true ⟨hcompleted, ?_, ?_⟩ (.inl htx)
    · rw [hrows.bonus_id]
      exact hbonus
    · have hadded := hfinal.added_eq
      rw [if_neg hrows.main_id, ← hrows.bonus_id] at hadded
      rw [hfinal.wallets, if_pos rfl, hadded]
      push_cast
      ring
  · -- it returns the bonus row, and the main row is left alone
    have hmainRow : s'.ledger.row main.transactionId = some main := by
      rw [hfinal.frame main.transactionId ?_ hrows.main_id]
      · exact hrows.main_row
      · rw [hrows.bonus_id]
        exact hrows.main_id
    constructor
    · rintro ⟨⟨t, ht, hstatus⟩, -⟩
      obtain rfl : main = t := Option.mem_unique hmainRow ht
      exact .inr hstatus
    · rintro (hmain | hstatus)
      · obtain rfl : tx = main := Option.mem_unique htx hmain
        exact absurd hrows.bonus_id hrows.main_id
      · refine ⟨⟨main, hmainRow, hstatus⟩, hcompleted, ?_⟩
        have hadded := hfinal.added_eq
        rw [if_pos hrows.bonus_id, add_zero] at hadded
        rw [hfinal.wallets, if_pos hrows.buyer.symm, hadded,
          uncredited_of_completed hrows.main_row hstatus]
        push_cast
        ring

/-! ### A sample order -/

def sampleMain : CoinTx where
  transactionId := "pay_A"
  userId := "u"
  coins := 100
  source := .paymentGateway
  paymentGatewayTransactionId := none
  paymentGatewayOrderId := some "A"
  status := .pending

def sampleBonus : CoinTx where
  transactionId := "pay_bonus_A"
  userId := "u"
  coins := 10
  source := .rechargeBonus
  paymentGatewayTransactionId := none
  paymentGatewayOrderId := some "A"
  status := .pending

def sampleOrder : Store where
  ledger := ⟨[sampleMain, sampleBonus], by decide⟩
  users := [⟨"u", "f", "user", none, none, 0⟩]
  events := []
  checkouts := []

theorem sampleOrder_rows : OrderRows "A" sampleMain sampleBonus sampleOrder.ledger where
  main_row := by decide
  bonus_row := by decide
  bonus_id := by decide
  main_id := by decide
  buyer := rfl
  main_matches := by decide
  bonus_matches := by decide
  only t ht _ := by simpa [sampleOrder] using ht

theorem creditsBoth_sample : ∃ r s',
    finalizePaymentAtomically 0 "A" "p" none sampleOrder = .ok (r, s') ∧
      CreditsBoth sampleMain sampleBonus sampleOrder s' := by
  have hok : finalizePaymentAtomically 0 "A" "p" none sampleOrder = .ok (_, _) := rfl
  exact ⟨_, _, hok, (creditsBoth_iff sampleOrder_rows hok).2 (.inl rfl)⟩

theorem not_creditsBoth_of_pending {t : CoinTx}
    (hrow : s'.ledger.row main.transactionId = some t) (ht : t.status = .pending) :
    ¬ CreditsBoth main bonus s s' := by
  rintro ⟨⟨t', ht', hcompleted⟩, -⟩
  obtain rfl : t = t' := Option.mem_unique hrow ht'
  simp [ht] at hcompleted

/-- The query returns the bonus row: the main row stays pending, and so it does when the call is
made again. -/
theorem main_row_left_pending : ∃ r s₁ r' s₂,
    finalizePaymentAtomically 1 "A" "p" none sampleOrder = .ok (r, s₁) ∧
      ¬ CreditsBoth sampleMain sampleBonus sampleOrder s₁ ∧
      finalizePaymentAtomically 1 "A" "p" none s₁ = .ok (r', s₂) ∧
      ¬ CreditsBoth sampleMain (sampleBonus.complete "A" "p") s₁ s₂ :=
  ⟨_, _, _, _, rfl, not_creditsBoth_of_pending (t := sampleMain) rfl rfl, rfl,
    not_creditsBoth_of_pending (t := sampleMain) rfl rfl⟩

end VibemeetBackend.Payment
