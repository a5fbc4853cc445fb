import VibemeetBackend.MomentPurchase.RefundExact

/-!
# Regrants against the ledger
-/

namespace VibemeetBackend.MomentPurchases

open Ledger Mongo

section regrant

variable {g : Regrant} {s s' : Store} {m m' : Memory} {coins₀ coins₁ n : ℕ} {refunded : Bool}
  {done : List (AttemptIds × ℕ)} {made : AttemptIds}

theorem walletSteps_committed (h : runSteps g.walletSteps m s = .ok (m', s')) :
    ((m.buyer.set (m.buyer.value - g.gross)).modified = true →
      0 ≤ (m.buyer.set (m.buyer.value - g.gross)).value) ∧
    ((m.creatorUser.set (m.creatorUser.value + g.creatorShare)).modified = true →
      0 ≤ (m.creatorUser.set (m.creatorUser.value + g.creatorShare)).value) ∧
    s'.coins = savedCoins
      (savedCoins s.coins g.ids.buyerId (m.buyer.set (m.buyer.value - g.gross)))
      g.ids.creatorUserId (m.creatorUser.set (m.creatorUser.value + g.creatorShare)) ∧
    s'.rows = s.rows := by
  obtain ⟨s₁, h₁, h⟩ := runSteps_cons h
  obtain ⟨hbuyer, rfl⟩ := ok_of_saveCoins h₁
  obtain ⟨s₂, h₂, h⟩ := runSteps_cons h
  obtain ⟨hcreator, rfl⟩ := ok_of_saveCoins h₂
  obtain ⟨s₃, h₃, h⟩ := runSteps_cons h
  obtain ⟨creators, rfl⟩ := ok_of_saveEarnings h₃
  cases h
  exact ⟨hbuyer, hcreator, rfl, rfl⟩

variable {revenueId purchaseId : String}

theorem ledgerSteps_committed
    (h : runSteps (g.ledgerSteps purchaseId revenueId) m s = .ok (m', s')) :
    0 ≤ g.creatorShare ∧ g.creatorShare ≤ g.gross ∧ s'.coins = s.coins ∧
    ∃ row₀ row₁ : CoinTransaction, s'.rows = s.rows ++ [row₀, row₁] ∧
      row₀.userId = g.ids.buyerId ∧ row₀.status = .completed ∧ row₀.signed = -g.gross ∧
      row₁.userId = g.ids.creatorUserId ∧ row₁.status = .completed ∧
      row₁.signed = g.creatorShare := by
  obtain ⟨s₁, h₁, h⟩ := runSteps_cons h
  obtain ⟨-, rfl⟩ := ok_of_createRow h₁
  obtain ⟨s₂, h₂, h⟩ := runSteps_cons h
  obtain ⟨hshare, rfl⟩ := ok_of_createRow h₂
  obtain ⟨s₃, h₃, h⟩ := runSteps_cons h
  obtain ⟨-, hwithin, revenues, rfl⟩ := ok_of_createRevenue h₃
  cases h
  refine ⟨hshare, hwithin, rfl,
    ⟨g.txnId, g.ids.buyerId, .debit, g.gross, "moment_purchase",
      "ADMIN REGRANT " ++ g.ticketId ++ ": " ++ g.reason, .completed⟩,
    ⟨g.txnId ++ "_creator", g.ids.creatorUserId, .credit, g.creatorShare.toNat, "moment_earnings",
      "ADMIN REGRANT earnings " ++ g.ticketId, .completed⟩, List.append_assoc _ _ _, rfl, rfl, rfl,
    rfl, rfl, ?_⟩
  exact Int.toNat_of_nonneg hshare

/-- A step after the rows moves no wallet and writes no row. -/
def Quiet (step : AdminStep) : Prop :=
  ∀ m s s', step.command m s = .ok s' → s'.coins = s.coins ∧ s'.rows = s.rows

theorem savePurchase_quiet (f : PurchaseDoc → PurchaseDoc) : Quiet (savePurchase f) := by
  intro m s s' h
  cases h
  cases hpurchase : m.purchase with
  | _ => exact ⟨rfl, rfl⟩

theorem createPurchase_quiet (p : MomentPurchase) : Quiet (write fun s => s.createPurchase p) := by
  intro m s s' h
  have hcreate : s.createPurchase p = .ok s' := h
  unfold Store.createPurchase at hcreate
  split at hcreate
  · cases hcreate
  · cases hcreate
    exact ⟨rfl, rfl⟩

def Regrant.Charged (g : Regrant) (coins₀ coins₁ : ℕ) (m : Memory) : Prop :=
  if g.ids.buyerId = g.ids.creatorUserId then
    (m.creatorUser.set (m.creatorUser.value + g.creatorShare)).write
        ((m.buyer.set (m.buyer.value - g.gross)).write coins₀) =
      coins₀ + -g.gross + g.creatorShare
  else (m.buyer.set (m.buyer.value - g.gross)).write coins₀ = coins₀ + -g.gross ∧
    (m.creatorUser.set (m.creatorUser.value + g.creatorShare)).write coins₁ =
      coins₁ + g.creatorShare

/-- **An attempt that charges and commits.** -/
theorem charged_exact_iff {step : AdminStep} (hquiet : Quiet step)
    (hcoins₀ : s.coins g.ids.buyerId = some coins₀)
    (hcoins₁ : s.coins g.ids.creatorUserId = some coins₁)
    (h : runSteps (g.walletSteps ++ g.ledgerSteps purchaseId revenueId ++ [step]) m s =
      .ok (m', s')) : LedgerExact s s' ↔ g.Charged coins₀ coins₁ m := by
  obtain ⟨m₂, s₂, hfront, hlast⟩ := runSteps_append h
  obtain ⟨m₁, s₁, hwallets, hledger⟩ := runSteps_append hfront
  obtain ⟨hvalid₀, hvalid₁, hcoins, hsame⟩ := walletSteps_committed hwallets
  obtain ⟨hshare, hwithin, hkept, row₀, row₁, hrows, huser₀, hdone₀, hsigned₀, huser₁, hdone₁,
    hsigned₁⟩ := ledgerSteps_committed hledger
  obtain ⟨s₃, h₃, hend⟩ := runSteps_cons hlast
  cases hend
  obtain ⟨hcoins₃, hrows₃⟩ := hquiet _ _ _ h₃
  rw [posted_iff hcoins₀ hcoins₁ hvalid₀ hvalid₁ (hcoins₃.trans (hkept.trans hcoins))
    (hrows₃.trans (hrows.trans (by rw [hsame]))) ⟨huser₀, hdone₀⟩ ⟨huser₁, hdone₁⟩, hsigned₀,
    hsigned₁]
  rfl

/-- **An attempt that commits without a charge.** -/
theorem uncharged_exact_iff {step : AdminStep} (hquiet : Quiet step)
    (hcoins₀ : s.coins g.ids.buyerId = some coins₀)
    (hcoins₁ : s.coins g.ids.creatorUserId = some coins₁)
    (h : runSteps (g.ledgerSteps purchaseId revenueId ++ [step]) m s = .ok (m', s')) :
    LedgerExact s s' ↔
      g.gross = 0 ∨ (g.ids.buyerId = g.ids.creatorUserId ∧ g.creatorShare = g.gross) := by
  obtain ⟨m₂, s₂, hledger, hlast⟩ := runSteps_append h
  obtain ⟨hshare, hwithin, hkept, row₀, row₁, hrows, huser₀, hdone₀, hsigned₀, huser₁, hdone₁,
    hsigned₁⟩ := ledgerSteps_committed hledger
  obtain ⟨s₃, h₃, hend⟩ := runSteps_cons hlast
  obtain ⟨-, rfl⟩ := Prod.mk.inj (Except.ok.inj hend)
  obtain ⟨hcoins₃, hrows₃⟩ := hquiet _ _ _ h₃
  have hunmoved : ∀ userId coins, savedCoins coins userId (.load 0) = coins := by
    intro userId coins
    funext id
    unfold savedCoins
    split
    · cases coins id <;> rfl
    · rfl
  have hsaved : s₃.coins = savedCoins (savedCoins s.coins g.ids.buyerId (.load 0))
      g.ids.creatorUserId (.load 0) := by
    rw [hunmoved, hunmoved]
    exact hcoins₃.trans hkept
  have hzero : (DocField.load (0 : ℤ)).modified = true → 0 ≤ (DocField.load (0 : ℤ)).value :=
    fun _ => le_rfl
  rw [posted_iff hcoins₀ hcoins₁ hzero hzero hsaved (hrows₃.trans hrows)
    ⟨huser₀, hdone₀⟩ ⟨huser₁, hdone₁⟩, hsigned₀, hsigned₁]
  have hclean : ∀ stored : ℤ, (DocField.load (0 : ℤ)).write stored = stored := fun _ => rfl
  simp only [hclean]
  split
  · rename_i hsame
    simp only [hsame, true_and]
    constructor <;> intro _ <;> omega
  · rename_i hne
    simp only [hne, false_and, or_false]
    constructor <;> intro _ <;> omega

def Charging (refunded : Bool) (done : List (AttemptIds × ℕ)) : Prop :=
  refunded = true ∧ ∀ attempt ∈ done, attempt.2 < 6

instance (refunded : Bool) (done : List (AttemptIds × ℕ)) : Decidable (Charging refunded done) :=
  inferInstanceAs (Decidable (_ ∧ _))

variable {cut : ℕ}

theorem charging_snoc :
    Charging refunded (done ++ [(made, cut)]) ↔ Charging refunded done ∧ cut < 6 := by
  unfold Charging
  simp only [List.mem_append, List.mem_singleton, or_imp, forall_and, forall_eq]
  exact and_assoc.symm

/-- What the wallets hold in memory after the buyer's was assigned `n` times. -/
structure RegrantWallets (g : Regrant) (coins₀ coins₁ n : ℕ) (m : Memory) : Prop where
  buyer : m.buyer.value = coins₀ - n * g.gross
  creator : coins₁ ≤ m.creatorUser.value

/-- A regrant of no amount assigns the wallets no other value. -/
def Untouched (g : Regrant) (m : Memory) : Prop :=
  g.gross = 0 → m.buyer.modified = false ∧ m.creatorUser.modified = false

theorem share_zero (hgross : g.gross = 0) : g.creatorShare = 0 := by
  unfold Regrant.creatorShare MomentsConfig.share
  rw [hgross, Nat.cast_zero, zero_mul, toDouble_zero, Int.floor_zero]

theorem untouched_keeps :
    (∀ step ∈ g.walletSteps, ∀ m, Untouched g m → Untouched g (step.assign m)) ∧
    (∀ step ∈ g.walletSteps, ∀ m, Untouched g m → Untouched g (step.settle m)) := by
  simp only [Regrant.walletSteps, List.forall_mem_cons]
  refine ⟨⟨?_, ?_, ?_, ?_⟩, ⟨?_, ?_, ?_, ?_⟩⟩
  · intro m hm hgross
    obtain ⟨hbuyer, hcreator⟩ := hm hgross
    refine ⟨?_, hcreator⟩
    show (m.buyer.set (m.buyer.value - g.gross)).modified = false
    rw [DocField.set_same (by rw [hgross]; simp)]
    exact hbuyer
  · intro m hm hgross
    obtain ⟨hbuyer, hcreator⟩ := hm hgross
    refine ⟨hbuyer, ?_⟩
    show (m.creatorUser.set (m.creatorUser.value + g.creatorShare)).modified = false
    rw [DocField.set_same (by rw [share_zero hgross, add_zero])]
    exact hcreator
  · exact fun m hm => hm
  · exact fun step hmem => nomatch hmem
  · exact fun m hm hgross => ⟨rfl, (hm hgross).2⟩
  · exact fun m hm hgross => ⟨(hm hgross).1, rfl⟩
  · exact fun m hm => hm
  · exact fun step hmem => nomatch hmem

def Idle (step : AdminStep) : Prop :=
  (∀ m, step.assign m = m) ∧ ∀ m, step.settle m = m

theorem ledgerSteps_idle (g : Regrant) (purchaseId revenueId : String) :
    ∀ step ∈ g.ledgerSteps purchaseId revenueId, Idle step := by
  simp only [Regrant.ledgerSteps, List.forall_mem_cons]
  exact ⟨⟨fun _ => rfl, fun _ => rfl⟩, ⟨fun _ => rfl, fun _ => rfl⟩, ⟨fun _ => rfl, fun _ => rfl⟩,
    fun step hmem => nomatch hmem⟩

/-- What the documents of an existing purchase hold in memory after aborted attempts. -/
structure RegrantHeld (g : Regrant) (refunded : Bool) (coins₀ coins₁ : ℕ)
    (done : List (AttemptIds × ℕ)) (m : Memory) : Prop where
  purchase : ∃ d, m.purchase = some d ∧
    (d.refundedAt.value.isSome = true ↔ Charging refunded done)
  wallets : Charging refunded done → RegrantWallets g coins₀ coins₁ done.length m
  untouched : Untouched g m

/-- The steps of a charge after the buyer's. -/
def Regrant.middle (g : Regrant) (purchaseId revenueId : String) : List AdminStep :=
  saveCreatorUser g.ids (fun coins => coins + g.creatorShare) :: saveCreator g.ids ::
    g.ledgerSteps purchaseId revenueId

theorem regrant_middle_keeps (coins₀ coins₁ n : ℕ) (purchaseId revenueId : String)
    (hshare : 0 ≤ g.creatorShare) (d : Option PurchaseDoc) :
    (∀ step ∈ g.middle purchaseId revenueId, ∀ m,
      (RegrantWallets g coins₀ coins₁ n m ∧ Untouched g m) ∧ m.purchase = d →
      (RegrantWallets g coins₀ coins₁ n (step.assign m) ∧ Untouched g (step.assign m)) ∧
        (step.assign m).purchase = d) ∧
    (∀ step ∈ g.middle purchaseId revenueId, ∀ m,
      (RegrantWallets g coins₀ coins₁ n m ∧ Untouched g m) ∧ m.purchase = d →
      (RegrantWallets g coins₀ coins₁ n (step.settle m) ∧ Untouched g (step.settle m)) ∧
        (step.settle m).purchase = d) := by
  obtain ⟨hassign, hsettle⟩ := untouched_keeps (g := g)
  have hmem : saveCreatorUser g.ids (fun coins => coins + g.creatorShare) ∈ g.walletSteps := by
    simp [Regrant.walletSteps]
  have hidle := ledgerSteps_idle g purchaseId revenueId
  simp only [Regrant.middle, List.forall_mem_cons]
  refine ⟨⟨?_, ?_, ?_⟩, ⟨?_, ?_, ?_⟩⟩
  · rintro m ⟨⟨hwallets, huntouched⟩, hd⟩
    refine ⟨⟨⟨hwallets.buyer, ?_⟩, hassign _ hmem m huntouched⟩, hd⟩
    show (coins₁ : ℤ) ≤ (m.creatorUser.set (m.creatorUser.value + g.creatorShare)).value
    rw [DocField.set_value]
    have := hwallets.creator
    omega
  · exact fun m h => h
  · intro step hstep m h
    rw [(hidle step hstep).1]
    exact h
  · rintro m ⟨⟨hwallets, huntouched⟩, hd⟩
    exact ⟨⟨⟨hwallets.buyer, hwallets.creator⟩, hsettle _ hmem m huntouched⟩, hd⟩
  · rintro m ⟨⟨hwallets, huntouched⟩, hd⟩
    exact ⟨⟨⟨hwallets.buyer, hwallets.creator⟩, huntouched⟩, hd⟩
  · intro step hstep m h
    rw [(hidle step hstep).2]
    exact h

theorem reopened_aborted {P : Memory → Prop} {front : List AdminStep} {debitTx : String}
    {creditTx : Option String} {d : PurchaseDoc}
    (hassign : ∀ st ∈ front, ∀ m, P m ∧ m.purchase = some d →
      P (st.assign m) ∧ (st.assign m).purchase = some d)
    (hsettle : ∀ st ∈ front, ∀ m, P m ∧ m.purchase = some d →
      P (st.settle m) ∧ (st.settle m).purchase = some d)
    (hpurchase : ∀ m purchase, P m → P { m with purchase }) (hcut : front.length ≤ cut)
    (hm : P m ∧ m.purchase = some d)
    (h : abortSteps (front ++ [savePurchase (g.reopen debitTx creditTx revenueId)]) cut m s =
      .ok m') : P m' ∧ ∃ d', m'.purchase = some d' ∧ d'.refundedAt.value = none := by
  obtain ⟨m₁, ⟨hm₁, hd₁⟩, rfl⟩ := abortSteps_reached hassign hsettle hcut hm h
  have hnone : (g.reopen debitTx creditTx revenueId d).refundedAt.value = none :=
    DocField.set_value _ _
  split
  · refine ⟨hpurchase _ _ hm₁, g.reopen debitTx creditTx revenueId d, ?_, hnone⟩
    show m₁.purchase.map _ = _
    rw [hd₁]
    rfl
  · refine ⟨hpurchase _ _ (hpurchase _ _ hm₁), (g.reopen debitTx creditTx revenueId d).saved, ?_,
      hnone⟩
    show (m₁.purchase.map _).map _ = _
    rw [hd₁]
    rfl

/-- **One aborted attempt.** -/
theorem regrantHeld_aborted (hledger : g.skipLedger = false) (hshare : 0 ≤ g.creatorShare)
    (hm : RegrantHeld g refunded coins₀ coins₁ done m)
    (h : abortSteps (g.body made m) cut m s = .ok m') :
    RegrantHeld g refunded coins₀ coins₁ (done ++ [(made, cut)]) m' := by
  obtain ⟨⟨d, hd, hcharging⟩, hwallets, huntouched⟩ := hm
  have hlength : (done ++ [(made, cut)]).length = done.length + 1 := by
    rw [List.length_append]
    rfl
  unfold Regrant.body at h
  rw [hd] at h
  dsimp only at h
  rw [hledger, if_neg (by simp)] at h
  by_cases hcharge : Charging refunded done
  · rw [if_pos (hcharging.2 hcharge)] at h
    have hbody : abortSteps (saveBuyer g.ids (fun coins => coins - g.gross) ::
        (g.middle d.id d.revenueRecordId.value ++
          [savePurchase (g.reopen made.debitTx (some made.creditTx) d.revenueRecordId.value)]))
        cut m s = .ok m' := h
    have hassigned : (RegrantWallets g coins₀ coins₁ (done.length + 1)
        ((saveBuyer g.ids fun coins => coins - g.gross).assign m) ∧
        Untouched g ((saveBuyer g.ids fun coins => coins - g.gross).assign m)) ∧
        ((saveBuyer g.ids fun coins => coins - g.gross).assign m).purchase = some d := by
      refine ⟨⟨⟨?_, (hwallets hcharge).creator⟩, ?_⟩, hd⟩
      · show (m.buyer.set (m.buyer.value - g.gross)).value = _
        rw [DocField.set_value, (hwallets hcharge).buyer]
        push_cast
        ring
      · exact untouched_keeps.1 _ List.mem_cons_self m huntouched
    cases cut with
    | zero =>
      cases hbody
      refine ⟨⟨d, hassigned.2, ?_⟩, ?_, hassigned.1.2⟩
      · simp [hcharging, charging_snoc]
      · intro _
        rw [hlength]
        exact hassigned.1.1
    | succ cut =>
      obtain ⟨s₁, -, hrest⟩ := abortSteps_cons hbody
      obtain ⟨hassign, hsettle⟩ := regrant_middle_keeps coins₀ coins₁ (done.length + 1) d.id
        d.revenueRecordId.value hshare (some d)
      have hsaved : (RegrantWallets g coins₀ coins₁ (done.length + 1)
          ((saveBuyer g.ids fun coins => coins - g.gross).settle
            ((saveBuyer g.ids fun coins => coins - g.gross).assign m)) ∧
          Untouched g ((saveBuyer g.ids fun coins => coins - g.gross).settle
            ((saveBuyer g.ids fun coins => coins - g.gross).assign m))) ∧
          ((saveBuyer g.ids fun coins => coins - g.gross).settle
            ((saveBuyer g.ids fun coins => coins - g.gross).assign m)).purchase = some d := by
        refine ⟨⟨⟨hassigned.1.1.buyer, hassigned.1.1.creator⟩, ?_⟩, hd⟩
        exact untouched_keeps.2 _ List.mem_cons_self _ hassigned.1.2
      have hmiddle : (g.middle d.id d.revenueRecordId.value).length = 5 := rfl
      obtain hearly | hlate := lt_or_ge cut (g.middle d.id d.revenueRecordId.value).length
      · rw [abortSteps_lt hearly] at hrest
        obtain ⟨⟨hwallets', huntouched'⟩, hd'⟩ := abortSteps_keeps hassign hsettle hsaved hrest
        refine ⟨⟨d, hd', ?_⟩, ?_, huntouched'⟩
        · rw [hcharging, charging_snoc]
          exact (and_iff_left (by omega)).symm
        · intro _
          rw [hlength]
          exact hwallets'
      · obtain ⟨⟨hwallets', huntouched'⟩, d', hd', hnone⟩ := reopened_aborted
          (P := fun m => RegrantWallets g coins₀ coins₁ (done.length + 1) m ∧ Untouched g m)
          hassign hsettle (fun m purchase hm => ⟨⟨hm.1.buyer, hm.1.creator⟩, hm.2⟩) hlate hsaved
          hrest
        have hstop : ¬Charging refunded (done ++ [(made, cut + 1)]) := by
          rw [charging_snoc]
          omega
        refine ⟨⟨d', hd', ?_⟩, fun hyes => absurd hyes hstop, huntouched'⟩
        rw [hnone]
        exact iff_of_false (by simp) hstop
  · -- nothing is charged any more
    rw [if_neg (fun hsome => hcharge (hcharging.1 hsome)), List.nil_append] at h
    have hstop : ¬Charging refunded (done ++ [(made, cut)]) := by
      rw [charging_snoc]
      exact fun hyes => hcharge hyes.1
    have hnoRefund : d.refundedAt.value = none := by
      cases hvalue : d.refundedAt.value <;> simp_all
    have hidle := ledgerSteps_idle g d.id d.revenueRecordId.value
    have hassign : ∀ st ∈ g.ledgerSteps d.id d.revenueRecordId.value, ∀ m,
        Untouched g m ∧ m.purchase = some d →
        Untouched g (st.assign m) ∧ (st.assign m).purchase = some d := by
      intro st hst m hm
      rw [(hidle st hst).1]
      exact hm
    have hsettle : ∀ st ∈ g.ledgerSteps d.id d.revenueRecordId.value, ∀ m,
        Untouched g m ∧ m.purchase = some d →
        Untouched g (st.settle m) ∧ (st.settle m).purchase = some d := by
      intro st hst m hm
      rw [(hidle st hst).2]
      exact hm
    obtain hearly | hlate := lt_or_ge cut (g.ledgerSteps d.id d.revenueRecordId.value).length
    · rw [abortSteps_lt hearly] at h
      obtain ⟨huntouched', hd'⟩ := abortSteps_keeps hassign hsettle ⟨huntouched, hd⟩ h
      refine ⟨⟨d, hd', ?_⟩, fun hyes => absurd hyes hstop, huntouched'⟩
      rw [hnoRefund]
      exact iff_of_false (by simp) hstop
    · obtain ⟨huntouched', d', hd', hnone⟩ := reopened_aborted (P := Untouched g) hassign hsettle
        (fun m purchase hm => hm) hlate ⟨huntouched, hd⟩ h
      refine ⟨⟨d', hd', ?_⟩, fun hyes => absurd hyes hstop, huntouched'⟩
      rw [hnone]
      exact iff_of_false (by simp) hstop

def Regrant.Moves (g : Regrant) (refunded : Bool) (done : List (AttemptIds × ℕ)) : Prop :=
  g.gross = 0 ∨
    if Charging refunded done then
      done = [] ∧ (g.ids.buyerId = g.ids.creatorUserId → g.creatorShare = 0)
    else g.ids.buyerId = g.ids.creatorUserId ∧ g.creatorShare = g.gross

theorem charge_nothing (hgross : g.gross = 0) (huntouched : Untouched g m) :
    g.Charged coins₀ coins₁ m := by
  obtain ⟨hbuyer, hcreator⟩ := huntouched hgross
  have hshare := share_zero hgross
  have hbuyerWrite : ∀ stored, (m.buyer.set (m.buyer.value - g.gross)).write stored = stored := by
    intro stored
    rw [DocField.set_same (by rw [hgross]; simp)]
    exact DocField.write_clean hbuyer stored
  have hcreatorWrite : ∀ stored,
      (m.creatorUser.set (m.creatorUser.value + g.creatorShare)).write stored = stored := by
    intro stored
    rw [DocField.set_same (by rw [hshare, add_zero])]
    exact DocField.write_clean hcreator stored
  unfold Regrant.Charged
  rw [hbuyerWrite, hcreatorWrite, hcreatorWrite]
  split <;> omega

/-- **A charge that commits** after aborted ones. -/
theorem charge_iff (hcoins₀ : s.coins g.ids.buyerId = some coins₀)
    (hcoins₁ : s.coins g.ids.creatorUserId = some coins₁)
    (hwallets : RegrantWallets g coins₀ coins₁ n m) (huntouched : Untouched g m)
    (hstart : n = 0 → m.buyer = .load coins₀ ∧ m.creatorUser = .load coins₁) :
    g.Charged coins₀ coins₁ m ↔
      g.gross = 0 ∨ (n = 0 ∧ (g.ids.buyerId = g.ids.creatorUserId → g.creatorShare = 0)) := by
  obtain hzero | hpos := Nat.eq_zero_or_pos g.gross
  · exact iff_of_true (charge_nothing hzero huntouched) (.inl hzero)
  have hbuyer : (m.buyer.set (m.buyer.value - g.gross)).write (coins₀ : ℤ) =
      coins₀ - n * g.gross - g.gross := by
    rw [DocField.write_set (by omega), hwallets.buyer]
  have hequal : g.ids.buyerId = g.ids.creatorUserId → coins₁ = coins₀ := by
    intro hsame
    rw [hsame] at hcoins₀
    exact Option.mem_unique hcoins₁ hcoins₀
  unfold Regrant.Charged
  rw [hbuyer]
  obtain rfl | hmany := Nat.eq_zero_or_pos n
  · obtain ⟨-, hcreator⟩ := hstart rfl
    rw [hcreator, DocField.load_value]
    simp only [Nat.cast_zero, zero_mul, sub_zero, true_and]
    split
    · rename_i hsame
      rw [hequal hsame, imp_iff_right hsame]
      by_cases hnone : g.creatorShare = 0
      · rw [DocField.set_same (by simp [hnone]), DocField.write_clean rfl]
        constructor <;> intro _ <;> omega
      · rw [DocField.write_set (by rw [DocField.load_value]; omega)]
        constructor <;> intro _ <;> omega
    grind [DocField.write_load_set]
  · -- the buyer was charged once more for each aborted attempt
    have hcharged : (g.gross : ℤ) ≤ n * g.gross := by
      have hmul := Nat.mul_le_mul_right g.gross (Nat.one_le_of_lt hmany)
      rw [one_mul] at hmul
      exact_mod_cast hmul
    have hcreator := hwallets.creator
    refine iff_of_false ?_ (by omega)
    split
    · rename_i hsame
      rw [hequal hsame] at hcreator
      by_cases hnone : g.creatorShare = 0
      · rw [DocField.set_same (by rw [hnone, add_zero])]
        unfold DocField.write
        split <;> omega
      · rw [DocField.write_set (by omega)]
        omega
    · omega

theorem share_nonneg (hledger : g.skipLedger = false)
    (h : runSteps (g.body made m) m s = .ok (m', s')) : 0 ≤ g.creatorShare := by
  unfold Regrant.body at h
  cases hpurchase : m.purchase with
  | none =>
    rw [hpurchase] at h
    rw [hledger, if_neg (by simp)] at h
    obtain ⟨m₂, s₂, hfront, -⟩ := runSteps_append h
    obtain ⟨m₁, s₁, -, hrows⟩ := runSteps_append hfront
    exact (ledgerSteps_committed hrows).1
  | some d =>
    rw [hpurchase] at h
    rw [hledger, if_neg (by simp)] at h
    obtain ⟨m₂, s₂, hfront, -⟩ := runSteps_append h
    obtain ⟨m₁, s₁, -, hrows⟩ := runSteps_append hfront
    exact (ledgerSteps_committed hrows).1

/-- **The attempt that commits** for an existing purchase. -/
theorem regrant_wallets_iff (hledger : g.skipLedger = false)
    (hcoins₀ : s.coins g.ids.buyerId = some coins₀)
    (hcoins₁ : s.coins g.ids.creatorUserId = some coins₁)
    (hm : RegrantHeld g refunded coins₀ coins₁ done m)
    (hstart : done = [] → m.buyer = .load coins₀ ∧ m.creatorUser = .load coins₁)
    (h : runSteps (g.body made m) m s = .ok (m', s')) :
    LedgerExact s s' ↔ g.Moves refunded done := by
  obtain ⟨⟨d, hd, hcharging⟩, hwallets, huntouched⟩ := hm
  unfold Regrant.body at h
  rw [hd] at h
  dsimp only at h
  rw [hledger, if_neg (by simp)] at h
  unfold Regrant.Moves
  by_cases hcharge : Charging refunded done
  · rw [if_pos (hcharging.2 hcharge)] at h
    rw [charged_exact_iff (savePurchase_quiet _) hcoins₀ hcoins₁ h, if_pos hcharge]
    rw [← List.length_eq_zero_iff]
    exact charge_iff hcoins₀ hcoins₁ (hwallets hcharge) huntouched
      (fun hnil => hstart (List.eq_nil_of_length_eq_zero hnil))
  · rw [if_neg (fun hsome => hcharge (hcharging.1 hsome)), List.nil_append] at h
    rw [uncharged_exact_iff (savePurchase_quiet _) hcoins₀ hcoins₁ h, if_neg hcharge]

theorem granted_exact (hledger : g.skipLedger = false) (hgross : g.gross = 0)
    (hcoins₀ : s.coins g.ids.buyerId = some coins₀)
    (hcoins₁ : s.coins g.ids.creatorUserId = some coins₁)
    (hm : Untouched g m ∧ m.purchase = none)
    (h : runSteps (g.body made m) m s = .ok (m', s')) : LedgerExact s s' := by
  unfold Regrant.body at h
  rw [hm.2] at h
  rw [hledger, if_neg (by simp)] at h
  rw [charged_exact_iff (createPurchase_quiet _) hcoins₀ hcoins₁ h]
  exact charge_nothing hgross hm.1

theorem granted_aborted (hledger : g.skipLedger = false) (hm : Untouched g m ∧ m.purchase = none)
    (h : abortSteps (g.body made m) cut m s = .ok m') : Untouched g m' ∧ m'.purchase = none := by
  unfold Regrant.body at h
  rw [hm.2] at h
  rw [hledger, if_neg (by simp)] at h
  obtain ⟨hassign, hsettle⟩ := untouched_keeps (g := g)
  have hidle := ledgerSteps_idle g made.purchase made.revenue
  have hstay : ∀ step ∈ g.walletSteps, ∀ m,
      (step.assign m).purchase = m.purchase ∧ (step.settle m).purchase = m.purchase := by
    simp only [Regrant.walletSteps, List.forall_mem_cons]
    exact ⟨fun m => ⟨rfl, rfl⟩, fun m => ⟨rfl, rfl⟩, fun m => ⟨rfl, rfl⟩,
      fun step hmem => nomatch hmem⟩
  apply abortSteps_keeps (P := fun m => Untouched g m ∧ m.purchase = none) _ _ hm h
  · intro step hstep m hm
    simp only [List.mem_append, List.mem_singleton] at hstep
    obtain (hwallet | hrow) | rfl := hstep
    · exact ⟨hassign step hwallet m hm.1, (hstay step hwallet m).1.trans hm.2⟩
    · rw [(hidle step hrow).1]
      exact hm
    · exact hm
  · intro step hstep m hm
    simp only [List.mem_append, List.mem_singleton] at hstep
    obtain (hwallet | hrow) | rfl := hstep
    · exact ⟨hsettle step hwallet m hm.1, (hstay step hwallet m).2.trans hm.2⟩
    · rw [(hidle step hrow).2]
      exact hm
    · exact hm

theorem skipped_exact (hledger : g.skipLedger = true)
    (h : runSteps (g.body made m) m s = .ok (m', s')) : LedgerExact s s' := by
  unfold Regrant.body at h
  cases hpurchase : m.purchase with
  | none =>
    rw [hpurchase] at h
    rw [hledger, if_pos rfl] at h
    obtain ⟨s₁, h₁, -⟩ := runSteps_cons h
    cases h₁
  | some d =>
    rw [hpurchase] at h
    rw [hledger, if_pos rfl] at h
    obtain ⟨s₁, h₁, hrest⟩ := runSteps_cons h
    cases h₁
    obtain ⟨s₂, h₂, hend⟩ := runSteps_cons hrest
    cases hend
    obtain ⟨hcoins, hrows⟩ := savePurchase_quiet _ _ _ _ h₂
    refine ⟨[], by rw [hrows, List.append_nil], ?_⟩
    intro userId coins huser
    exact ⟨coins, by rw [hcoins]; exact huser, (add_zero _).symm⟩

def RegrantExact (cfg : MomentsConfig) (inp : RegrantInput) (aborted : List (AttemptIds × ℕ))
    (s : Store) : Prop :=
  inp.dryRun = true ∨ inp.skipLedger = true ∨ ∀ p, s.purchaseOf inp.userId inp.momentId = some p →
    (p.refundedAt = none ∧ inp.forceRepair = false) ∨ p.amountCoins = 0 ∨
      ∀ creatorUser, s.creatorUserOf inp.momentId = some creatorUser →
        if Charging p.refundedAt.isSome aborted then
          aborted = [] ∧ (inp.userId = creatorUser → cfg.share p.amountCoins = 0)
        else inp.userId = creatorUser ∧ cfg.share p.amountCoins = p.amountCoins

variable {aborted : List (AttemptIds × ℕ)}

theorem ok_of_regrant {cfg : MomentsConfig} {inp : RegrantInput} {uuid : String}
    {last : AttemptIds} {r : RegrantResult}
    (h : regrantMomentEntitlement cfg inp uuid aborted last s = .ok (r, s')) :
    (s' = s ∧ ((∃ p, s.purchaseOf inp.userId inp.momentId = some p ∧ p.refundedAt = none ∧
        inp.forceRepair = false) ∨ inp.dryRun = true)) ∨
      (inp.dryRun = false ∧
        (inp.skipLedger = false → inp.forceRepair = false →
          ∀ p, s.purchaseOf inp.userId inp.momentId = some p → p.refundedAt ≠ none) ∧
        ∃ creatorId creatorUserId coins₀ coins₁ earnings m',
          s.creatorUserOf inp.momentId = some creatorUserId ∧
          s.coins inp.userId = some coins₀ ∧ s.coins creatorUserId = some coins₁ ∧
          withTransaction
            (inp.regrant cfg (s.purchaseOf inp.userId inp.momentId) creatorId creatorUserId
              uuid).body
            aborted last
            ⟨.load (coins₀ : ℕ), .load (coins₁ : ℕ), .load (earnings : ℕ),
              (s.purchaseOf inp.userId inp.momentId).map .load⟩ s = .ok (m', s')) := by
  unfold regrantMomentEntitlement at h
  dsimp only at h
  generalize s.purchaseOf inp.userId inp.momentId = existing at h ⊢
  split at h
  · rename_i hdone
    cases h
    refine .inl ⟨rfl, .inl ?_⟩
    cases existing <;> simp_all
  · rename_i hopen
    obtain ⟨moment, hmoment, h⟩ := ok_of_bind h
    obtain ⟨coins₀, hcoins₀, h⟩ := ok_of_bind h
    obtain ⟨⟨creator, coins₁⟩, hcreator, h⟩ := ok_of_bind h
    obtain ⟨found, hfoundCreator, hrest⟩ := ok_of_bind hcreator
    obtain ⟨wallet, hwallet, hpair⟩ := ok_of_bind hrest
    obtain ⟨rfl, rfl⟩ := Prod.mk.inj (Except.ok.inj hpair)
    by_cases hdry : inp.dryRun = true
    · rw [if_pos hdry] at h
      cases h
      exact .inl ⟨rfl, .inr hdry⟩
    · rw [if_neg hdry] at h
      obtain ⟨⟨m', t⟩, ht, h⟩ := ok_of_bind h
      cases h
      have hfound := ok_of_required hmoment
      have hstored : s.moments inp.momentId = some moment := (Option.filter_eq_some_iff.1 hfound).1
      refine .inr ⟨Bool.eq_false_iff.2 hdry, ?_, moment.creatorId, found.userId, coins₀, wallet,
        found.earningsCoins, m', ?_, ok_of_required hcoins₀, ok_of_required hwallet, ht⟩
      · rintro hledger hforce p rfl hfresh
        simp [hledger, hforce, hfresh] at hopen
      · unfold Store.creatorUserOf
        rw [hstored]
        show (s.creators moment.creatorId).map _ = _
        rw [ok_of_required hfoundCreator]
        rfl

/-- **A regrant that returns.** -/
theorem regrant_exact {cfg : MomentsConfig} {inp : RegrantInput} {uuid : String}
    {last : AttemptIds} {r : RegrantResult}
    (h : regrantMomentEntitlement cfg inp uuid aborted last s = .ok (r, s')) :
    LedgerExact s s' ↔ RegrantExact cfg inp aborted s := by
  obtain ⟨rfl, ⟨p, hp, hfresh, hforce⟩ | hdry⟩ | ⟨hdry, hopen, creatorId, creatorUserId, coins₀,
    coins₁, earnings, m', hcreator, hcoins₀, hcoins₁, htxn⟩ := ok_of_regrant h
  · refine iff_of_true (.refl _) (.inr (.inr ?_))
    intro q hq
    obtain rfl := Option.mem_unique hp hq
    exact .inl ⟨hfresh, hforce⟩
  · exact iff_of_true (.refl _) (.inl hdry)
  obtain ⟨m₁, haborted, hrun⟩ := ok_of_withTransaction htxn
  cases hledger : inp.skipLedger with
  | true => exact iff_of_true (skipped_exact hledger hrun) (.inr (.inl hledger))
  | false =>
    unfold RegrantExact
    cases hexisting : s.purchaseOf inp.userId inp.momentId with
    | none =>
      rw [hexisting] at haborted hrun
      refine iff_of_true ?_ (.inr (.inr fun p hp => nomatch hp))
      have hm := aborted_invariant
        (P := fun _ m => Untouched (inp.regrant cfg none creatorId creatorUserId uuid) m ∧
          m.purchase = none)
        (fun done i cut m m' hm hone => granted_aborted hledger hm hone)
        ⟨fun _ => ⟨rfl, rfl⟩, rfl⟩ haborted
      exact granted_exact hledger rfl hcoins₀ hcoins₁ hm hrun
    | some p =>
      rw [hexisting] at haborted hrun
      have hshare := share_nonneg hledger hrun
      have hheld : RegrantHeld (inp.regrant cfg (some p) creatorId creatorUserId uuid)
          p.refundedAt.isSome coins₀ coins₁ aborted m₁ := by
        apply aborted_invariant
          (P := RegrantHeld (inp.regrant cfg (some p) creatorId creatorUserId uuid)
            p.refundedAt.isSome coins₀ coins₁)
          (fun done i cut m m' hm hone => regrantHeld_aborted hledger hshare hm hone)
          _ haborted
        refine ⟨⟨.load p, rfl, ?_⟩, ?_, fun _ => ⟨rfl, rfl⟩⟩
        · exact (and_iff_left fun attempt hmem => nomatch hmem).symm
        · intro _
          refine ⟨?_, le_rfl⟩
          show (coins₀ : ℤ) = coins₀ - (0 : ℕ) * _
          simp
      have hstart : aborted = [] → m₁.buyer = .load coins₀ ∧ m₁.creatorUser = .load coins₁ := by
        rintro rfl
        cases haborted
        exact ⟨rfl, rfl⟩
      rw [regrant_wallets_iff hledger hcoins₀ hcoins₁ hheld hstart hrun]
      rw [hdry, hledger]
      constructor
      · intro hmoves
        refine .inr (.inr ?_)
        intro q hq
        cases hq
        refine .inr (hmoves.imp_right ?_)
        intro hcase creatorUser huser
        obtain rfl := Option.mem_unique hcreator huser
        exact hcase
      · rintro (hno | hno | hall)
        · cases hno
        · cases hno
        · obtain ⟨hfresh, hforce⟩ | hmoves := hall p rfl
          · exact absurd hfresh (hopen hledger hforce p hexisting)
          · exact hmoves.imp_right fun hcase => hcase _ hcreator

end regrant

/-- **Regrants and refunds against the ledger.**  A regrant or refund that returns moves each wallet
by the rows it creates, and the same refund again does nothing, exactly when no aborted attempt left
its assignments in memory, no clawback was clamped, and no rows were written without a charge. -/
theorem regrant_refund_exact_iff (cfg : MomentsConfig) (uuid : String) (s s' : Store)
    (hshares : s.SharesWithin cfg) :
    (∀ inp aborted last r,
      regrantMomentEntitlement cfg inp uuid aborted last s = .ok (r, s') →
        (LedgerExact s s' ↔ RegrantExact cfg inp aborted s)) ∧
    ∀ inp aborted last r, refundMomentPurchase cfg inp uuid aborted last s = .ok (r, s') →
      (LedgerExact s s' ∧ Repeats cfg inp s' ↔ RefundExact cfg inp aborted last s) := by
  constructor
  · intro inp aborted last r h
    exact regrant_exact h
  · intro inp aborted last r h
    exact refund_exact hshares h

/-- A purchase of ten coins, half of them the creator's, who holds some coins. -/
def refundSample (creatorCoins : ℕ) : Store where
  purchases :=
    [⟨"purchase", "buyer", "moment", 10, "txn", "debit", some "credit", 1, "revenue", none⟩]
  revenues := [⟨"revenue", "purchase", "moment", "creator", "buyer", 10, 5, 5⟩]
  moments := fun id => if id = "moment" then some ⟨"creator", false⟩ else none
  creators := fun id => if id = "creator" then some ⟨"owner", creatorCoins⟩ else none
  coins := fun id =>
    if id = "buyer" then some 0 else if id = "owner" then some creatorCoins else none
  rows := []

theorem refundSample_sharesWithin (creatorCoins : ℕ) (entitlementVersion : ℕ) :
    (refundSample creatorCoins).SharesWithin ⟨1 / 2, entitlementVersion⟩ := by
  refine ⟨by norm_num, ?_⟩
  intro r hr p hp _
  obtain rfl := List.mem_singleton.1 hr
  obtain rfl := List.mem_singleton.1 hp
  decide

theorem regrant_refund_exact_sample :
    ∃ r s', refundMomentPurchase ⟨1 / 2, 1⟩ ⟨some "purchase", none, none, "reason", "ticket", false⟩
        "uuid" [] 7 (refundSample 8) = .ok (r, s') ∧
      LedgerExact (refundSample 8) s' ∧
      Repeats ⟨1 / 2, 1⟩ ⟨some "purchase", none, none, "reason", "ticket", false⟩ s' := by
  refine ⟨_, _, rfl, ?_⟩
  apply ((regrant_refund_exact_iff ⟨1 / 2, 1⟩ "uuid" (refundSample 8) _
    (refundSample_sharesWithin 8 1)).2 _ [] 7 _ rfl).2
  refine .inr ?_
  intro p hp
  cases hp
  refine .inr ⟨?_, .inr ⟨rfl, ?_⟩⟩
  · rintro ⟨before, attempt, after, hnil, -⟩
    cases before <;> cases hnil
  · intro creatorUser huser
    obtain rfl : "owner" = creatorUser := Option.some.inj huser
    rw [if_neg (by decide)]
    intro coins hcoins
    obtain rfl : 8 = coins := Option.some.inj hcoins
    decide

/-- A creator who holds three coins is debited five in the ledger; a buyer whose refund was aborted
once is credited twice. -/
theorem refund_clamped_not_exact :
    (∃ r s', refundMomentPurchase ⟨1 / 2, 1⟩
        ⟨some "purchase", none, none, "reason", "ticket", false⟩ "uuid" [] 7 (refundSample 3) =
          .ok (r, s') ∧ ¬LedgerExact (refundSample 3) s') ∧
    ∃ r s', refundMomentPurchase ⟨1 / 2, 1⟩ ⟨some "purchase", none, none, "reason", "ticket", false⟩
        "uuid" [(6, 6)] 7 (refundSample 8) = .ok (r, s') ∧ ¬LedgerExact (refundSample 8) s' := by
  constructor
  · refine ⟨_, _, rfl, ?_⟩
    rintro ⟨created, hcreated, hwallets⟩
    obtain rfl := (List.nil_append created).symm.trans hcreated.symm
    obtain ⟨coins', hcoins', heq⟩ := hwallets "owner" 3 rfl
    obtain rfl : 0 = coins' := Option.some.inj hcoins'
    revert heq
    decide
  · refine ⟨_, _, rfl, ?_⟩
    rintro ⟨created, hcreated, hwallets⟩
    obtain rfl := (List.nil_append created).symm.trans hcreated.symm
    obtain ⟨coins', hcoins', heq⟩ := hwallets "buyer" 0 rfl
    obtain rfl : 20 = coins' := Option.some.inj hcoins'
    revert heq
    decide

end VibemeetBackend.MomentPurchases
