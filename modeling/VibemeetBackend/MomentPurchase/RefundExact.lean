import VibemeetBackend.MomentPurchase.Posted

/-!
# Refunds against the ledger
-/

namespace VibemeetBackend.MomentPurchases

open Ledger Mongo

/-- The refund that the last attempt stores was stored before by an aborted one, in the same
millisecond: the document in memory then has nothing to save. -/
def Restamped (last : ℤ) (aborted : List (ℤ × ℕ)) : Prop :=
  ∃ before attempt after, aborted = before ++ attempt :: after ∧ 6 ≤ attempt.2 ∧ attempt.1 = last ∧
    ∀ later ∈ after, 5 ≤ later.2 → later.1 = last

theorem restamped_snoc {last now : ℤ} {cut : ℕ} {done : List (ℤ × ℕ)} :
    Restamped last (done ++ [(now, cut)]) ↔
      (Restamped last done ∧ (5 ≤ cut → now = last)) ∨ (6 ≤ cut ∧ now = last) := by
  constructor
  · rintro ⟨before, attempt, after, heq, hcut, hnow, hafter⟩
    obtain rfl | ⟨after', final, rfl⟩ := after.eq_nil_or_concat
    · obtain ⟨-, hlast⟩ := List.append_inj' heq rfl
      obtain rfl := List.head_eq_of_cons_eq hlast
      exact .inr ⟨hcut, hnow⟩
    · rw [List.concat_eq_append, ← List.cons_append, ← List.append_assoc] at heq
      obtain ⟨rfl, hlast⟩ := List.append_inj' heq rfl
      obtain rfl := List.head_eq_of_cons_eq hlast
      refine .inl ⟨⟨before, attempt, after', rfl, hcut, hnow, ?_⟩, ?_⟩
      · intro later hmem
        exact hafter later (by simp [hmem])
      · exact hafter (now, cut) (by simp)
  · rintro (⟨⟨before, attempt, after, rfl, hcut, hnow, hafter⟩, hlast⟩ | ⟨hcut, hnow⟩)
    · refine ⟨before, attempt, after ++ [(now, cut)], by simp, hcut, hnow, ?_⟩
      intro later hmem
      obtain hmem | hmem := List.mem_append.1 hmem
      · exact hafter later hmem
      · obtain rfl := List.mem_singleton.1 hmem
        exact hlast
    · exact ⟨done, (now, cut), [], rfl, hcut, hnow, fun later hmem => nomatch hmem⟩

section refund

variable {g : Refund} {s s' : Store} {m m' : Memory} {coins₀ coins₁ n : ℕ} {last now : ℤ}
  {p : MomentPurchase} {done : List (ℤ × ℕ)}

/-- **The attempt that commits.** -/
theorem refund_committed (h : runSteps (g.body now m) m s = .ok (m', s')) :
    ((m.buyer.set (m.buyer.value + g.gross)).modified = true → 0 ≤ m.buyer.value + g.gross) ∧
    0 ≤ g.creatorShare ∧
    s'.coins = savedCoins
      (savedCoins s.coins g.ids.buyerId (m.buyer.set (m.buyer.value + g.gross)))
      g.ids.creatorUserId
      (m.creatorUser.set (max 0 (m.creatorUser.value - g.creatorShare))) ∧
    (∃ row₀ row₁ : CoinTransaction, s'.rows = s.rows ++ [row₀, row₁] ∧
      row₀.userId = g.ids.buyerId ∧ row₀.status = .completed ∧ row₀.signed = g.gross ∧
      row₁.userId = g.ids.creatorUserId ∧ row₁.status = .completed ∧
      row₁.signed = -g.creatorShare) ∧
    s'.purchases = (m.purchase.map fun d =>
      { d with refundedAt := d.refundedAt.set (some now) }).elim s.purchases
        fun d => (s.savePurchase d).purchases := by
  obtain ⟨s₁, h₁, h⟩ := runSteps_cons h
  obtain ⟨hbuyer, rfl⟩ := ok_of_saveCoins h₁
  obtain ⟨s₂, h₂, h⟩ := runSteps_cons h
  obtain ⟨-, rfl⟩ := ok_of_saveCoins h₂
  obtain ⟨s₃, h₃, h⟩ := runSteps_cons h
  obtain ⟨creators, rfl⟩ := ok_of_saveEarnings h₃
  obtain ⟨s₄, h₄, h⟩ := runSteps_cons h
  obtain ⟨-, rfl⟩ := ok_of_createRow h₄
  obtain ⟨s₅, h₅, h⟩ := runSteps_cons h
  obtain ⟨hshare, rfl⟩ := ok_of_createRow h₅
  obtain ⟨s₆, h₆, h⟩ := runSteps_cons h
  cases h₆
  cases h
  refine ⟨?_, hshare, ?_, ?_, ?_⟩
  · intro hmodified
    have hvalue : 0 ≤ (m.buyer.set (m.buyer.value + g.gross)).value := hbuyer hmodified
    rwa [DocField.set_value] at hvalue
  · obtain ⟨buyer, creatorUser, earnings, purchase⟩ := m
    cases purchase <;> rfl
  · refine ⟨⟨g.txnId, g.ids.buyerId, .credit, g.gross, "admin",
        "MOMENT REFUND " ++ g.ticketId ++ ": " ++ g.reason, .completed⟩,
      ⟨g.txnId ++ "_creator", g.ids.creatorUserId, .debit, g.creatorShare.toNat, "admin",
        "MOMENT REFUND clawback " ++ g.ticketId, .completed⟩, ?_, rfl, rfl, rfl, rfl, rfl, ?_⟩
    · obtain ⟨buyer, creatorUser, earnings, purchase⟩ := m
      cases purchase <;> exact List.append_assoc _ _ _
    · show -((g.creatorShare.toNat : ℕ) : ℤ) = -g.creatorShare
      rw [Int.toNat_of_nonneg hshare]
  · obtain ⟨buyer, creatorUser, earnings, purchase⟩ := m
    cases purchase <;> rfl

/-- What the wallets hold in memory after the buyer's was assigned `n` times. -/
structure RefundWallets (g : Refund) (coins₀ coins₁ n : ℕ) (m : Memory) : Prop where
  buyer : m.buyer.value = coins₀ + n * g.gross
  buyer_clean : g.gross = 0 → m.buyer.modified = false
  creator_nonneg : 0 ≤ m.creatorUser.value
  creator_le : m.creatorUser.value ≤ coins₁
  creator_clean : m.creatorUser.value = coins₁ → m.creatorUser.modified = false
  creator_unmoved : g.creatorShare = 0 → m.creatorUser.value = coins₁

theorem RefundWallets.buyerAssigned (h : RefundWallets g coins₀ coins₁ n m) :
    RefundWallets g coins₀ coins₁ (n + 1)
      ((saveBuyer g.ids fun coins => coins + g.gross).assign m) := by
  refine ⟨?_, ?_, h.creator_nonneg, h.creator_le, h.creator_clean, h.creator_unmoved⟩
  · show (m.buyer.set (m.buyer.value + g.gross)).value = _
    rw [DocField.set_value, h.buyer]
    push_cast
    ring
  · intro hgross
    show (m.buyer.set (m.buyer.value + g.gross)).modified = false
    rw [DocField.set_same (by rw [hgross]; simp)]
    exact h.buyer_clean hgross

theorem RefundWallets.buyerSaved (h : RefundWallets g coins₀ coins₁ n m) :
    RefundWallets g coins₀ coins₁ n { m with buyer := m.buyer.saved } :=
  ⟨h.buyer, fun _ => rfl, h.creator_nonneg, h.creator_le, h.creator_clean, h.creator_unmoved⟩

theorem RefundWallets.creatorAssigned (h : RefundWallets g coins₀ coins₁ n m)
    (hshare : 0 ≤ g.creatorShare) (earnings : DocField ℤ) :
    RefundWallets g coins₀ coins₁ n { m with
      creatorUser := m.creatorUser.set (max 0 (m.creatorUser.value - g.creatorShare))
      earnings } := by
  have hnonneg := h.creator_nonneg
  have hle := h.creator_le
  by_cases hsame : max 0 (m.creatorUser.value - g.creatorShare) = m.creatorUser.value
  · rw [DocField.set_same hsame]
    exact ⟨h.buyer, h.buyer_clean, hnonneg, hle, h.creator_clean, h.creator_unmoved⟩
  · -- a clawback only takes coins
    have hvalue := DocField.set_value m.creatorUser (max 0 (m.creatorUser.value - g.creatorShare))
    refine ⟨h.buyer, h.buyer_clean, ?_, ?_, ?_, ?_⟩
    · rw [hvalue]
      exact le_max_left _ _
    · rw [hvalue]
      omega
    · intro hclean
      rw [hvalue] at hclean
      omega
    · intro hzero
      exact absurd (by omega) hsame

theorem RefundWallets.creatorSaved (h : RefundWallets g coins₀ coins₁ n m) :
    RefundWallets g coins₀ coins₁ n { m with creatorUser := m.creatorUser.saved } :=
  ⟨h.buyer, h.buyer_clean, h.creator_nonneg, h.creator_le, fun _ => rfl, h.creator_unmoved⟩

theorem RefundWallets.congr (h : RefundWallets g coins₀ coins₁ n m) (earnings : DocField ℤ)
    (purchase : Option PurchaseDoc) :
    RefundWallets g coins₀ coins₁ n { m with earnings, purchase } :=
  ⟨h.buyer, h.buyer_clean, h.creator_nonneg, h.creator_le, h.creator_clean, h.creator_unmoved⟩

/-- What the documents hold in memory after aborted attempts. -/
structure RefundHeld (g : Refund) (coins₀ coins₁ : ℕ) (p : MomentPurchase) (last : ℤ)
    (done : List (ℤ × ℕ)) (m : Memory) : Prop where
  wallets : RefundWallets g coins₀ coins₁ done.length m
  purchase : ∃ f, m.purchase = some { PurchaseDoc.load p with refundedAt := f } ∧
    ((f.modified = false ∧ f.value = some last) ↔ Restamped last done)

theorem refundHeld_start (g : Refund) (hp : p.refundedAt = none) (earnings : DocField ℤ) :
    RefundHeld g coins₀ coins₁ p last []
      ⟨.load coins₀, .load coins₁, earnings, some (.load p)⟩ := by
  refine ⟨⟨?_, fun _ => rfl, Int.natCast_nonneg _, le_rfl, fun _ => rfl, fun _ => rfl⟩, _, rfl, ?_⟩
  · show (coins₀ : ℤ) = coins₀ + (0 : ℕ) * g.gross
    simp
  · constructor
    · rintro ⟨-, hvalue⟩
      have hnone : p.refundedAt = some last := hvalue
      simp [hp] at hnone
    · rintro ⟨before, attempt, after, hnil, -⟩
      cases before <;> cases hnil

/-- The steps between the buyer's and the purchase's. -/
def Refund.middle (g : Refund) : List AdminStep :=
  [saveCreatorUser g.ids fun coins => max 0 (coins - g.creatorShare), saveCreator g.ids,
    write fun s => s.createRow g.txnId g.ids.buyerId .credit g.gross "admin"
      ("MOMENT REFUND " ++ g.ticketId ++ ": " ++ g.reason),
    write fun s => s.createRow (g.txnId ++ "_creator") g.ids.creatorUserId .debit g.creatorShare
      "admin" ("MOMENT REFUND clawback " ++ g.ticketId)]

theorem middle_keeps (hshare : 0 ≤ g.creatorShare) (d : Option PurchaseDoc) :
    (∀ step ∈ g.middle, ∀ m, RefundWallets g coins₀ coins₁ n m ∧ m.purchase = d →
      RefundWallets g coins₀ coins₁ n (step.assign m) ∧ (step.assign m).purchase = d) ∧
    (∀ step ∈ g.middle, ∀ m, RefundWallets g coins₀ coins₁ n m ∧ m.purchase = d →
      RefundWallets g coins₀ coins₁ n (step.settle m) ∧ (step.settle m).purchase = d) := by
  simp only [Refund.middle, List.forall_mem_cons]
  refine ⟨⟨?_, ?_, ?_, ?_, ?_⟩, ⟨?_, ?_, ?_, ?_, ?_⟩⟩
  · exact fun m h => ⟨h.1.creatorAssigned hshare _, h.2⟩
  · exact fun m h => h
  · exact fun m h => h
  · exact fun m h => h
  · exact fun step hmem => nomatch hmem
  · exact fun m h => ⟨h.1.creatorSaved, h.2⟩
  · exact fun m h => ⟨h.1.congr _ _, h.2⟩
  · exact fun m h => h
  · exact fun m h => h
  · exact fun step hmem => nomatch hmem

theorem stamp_snoc {f : DocField (Option ℤ)} {cut : ℕ} (hcut : 5 ≤ cut)
    (hstamp : (f.modified = false ∧ f.value = some last) ↔ Restamped last done) :
    let f' := if cut = 5 then f.set (some now) else (f.set (some now)).saved
    (f'.modified = false ∧ f'.value = some last) ↔ Restamped last (done ++ [(now, cut)]) := by
  rw [restamped_snoc, ← hstamp]
  dsimp only
  by_cases hfive : cut = 5
  · rw [if_pos hfive, DocField.set_value]
    by_cases hsame : some now = f.value
    · rw [DocField.set_same hsame, ← hsame]
      grind
    · have hmodified : (f.set (some now)).modified = true := by
        simp [DocField.set, hsame]
      grind
  grind [DocField.saved_value, DocField.set_value, DocField.saved_modified]

/-- **One aborted attempt.** -/
theorem refundHeld_aborted (hshare : 0 ≤ g.creatorShare) {cut : ℕ}
    (hm : RefundHeld g coins₀ coins₁ p last done m)
    (h : abortSteps (g.body now m) cut m s = .ok m') :
    RefundHeld g coins₀ coins₁ p last (done ++ [(now, cut)]) m' := by
  have hlength : (done ++ [(now, cut)]).length = done.length + 1 := by
    rw [List.length_append]
    rfl
  obtain ⟨hwallets, f, hf, hstamp⟩ := hm
  have hassigned := hwallets.buyerAssigned
  have hstay : cut < 5 → ((f.modified = false ∧ f.value = some last) ↔
      Restamped last (done ++ [(now, cut)])) := by
    grind [restamped_snoc]
  cases cut with
  | zero =>
    cases h
    exact ⟨by rw [hlength]; exact hassigned, f, hf, hstay (by norm_num)⟩
  | succ cut =>
    obtain ⟨s₁, -, hrest⟩ := abortSteps_cons h
    have hsaved := hassigned.buyerSaved
    obtain ⟨hassign, hsettle⟩ := middle_keeps (g := g) (n := done.length + 1) hshare
      (some { PurchaseDoc.load p with refundedAt := f })
    obtain hearly | hlate := lt_or_ge cut g.middle.length
    · have hmiddle : abortSteps g.middle cut _ s₁ = .ok m' :=
        (abortSteps_lt hearly _ _).symm.trans hrest
      obtain ⟨hwallets', hpurchase'⟩ := abortSteps_keeps hassign hsettle ⟨hsaved, hf⟩ hmiddle
      have hcut : cut < 4 := hearly
      exact ⟨by rw [hlength]; exact hwallets', f, hpurchase', hstay (by omega)⟩
    · obtain ⟨m₁, ⟨hwallets₁, hpurchase₁⟩, rfl⟩ :=
        abortSteps_reached hassign hsettle hlate ⟨hsaved, hf⟩ hrest
      have hcut : 4 ≤ cut := hlate
      refine ⟨?_, _, ?_, stamp_snoc (by omega) hstamp⟩
      · rw [hlength]
        split <;> exact hwallets₁.congr _ _
      · have hmiddle : g.middle.length = 4 := rfl
        by_cases hfour : cut = g.middle.length
        · rw [if_pos hfour, if_pos (by omega : cut + 1 = 5)]
          show m₁.purchase.map _ = _
          rw [hpurchase₁]
          rfl
        · rw [if_neg hfour, if_neg (by omega : ¬cut + 1 = 5)]
          show (m₁.purchase.map _).map _ = _
          rw [hpurchase₁]
          rfl

def Refund.Moves (g : Refund) (aborted : List (ℤ × ℕ)) (creatorCoins : ℕ) : Prop :=
  g.gross = 0 ∨ (aborted = [] ∧
    if g.ids.buyerId = g.ids.creatorUserId then g.creatorShare = 0
    else g.creatorShare ≤ creatorCoins)

/-- **The wallets after the attempt that commits.** -/
theorem refund_wallets_iff (hcoins₀ : s.coins g.ids.buyerId = some coins₀)
    (hcoins₁ : s.coins g.ids.creatorUserId = some coins₁) (hwithin : g.creatorShare ≤ g.gross)
    (hm : RefundHeld g coins₀ coins₁ p last done m)
    (hstart : done = [] → m.buyer = .load coins₀ ∧ m.creatorUser = .load coins₁)
    (h : runSteps (g.body last m) m s = .ok (m', s')) :
    LedgerExact s s' ↔ g.Moves done coins₁ := by
  obtain ⟨hvalid, hshare, hcoins, ⟨row₀, row₁, hrows, huser₀, hdone₀, hsigned₀, huser₁, hdone₁,
    hsigned₁⟩, -⟩ := refund_committed h
  have hposted := posted_iff hcoins₀ hcoins₁ (fun hmod => by
    rw [DocField.set_value]
    exact hvalid hmod) (fun _ => by
    simp) hcoins hrows ⟨huser₀, hdone₀⟩ ⟨huser₁, hdone₁⟩
  rw [hposted, hsigned₀, hsigned₁]
  obtain ⟨hbuyer, hclean, hnonneg, hle, hcreatorClean, hunmoved⟩ := hm.wallets
  unfold Refund.Moves
  obtain hzero | hpos := Nat.eq_zero_or_pos g.gross
  · -- nothing is assigned another value
    have hnoShare : g.creatorShare = 0 := by omega
    have hbuyerWrite : ∀ stored,
        (m.buyer.set (m.buyer.value + g.gross)).write stored = stored := by
      intro stored
      rw [DocField.set_same (by rw [hzero]; simp)]
      exact DocField.write_clean (hclean hzero) stored
    have hcreatorWrite : ∀ stored,
        (m.creatorUser.set (max 0 (m.creatorUser.value - g.creatorShare))).write stored =
          stored := by
      intro stored
      rw [DocField.set_same (by omega)]
      exact DocField.write_clean (hcreatorClean (hunmoved hnoShare)) stored
    refine iff_of_true ?_ (.inl hzero)
    split
    · rw [hbuyerWrite, hcreatorWrite]
      omega
    · rw [hbuyerWrite, hcreatorWrite]
      omega
  have hbuyerWrite : (m.buyer.set (m.buyer.value + g.gross)).write (coins₀ : ℤ) =
      coins₀ + done.length * g.gross + g.gross := by
    rw [DocField.write_set (by omega), hbuyer]
  rw [hbuyerWrite]
  by_cases hdone : done = []
  · obtain ⟨-, hcreator⟩ := hstart hdone
    rw [hcreator, DocField.load_value, hdone]
    simp only [List.length_nil, Nat.cast_zero, zero_mul, add_zero, true_and]
    split
    · rename_i hsame
      obtain rfl : coins₁ = coins₀ := by
        rw [hsame] at hcoins₀
        exact Option.mem_unique hcoins₁ hcoins₀
      by_cases hequal : max 0 ((coins₁ : ℤ) - g.creatorShare) = coins₁
      · rw [DocField.set_same hequal, DocField.write_clean rfl]
        constructor <;> intro _ <;> omega
      · rw [DocField.write_set hequal]
        constructor <;> intro _ <;> omega
    · rw [DocField.write_load_set]
      constructor <;> intro _ <;> omega
  · -- the buyer was credited once more for each aborted attempt
    have hmany : (g.gross : ℤ) ≤ done.length * g.gross := by
      have hone : 1 ≤ done.length := List.length_pos_iff.2 hdone
      have hmul := Nat.mul_le_mul_right g.gross hone
      rw [one_mul] at hmul
      exact_mod_cast hmul
    refine iff_of_false ?_ ?_
    · split
      · rename_i hsame
        obtain rfl : coins₁ = coins₀ := by
          rw [hsame] at hcoins₀
          exact Option.mem_unique hcoins₁ hcoins₀
        by_cases hequal : max 0 (m.creatorUser.value - g.creatorShare) = m.creatorUser.value
        · rw [DocField.set_same hequal]
          unfold DocField.write
          split
          · rename_i hmodified
            have hmoved : m.creatorUser.value ≠ coins₁ := by
              intro hstill
              simp [hcreatorClean hstill] at hmodified
            omega
          · omega
        · rw [DocField.write_set hequal]
          omega
      · omega
    · rintro (hzero | ⟨hnil, -⟩)
      · omega
      · exact hdone hnil

def Store.creatorUserOf (s : Store) (momentId : String) : Option String :=
  (s.moments momentId).bind fun moment => (s.creators moment.creatorId).map (·.userId)

structure Store.SharesWithin (s : Store) (cfg : MomentsConfig) : Prop where
  config : cfg.creatorRevenueShare ≤ 1
  revenues : ∀ r ∈ s.revenues, ∀ p ∈ s.purchases, r.id = p.revenueRecordId →
    r.creatorShareCoins ≤ p.amountCoins

variable {cfg : MomentsConfig} {inp : RefundInput}

theorem Store.SharesWithin.creatorShareOf_le (h : s.SharesWithin cfg)
    (hfound : s.purchases.find? inp.names = some p) : s.creatorShareOf cfg p ≤ p.amountCoins := by
  unfold Store.creatorShareOf
  split
  · rename_i r hrevenue
    have hid : r.id = p.revenueRecordId := by simpa using List.find?_some hrevenue
    exact_mod_cast h.revenues r (List.mem_of_find?_eq_some hrevenue) p
      (List.mem_of_find?_eq_some hfound) hid
  · have hpart : p.amountCoins * cfg.creatorRevenueShare ≤ p.amountCoins :=
      mul_le_of_le_one_right (Nat.cast_nonneg _) h.config
    have hround := @toDouble_le _ (p.amountCoins : ℤ) (by exact_mod_cast hpart)
    exact_mod_cast (Int.floor_le _).trans hround

/-- When a refund that returns moves the wallets by its rows, and does nothing when it is run
again. -/
def RefundExact (cfg : MomentsConfig) (inp : RefundInput) (aborted : List (ℤ × ℕ)) (last : ℤ)
    (s : Store) : Prop :=
  inp.dryRun = true ∨ ∀ p, s.purchases.find? inp.names = some p → p.refundedAt.isSome ∨
    (¬ Restamped last aborted ∧
      (p.amountCoins = 0 ∨ (aborted = [] ∧
        ∀ creatorUser, s.creatorUserOf p.mediaId = some creatorUser →
          if p.userId = creatorUser then s.creatorShareOf cfg p = 0
          else ∀ coins, s.coins creatorUser = some coins → s.creatorShareOf cfg p ≤ coins)))

def Repeats (cfg : MomentsConfig) (inp : RefundInput) (s' : Store) : Prop :=
  ∀ uuid aborted last, ∃ r, refundMomentPurchase cfg inp uuid aborted last s' = .ok (r, s')

structure RefundOf (cfg : MomentsConfig) (inp : RefundInput) (uuid : String) (s : Store)
    (p : MomentPurchase) (g : Refund) (coins₀ coins₁ earnings : ℕ) : Prop where
  found : s.purchases.find? inp.names = some p
  fresh : p.refundedAt = none
  buyer : s.coins p.userId = some coins₀
  creator : s.coins g.ids.creatorUserId = some coins₁
  creatorUser : s.creatorUserOf p.mediaId = some g.ids.creatorUserId
  refund : g = inp.refund p g.ids.creatorId g.ids.creatorUserId (s.creatorShareOf cfg p) uuid

variable {aborted : List (ℤ × ℕ)} {r : RefundResult}

theorem ok_of_refund {uuid : String}
    (h : refundMomentPurchase cfg inp uuid aborted last s = .ok (r, s')) :
    ∃ p, s.purchases.find? inp.names = some p ∧ ((p.refundedAt.isSome = true ∧ s' = s) ∨
      ∃ g coins₀ coins₁ earnings, RefundOf cfg inp uuid s p g coins₀ coins₁ earnings ∧
        ((inp.dryRun = true ∧ s' = s) ∨ (inp.dryRun = false ∧ ∃ m',
          withTransaction g.body aborted last
            ⟨.load coins₀, .load coins₁, .load earnings, some (.load p)⟩ s = .ok (m', s')))) := by
  obtain ⟨p, hp, h⟩ := ok_of_bind h
  have hfound := ok_of_required hp
  refine ⟨p, hfound, ?_⟩
  by_cases hdone : p.refundedAt.isSome = true
  · rw [if_pos hdone] at h
    cases h
    exact .inl ⟨hdone, rfl⟩
  rw [if_neg hdone] at h
  obtain ⟨moment, hmoment, h⟩ := ok_of_bind h
  obtain ⟨coins₀, hcoins₀, h⟩ := ok_of_bind h
  obtain ⟨⟨creator, coins₁⟩, hcreator, h⟩ := ok_of_bind h
  obtain ⟨found, hfoundCreator, hrest⟩ := ok_of_bind hcreator
  obtain ⟨wallet, hwallet, hpair⟩ := ok_of_bind hrest
  obtain ⟨rfl, rfl⟩ := Prod.mk.inj (Except.ok.inj hpair)
  refine .inr ⟨inp.refund p moment.creatorId found.userId (s.creatorShareOf cfg p) uuid, coins₀,
    wallet, found.earningsCoins,
    ⟨hfound, ?_, ok_of_required hcoins₀, ok_of_required hwallet, ?_, rfl⟩, ?_⟩
  · simpa using hdone
  · unfold Store.creatorUserOf
    rw [ok_of_required hmoment]
    show (s.creators moment.creatorId).map _ = _
    rw [ok_of_required hfoundCreator]
    rfl
  · by_cases hdry : inp.dryRun = true
    · dsimp only at h
      rw [if_pos hdry] at h
      cases h
      exact .inl ⟨hdry, rfl⟩
    · dsimp only at h
      rw [if_neg hdry] at h
      obtain ⟨⟨m', t⟩, ht, h⟩ := ok_of_bind h
      cases h
      exact .inr ⟨Bool.eq_false_iff.2 hdry, m', ht⟩

theorem refund_done (hfound : s.purchases.find? inp.names = some p)
    (hdone : p.refundedAt.isSome = true) (uuid : String) (aborted : List (ℤ × ℕ)) (last : ℤ) :
    refundMomentPurchase cfg inp uuid aborted last s = .ok (⟨false, p.id⟩, s) := by
  unfold refundMomentPurchase
  rw [hfound]
  show (if p.refundedAt.isSome = true then _ else _) = _
  rw [if_pos hdone]
  rfl

theorem refund_dryRun (hdry : inp.dryRun = true) (uuid uuid' : String)
    (aborted aborted' : List (ℤ × ℕ)) (last last' : ℤ) (s : Store) :
    refundMomentPurchase cfg inp uuid aborted last s =
      refundMomentPurchase cfg inp uuid' aborted' last' s := by
  unfold refundMomentPurchase
  simp only [hdry, if_true]

theorem refund_rows {uuid : String} (hdry : inp.dryRun = false)
    (hfound : s.purchases.find? inp.names = some p) (hfresh : p.refundedAt = none)
    (h : refundMomentPurchase cfg inp uuid aborted last s = .ok (r, s')) :
    s'.rows.length = s.rows.length + 2 := by
  obtain ⟨q, hq, ⟨hdone, -⟩ | ⟨g, coins₀, coins₁, earnings, hof, ⟨hdry', -⟩ | ⟨-, m', htxn⟩⟩⟩ :=
    ok_of_refund h
  · obtain rfl := Option.mem_unique hfound hq
    simp [hfresh] at hdone
  · simp [hdry] at hdry'
  · obtain ⟨m₁, -, hrun⟩ := ok_of_withTransaction htxn
    obtain ⟨-, -, -, ⟨row₀, row₁, hrows, -⟩, -⟩ := refund_committed hrun
    rw [hrows, List.length_append]
    rfl

/-- **The purchase after the attempt that commits** is refunded, unless its stamp was not new. -/
theorem refund_repeats_iff (hdry : inp.dryRun = false)
    (hfound : s.purchases.find? inp.names = some p) (hfresh : p.refundedAt = none)
    (hm : RefundHeld g coins₀ coins₁ p last done m)
    (h : runSteps (g.body last m) m s = .ok (m', s')) :
    Repeats cfg inp s' ↔ ¬ Restamped last done := by
  obtain ⟨f, hf, hstamp⟩ := hm.purchase
  obtain ⟨-, -, -, -, hpurchases⟩ := refund_committed h
  generalize hstamped : (f.set (some last)).write none = stamped
  have hmap : s'.purchases = s.purchases.map fun q =>
      if q.id = p.id then { q with refundedAt := (f.set (some last)).write q.refundedAt }
      else q := by
    rw [hpurchases, hf]
    rfl
  have hfound' : s'.purchases.find? inp.names = some { p with refundedAt := stamped } := by
    have hnames : (inp.names ∘ fun q : MomentPurchase => if q.id = p.id then
        { q with refundedAt := (f.set (some last)).write q.refundedAt } else q) = inp.names := by
      funext q
      show inp.names (if q.id = p.id then _ else _) = _
      split <;> rfl
    rw [hmap, List.find?_map, hnames, hfound]
    show some (if p.id = p.id then _ else _) = _
    rw [if_pos rfl, hfresh, hstamped]
  rw [← hstamp]
  by_cases hvalue : some last = f.value
  · rw [DocField.set_same hvalue] at hstamped
    cases hmodified : f.modified with
    | false =>
      rw [DocField.write_clean hmodified] at hstamped
      subst hstamped
      refine iff_of_false ?_ (fun hnot => hnot ⟨rfl, hvalue.symm⟩)
      intro hrepeats
      obtain ⟨r, hr⟩ := hrepeats "" [] 0
      have hlength := refund_rows hdry hfound' rfl hr
      omega
    | true =>
      have hsome : stamped = some last := by
        rw [← hstamped, DocField.write, hmodified, if_pos rfl, ← hvalue]
      refine iff_of_true ?_ (fun hclean => nomatch hclean.1)
      intro uuid aborted last'
      exact ⟨_, refund_done hfound' (by rw [hsome]; rfl) uuid aborted last'⟩
  · rw [DocField.write_set hvalue] at hstamped
    refine iff_of_true ?_ (fun hclean => hvalue hclean.2.symm)
    intro uuid aborted last'
    exact ⟨_, refund_done hfound' (by rw [← hstamped]; rfl) uuid aborted last'⟩

/-- **A refund that returns.** -/
theorem refund_exact {uuid : String} (hshares : s.SharesWithin cfg)
    (h : refundMomentPurchase cfg inp uuid aborted last s = .ok (r, s')) :
    LedgerExact s s' ∧ Repeats cfg inp s' ↔ RefundExact cfg inp aborted last s := by
  obtain ⟨p, hfound, ⟨hdone, rfl⟩ | ⟨g, coins₀, coins₁, earnings, hof, ⟨hdry, rfl⟩ |
    ⟨hdry, m', htxn⟩⟩⟩ := ok_of_refund h
  · refine iff_of_true ⟨.refl _, ?_⟩ (.inr ?_)
    · intro uuid' aborted' last'
      exact ⟨_, refund_done hfound hdone uuid' aborted' last'⟩
    · intro q hq
      obtain rfl := Option.mem_unique hfound hq
      exact .inl hdone
  · refine iff_of_true ⟨.refl _, ?_⟩ (.inl hdry)
    intro uuid' aborted' last'
    exact ⟨r, (refund_dryRun hdry uuid' uuid aborted' aborted last' last _).trans h⟩
  · obtain ⟨m₁, haborted, hrun⟩ := ok_of_withTransaction htxn
    obtain ⟨-, hshare, -⟩ := refund_committed hrun
    have hgross : g.gross = p.amountCoins := by rw [hof.refund]; rfl
    have hcreatorShare : g.creatorShare = s.creatorShareOf cfg p := by rw [hof.refund]; rfl
    have hbuyerId : g.ids.buyerId = p.userId := by rw [hof.refund]; rfl
    have hm : RefundHeld g coins₀ coins₁ p last aborted m₁ :=
      aborted_invariant (P := RefundHeld g coins₀ coins₁ p last)
        (fun done i cut m m' hm hone => refundHeld_aborted hshare hm hone)
        (refundHeld_start g hof.fresh _) haborted
    have hstart : aborted = [] → m₁.buyer = .load coins₀ ∧ m₁.creatorUser = .load coins₁ := by
      rintro rfl
      cases haborted
      exact ⟨rfl, rfl⟩
    have hmoves := refund_wallets_iff (by rw [hbuyerId]; exact hof.buyer) hof.creator
      (by rw [hcreatorShare, hgross]; exact hshares.creatorShareOf_le hfound) hm hstart hrun
    rw [hmoves, refund_repeats_iff hdry hfound hof.fresh hm hrun]
    unfold Refund.Moves
    rw [hgross, hcreatorShare, hbuyerId]
    constructor
    · rintro ⟨hexact, hstamp⟩
      refine .inr ?_
      intro q hq
      obtain rfl := Option.mem_unique hfound hq
      refine .inr ⟨hstamp, hexact.imp_right ?_⟩
      rintro ⟨hnil, hshareLe⟩
      refine ⟨hnil, ?_⟩
      intro creatorUser huser
      obtain rfl := Option.some.inj (hof.creatorUser.symm.trans huser)
      split
      · rename_i hsame
        rwa [if_pos hsame] at hshareLe
      · rename_i hne
        rw [if_neg hne] at hshareLe
        intro coins hcoins
        obtain rfl := Option.some.inj (hof.creator.symm.trans hcoins)
        exact hshareLe
    · rintro (hdry' | hall)
      · simp [hdry] at hdry'
      · obtain hdone | ⟨hstamp, hexact⟩ := hall p hfound
        · simp [hof.fresh] at hdone
        · refine ⟨hexact.imp_right ?_, hstamp⟩
          rintro ⟨hnil, hshareLe⟩
          refine ⟨hnil, ?_⟩
          have hle := hshareLe _ hof.creatorUser
          split
          · rename_i hsame
            rwa [if_pos hsame] at hle
          · rename_i hne
            rw [if_neg hne] at hle
            exact hle _ hof.creator

end refund

end VibemeetBackend.MomentPurchases
