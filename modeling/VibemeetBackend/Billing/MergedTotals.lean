import VibemeetBackend.Billing.Recovery

/-!
# The totals that a settlement commits

From the session that `settleCall` reads to the documents that its transaction commits
(`billing-settlement.service.ts`, `billing-settlement-totals.service.ts`,
`creator-earnings-split.ts`): the totals of the ledger, the merge with the authoritative totals, and
the split of what is charged.
-/

namespace VibemeetBackend.Billing

variable {s : CallSession} {inp : SettleInput} {totals : AuthoritativeTotals}

/-! ### Sessions -/

def CallSession.introDeducted (s : CallSession) : ℤ := max 0 (s.totalIntroDeductedMicros.getD 0)

def CallSession.withLedger (s : CallSession) (ledger : Option LedgerSum) : CallSession :=
  match ledger with
  | none => s
  | some sums =>
    if sums.tickCount = 0 then s
    else
      { s with
        totalDeductedMicros := sums.userDebitMicros
        totalEarnedMicros := sums.creatorCreditMicros
        totalWalletDeductedMicros := some (max 0 (sums.userDebitMicros - s.introDeducted)) }

/-- What `settleCall` computes before its first attempt. -/
def settleFigures (s : CallSession) (ledger : Option LedgerSum) (totals : AuthoritativeTotals)
    (earningsRaw : ℤ) : SettleInput := settleInputOf (s.withLedger ledger) totals earningsRaw

def mergedDeducted (s : CallSession) (ledger : Option LedgerSum) (totals : AuthoritativeTotals) : ℤ :=
  (applyAuthoritativeTotalsToSession (s.withLedger ledger) totals).totalDeductedMicros

theorem merged_eq_max (s : CallSession) (hsource : totals.source ≠ .none) :
    (applyAuthoritativeTotalsToSession s totals).totalDeductedMicros =
      max s.totalDeductedMicros totals.totalDeductedMicros := by
  grind [applyAuthoritativeTotalsToSession]

/-! ### The shares of the creator -/

/-- `wallet / debit`, rounded as every quotient is; all of it is the wallet's when nothing is debited. -/
def walletRatio (intro wallet : ℤ) : ℚ :=
  if max 0 intro + max 0 wallet = 0 then 1
  else toDouble ((max 0 wallet : ℤ) / (max 0 intro + max 0 wallet : ℤ))

theorem walletRatio_mem (intro wallet : ℤ) : 0 ≤ walletRatio intro wallet ∧ walletRatio intro wallet ≤ 1 := by
  unfold walletRatio
  split
  · exact ⟨zero_le_one, le_rfl⟩
  · rename_i h
    have hi : (0 : ℤ) ≤ max 0 intro := le_max_left _ _
    have hw : (0 : ℤ) ≤ max 0 wallet := le_max_left _ _
    have hpos : (0 : ℚ) < (max 0 intro + max 0 wallet : ℤ) := by
      exact_mod_cast lt_of_le_of_ne (add_nonneg hi hw) (Ne.symm h)
    rw [← Int.cast_one]
    refine toDouble_mem ⟨div_nonneg (by exact_mod_cast hw) hpos.le, ?_⟩
    rw [Int.cast_one, div_le_one hpos]
    exact_mod_cast le_add_of_nonneg_left hi

def shareOf (total : ℕ) (ratio : ℚ) : ℤ := mathRound (toDouble (total * ratio))

theorem shareOf_mem {total : ℕ} {ratio : ℚ} (h : 0 ≤ ratio ∧ ratio ≤ 1) :
    0 ≤ shareOf total ratio ∧ shareOf total ratio ≤ total := by
  obtain ⟨hnonneg, hle⟩ := @toDouble_mem (total * ratio) total
    ⟨mul_nonneg (Nat.cast_nonneg total) h.1, mul_le_of_le_one_right (Nat.cast_nonneg total) h.2⟩
  rw [Int.cast_natCast] at hle
  unfold shareOf mathRound
  constructor
  · apply Int.floor_nonneg.2
    linarith
  · rw [← Int.lt_add_one_iff, Int.floor_lt]
    push_cast
    linarith

theorem splitCreatorEarningsByDebit_spec (total : ℕ) (intro wallet : ℤ) :
    (splitCreatorEarningsByDebit total intro wallet).1 +
        (splitCreatorEarningsByDebit total intro wallet).2 = total ∧
      ((splitCreatorEarningsByDebit total intro wallet).1 : ℤ) =
        shareOf total (walletRatio intro wallet) := by
  obtain ⟨hpos, hle⟩ := @shareOf_mem total _ (walletRatio_mem intro wallet)
  have hi : (0 : ℤ) ≤ max 0 intro := le_max_left _ _
  have hw : (0 : ℤ) ≤ max 0 wallet := le_max_left _ _
  have hwhole : walletRatio intro wallet = 1 →
      (total : ℤ) = shareOf total (walletRatio intro wallet) := by
    intro h
    rw [h, shareOf, mul_one, toDouble_natCast]
    exact (mathRound_intCast total).symm
  have hnothing : (0 : ℤ) = mathRound (toDouble 0) := by
    rw [toDouble_zero]
    exact (mathRound_intCast 0).symm
  unfold splitCreatorEarningsByDebit
  dsimp only
  split
  · rename_i htotal
    subst htotal
    refine ⟨rfl, ?_⟩
    rw [shareOf, Nat.cast_zero, Nat.cast_zero, zero_mul]
    exact hnothing
  split
  · rename_i hdebit
    refine ⟨add_zero total, hwhole ?_⟩
    unfold walletRatio
    split
    · rfl
    · rename_i hne
      have hintro : max 0 intro = 0 := by omega
      rw [hintro, zero_add] at hne ⊢
      rw [div_self (by exact_mod_cast hne), toDouble_one]
  split
  · rename_i hdebit hwallet
    have hzero : max 0 wallet = 0 := by omega
    have hne : max 0 intro + max 0 wallet ≠ 0 := by omega
    refine ⟨zero_add total, ?_⟩
    have hratio : walletRatio intro wallet = 0 := by
      rw [walletRatio, if_neg hne, hzero, Int.cast_zero, zero_div, toDouble_zero]
    rw [hratio, shareOf, mul_zero]
    exact hnothing
  · rename_i hdebit hwallet
    have hne : max 0 intro + max 0 wallet ≠ 0 := by omega
    have hratio : walletRatio intro wallet =
        toDouble (((max 0 wallet : ℤ) : ℚ) / ((max 0 intro + max 0 wallet : ℤ) : ℚ)) := if_neg hne
    rw [← hratio]
    rw [← shareOf]
    constructor
    · omega
    · exact Int.toNat_of_nonneg hpos

/-! ### What is committed -/

structure Figures (inp : SettleInput) (db : SettleDb) (earned : ℕ) (db' : SettleDb) : Prop where
  row : 0 < inp.targetWalletDebit → db'.debitTxn = some inp.targetWalletDebit
  user : ∃ history, db'.userHistory = some history ∧
    history.walletCoinsDeducted = some inp.targetWalletDebit ∧
    (inp.introDeductedMicros = 0 → inp.targetWalletDebit = history.coinsDeducted)
  creator : db.creator.isSome = true → ∃ history paid free, db'.creatorHistory = some history ∧
    history.coinsEarned = earned ∧ history.paidCoinsEarned = some paid ∧
    history.freeCoinsEarned = some free ∧ paid + free = earned ∧
    (paid : ℤ) =
      shareOf earned (walletRatio inp.introDeductedMicros inp.walletDeductedMicros)

/-- What is charged adds up to the merged deduction, and every committed figure follows it. -/
structure OneSetOfTotals (inp : SettleInput) (merged : ℤ) : Prop where
  split : inp.introDeductedMicros + inp.walletDeductedMicros = merged
  figures : ∀ fs db earned db', settleTransaction inp fs db = some (earned, db') →
    Figures inp db earned db'

theorem attempt_histories {f : Faults} {t t' : ℕ} {db db' : SettleDb}
    (h : attempt inp f t db = (t', some db')) :
    db'.userHistory = (upsertHistories inp t' db).userHistory ∧
      (db.creator.isSome = true → db'.creatorHistory = (upsertHistories inp t' db).creatorHistory) := by
  obtain ⟨p, -, -, rfl⟩ := attempt_committed h
  refine ⟨rfl, fun hcreator => ?_⟩
  have hspec := (attempt_spec h).2.1
  have hkept : (creditCreator f t (consumeIntroPromo inp (debitUser inp p db))).2.creator =
      db.creator := hspec
  simp [upsertHistories, hkept, hcreator]

theorem figures_of_split (hsplit : inp.introDeductedMicros + inp.walletDeductedMicros =
    inp.totalDeductedMicros) {fs : List Faults} {db db' : SettleDb} {earned : ℕ}
    (h : settleTransaction inp fs db = some (earned, db')) : Figures inp db earned db' := by
  obtain ⟨v, f, -, hattempt⟩ := settleAttempts_committing h
  obtain ⟨-, -, hrow, -, -⟩ := attempt_spec hattempt
  obtain ⟨huser, hcreator⟩ := attempt_histories hattempt
  refine ⟨fun hpos => ?_, ?_, fun hc => ?_⟩
  · rw [hrow, if_pos hpos]
  · refine ⟨_, huser, rfl, fun hintro => ?_⟩
    rw [hintro, zero_add] at hsplit
    show microsToUserDebitWholeCoins inp.walletDeductedMicros =
      microsToUserDebitWholeCoins inp.totalDeductedMicros
    rw [hsplit]
  · obtain ⟨hsum, hpaid⟩ :=
      splitCreatorEarningsByDebit_spec earned inp.introDeductedMicros inp.walletDeductedMicros
    have hhistory := hcreator hc
    simp_all [upsertHistories]

/-! ### When the totals are one set -/

def CallSession.SplitAdds (s : CallSession) : Prop :=
  ∀ intro wallet, s.totalIntroDeductedMicros = some intro → s.totalWalletDeductedMicros = some wallet →
    0 ≤ intro ∧ intro + wallet = s.totalDeductedMicros

/-- The split leaves room for the authoritative deduction: a full one when that deduction adds
nothing, a missing wallet part when a total holds the intro credit, and a missing intro part when the
wallet part is the larger total. -/
def CallSession.SplitCovers (s : CallSession) (deducted : ℤ) : Prop :=
  match s.totalIntroDeductedMicros, s.totalWalletDeductedMicros with
  | _, none => s.introDeducted ≤ max s.totalDeductedMicros deducted
  | some _, some _ => deducted ≤ s.totalDeductedMicros
  | none, some wallet => wallet = max s.totalDeductedMicros deducted

/-- The condition for a session and the totals of the ledger, of which neither the intro credit nor the
authoritative deduction is the larger, or they are equal. -/
def CallSession.Covers (s : CallSession) (ledger : Option LedgerSum) (deducted : ℤ) : Prop :=
  match ledger with
  | none => s.SplitCovers deducted
  | some sums =>
    if sums.tickCount = 0 then s.SplitCovers deducted
    else
      (s.introDeducted ≤ sums.userDebitMicros ∧ deducted ≤ sums.userDebitMicros) ∨
        s.introDeducted = deducted

theorem settleFigures_total (s : CallSession) (ledger : Option LedgerSum) (earningsRaw : ℤ)
    (hsource : totals.source ≠ .none) :
    (settleFigures s ledger totals earningsRaw).totalDeductedMicros =
      mergedDeducted s ledger totals := by
  unfold settleFigures settleInputOf mergedDeducted
  dsimp only
  rw [if_neg]
  rintro ⟨h, -⟩
  exact hsource h

theorem charged_eq (s : CallSession) (hsource : totals.source ≠ .none) (earningsRaw : ℤ) :
    (settleInputOf s totals earningsRaw).introDeductedMicros +
        (settleInputOf s totals earningsRaw).walletDeductedMicros =
      s.introDeducted + s.totalWalletDeductedMicros.getD
        (max 0 (max s.totalDeductedMicros totals.totalDeductedMicros - s.introDeducted)) := by
  rw [← merged_eq_max s hsource]
  rfl

theorem split_iff (hadds : s.SplitAdds) (hsource : totals.source ≠ .none) (earningsRaw : ℤ) :
    (settleInputOf s totals earningsRaw).introDeductedMicros +
        (settleInputOf s totals earningsRaw).walletDeductedMicros =
      max s.totalDeductedMicros totals.totalDeductedMicros ↔
        s.SplitCovers totals.totalDeductedMicros := by
  rw [charged_eq s hsource]
  unfold CallSession.SplitCovers
  cases hw : s.totalWalletDeductedMicros with
  | none =>
    rw [Option.getD_none]
    have hcover : (match s.totalIntroDeductedMicros, (none : Option ℤ) with
        | _, none => s.introDeducted ≤ max s.totalDeductedMicros totals.totalDeductedMicros
        | some _, some _ => totals.totalDeductedMicros ≤ s.totalDeductedMicros
        | none, some wallet => wallet = max s.totalDeductedMicros totals.totalDeductedMicros) ↔
          s.introDeducted ≤ max s.totalDeductedMicros totals.totalDeductedMicros := by
      cases s.totalIntroDeductedMicros <;> rfl
    omega
  | some wallet =>
    rw [Option.getD_some]
    cases hi : s.totalIntroDeductedMicros with
    | none =>
      have hzero : s.introDeducted = 0 := by
        rw [CallSession.introDeducted, hi]
        rfl
      rw [hzero, zero_add]
    | some intro =>
      obtain ⟨hpos, hsum⟩ := hadds intro wallet hi hw
      have hintro : s.introDeducted = intro := by
        rw [CallSession.introDeducted, hi]
        exact max_eq_right hpos
      omega

theorem split_ledger_iff {sums : LedgerSum} (hticks : sums.tickCount ≠ 0) (earningsRaw : ℤ) :
    (settleInputOf (s.withLedger (some sums)) totals earningsRaw).introDeductedMicros +
        (settleInputOf (s.withLedger (some sums)) totals earningsRaw).walletDeductedMicros =
      max (s.withLedger (some sums)).totalDeductedMicros totals.totalDeductedMicros ↔
        s.Covers (some sums) totals.totalDeductedMicros := by
  unfold CallSession.Covers CallSession.withLedger
  dsimp only
  rw [if_neg hticks, if_neg hticks]
  show s.introDeducted + max 0 (sums.userDebitMicros - s.introDeducted) =
    max sums.userDebitMicros totals.totalDeductedMicros ↔ _
  omega

/-- **One set of totals.** -/
theorem oneSetOfTotals_iff (s : CallSession) (hadds : s.SplitAdds) (ledger : Option LedgerSum)
    (totals : AuthoritativeTotals) (hsource : totals.source ≠ .none) (earningsRaw : ℤ) :
    OneSetOfTotals (settleFigures s ledger totals earningsRaw) (mergedDeducted s ledger totals) ↔
      s.Covers ledger totals.totalDeductedMicros := by
  have hsplit : (settleFigures s ledger totals earningsRaw).introDeductedMicros +
      (settleFigures s ledger totals earningsRaw).walletDeductedMicros =
        mergedDeducted s ledger totals ↔ s.Covers ledger totals.totalDeductedMicros := by
    unfold settleFigures mergedDeducted
    rw [merged_eq_max _ hsource]
    cases ledger with
    | none => exact split_iff hadds hsource earningsRaw
    | some sums =>
      by_cases hticks : sums.tickCount = 0
      · unfold CallSession.withLedger CallSession.Covers
        dsimp only
        rw [if_pos hticks, if_pos hticks]
        exact split_iff hadds hsource earningsRaw
      · exact split_ledger_iff hticks earningsRaw
  constructor
  · intro h
    exact hsplit.1 h.split
  · intro h
    have hcharged := hsplit.2 h
    refine ⟨hcharged, fun fs db earned db' hsettle => figures_of_split ?_ hsettle⟩
    rw [settleFigures_total s ledger earningsRaw hsource]
    exact hcharged

def sampleTotals : AuthoritativeTotals := resolveAuthoritativeSettlementTotals sampleConfig sampleLive

theorem oneSetOfTotals_sample :
    OneSetOfTotals (settleFigures sampleSession none sampleTotals 1500000)
      (mergedDeducted sampleSession none sampleTotals) := by
  apply (oneSetOfTotals_iff sampleSession ?_ none sampleTotals ?_ 1500000).2
  · show sampleTotals.totalDeductedMicros ≤ sampleSession.totalDeductedMicros
    decide +kernel
  · intro intro wallet hintro hwallet
    obtain rfl := Option.some.inj ((by decide +kernel :
      sampleSession.totalIntroDeductedMicros = some 0).symm.trans hintro)
    obtain rfl := Option.some.inj ((by decide +kernel :
      sampleSession.totalWalletDeductedMicros = some 5000000).symm.trans hwallet)
    exact ⟨le_rfl, by decide +kernel⟩
  · decide +kernel

def staleSession : CallSession :=
  { sampleSession with
    totalIntroDeductedMicros := some 0
    totalWalletDeductedMicros := some 0
    totalDeductedMicros := 0
    totalEarnedMicros := 0
    billingSequence := 0 }

def staleLive : RuntimeStore := { sampleLive with session := some staleSession }

def staleTotals : AuthoritativeTotals := resolveAuthoritativeSettlementTotals sampleConfig staleLive

def staleFigures : SettleInput := settleFigures staleSession none staleTotals 1500000

def sampleDocuments : SettleDb :=
  ⟨some ⟨500, 0, true⟩, some none, some 0, none, none, none, none, 0, 0, none, none⟩

def staleSettled : SettleDb :=
  ((settleTransaction staleFigures [.none] sampleDocuments).map Prod.snd).getD sampleDocuments

/-- With the totals of the durable document, the history of the payer says that five coins were
deducted, of which none is taken from the wallet; the creator earns one. -/
theorem nothing_charged :
    settleInput sampleConfig staleLive 6000 = some staleFigures ∧ staleTotals.source = .durable ∧
      ¬ OneSetOfTotals staleFigures (mergedDeducted staleSession none staleTotals) ∧
      staleSettled.userHistory.map CallHistory.coinsDeducted = some 5 ∧
      staleSettled.userHistory.bind CallHistory.walletCoinsDeducted = some 0 ∧
      staleSettled.payer.map Payer.coins = some 500 ∧ staleSettled.debitTxn = none ∧
      staleSettled.creditTxn = some 1 := by
  refine ⟨by decide +kernel, by decide +kernel, fun h => ?_, by decide +kernel, by decide +kernel,
    by decide +kernel, by decide +kernel, by decide +kernel⟩
  exact absurd h.split (by decide +kernel)

end VibemeetBackend.Billing
