import VibemeetBackend.Billing.SettleTransaction

/-!
# Wallets and transaction rows over repeated settlements

One call may be settled by several committed transactions, with different targets, while both
wallets change for other reasons in between.  The rows `call_debit` and `call_credit` should say
what the settlements of the call have moved.
-/

namespace VibemeetBackend.Billing

variable {inp : SettleInput} {f : Faults} {t t' : ℕ} {db db' : SettleDb}

/-- The documents of a call and what its settlements have moved: out of the payer's wallet and into
the creator's. -/
structure Moved where
  db : SettleDb
  debited : ℤ
  credited : ℤ

/-- A settlement with the errors of its attempts, or other business of the two wallets. -/
inductive SettleStep where
  | settle (inp : SettleInput) (fs : List Faults)
  | other (payer creator : ℕ)

def walletOf (p : Option Payer) : ℤ := (p.map fun p => (p.coins : ℤ)).getD 0

def creatorWalletOf (c : Option ℕ) : ℤ := (c.map fun c => (c : ℤ)).getD 0

def Moved.step (m : Moved) : SettleStep → Moved
  | .settle inp fs =>
    match settleTransaction inp fs m.db with
    | none => m
    | some (_, db') =>
      { db := db'
        debited := m.debited + (walletOf m.db.payer - walletOf db'.payer)
        credited := m.credited + (creatorWalletOf db'.creatorUser -
          creatorWalletOf m.db.creatorUser) }
  | .other payer creator =>
    { m with db := { m.db with
        payer := m.db.payer.map fun p => { p with coins := payer }
        creatorUser := m.db.creatorUser.map fun _ => creator } }

def Moved.run (m : Moved) (steps : List SettleStep) : Moved := steps.foldl Moved.step m

def WalletsMatchRows (m : Moved) : Prop :=
  m.debited = m.db.debitTxn.getD 0 ∧ m.credited = m.db.creditTxn.getD 0

/-- The debit is recorded as it is made: there is nothing to debit, or the target is at least what
is recorded already and the payer can pay the difference. -/
def DebitRecorded (inp : SettleInput) (db : SettleDb) : Prop :=
  inp.targetWalletDebit = 0 ∨
    (db.debitTxn.getD 0 ≤ inp.targetWalletDebit ∧
      ∀ p, db.payer = some p → inp.targetWalletDebit - db.debitTxn.getD 0 ≤ p.coins)

/-- The credit is recorded as it is made: there is nothing to credit or nobody to credit it to, or
the target is at least what is recorded already and no error separates the wallet from the row. -/
def CreditRecorded (f : Faults) (t : ℕ) (db : SettleDb) : Prop :=
  t = 0 ∨ db.creator = none ∨ db.creatorUser = none ∨
    match f.swallowed with
    | some .readCreator => True
    | some .readCreatorUser => True
    | some .readCreditTxn => True
    | some .upsertCreatorCreditTxn => t ≤ db.creditTxn.getD 0
    | _ => db.creditTxn.getD 0 ≤ t

def StepRecorded (m : Moved) : SettleStep → Prop
  | .settle inp fs =>
    ∀ t f, committing inp (fs.take settlementTxnMaxAttempts) inp.targetCredit m.db = some (t, f) →
      DebitRecorded inp m.db ∧ CreditRecorded f t m.db
  | .other _ _ => True

theorem debit_matches_iff (h : attempt inp f t db = (t', some db')) :
    walletOf db.payer - walletOf db'.payer =
        (db'.debitTxn.getD 0 : ℤ) - db.debitTxn.getD 0 ↔
      DebitRecorded inp db := by
  obtain ⟨⟨p, p', hp, hp', hcoins⟩, _, hrow, _, _⟩ := attempt_spec h
  have hw : walletOf db.payer = p.coins := by rw [hp]; rfl
  have hw' : walletOf db'.payer = p'.coins := by rw [hp']; rfl
  have hall : (∀ q, db.payer = some q →
      inp.targetWalletDebit - db.debitTxn.getD 0 ≤ q.coins) ↔
      inp.targetWalletDebit - db.debitTxn.getD 0 ≤ p.coins := by
    constructor
    · intro hq
      exact hq p hp
    · intro hle q hq
      rw [hp] at hq
      cases hq
      exact hle
  unfold DebitRecorded
  rw [hall, hw, hw', hrow]
  by_cases h0 : 0 < inp.targetWalletDebit
  · rw [if_pos h0, Option.getD_some]
    omega
  · rw [if_neg h0]
    omega

theorem credit_matches_iff (h : attempt inp f t db = (t', some db')) :
    creatorWalletOf db'.creatorUser - creatorWalletOf db.creatorUser =
        (db'.creditTxn.getD 0 : ℤ) - db.creditTxn.getD 0 ↔
      CreditRecorded f t db := by
  obtain ⟨_, _, _, hcredit, _⟩ := attempt_spec h
  unfold CreditRecorded
  cases hs : db.creator with
  | none =>
    simp only [hs, creditEffect, Prod.mk.injEq] at hcredit
    rw [hcredit.1, hcredit.2]
    simp
  | some staff =>
    cases hc : db.creatorUser with
    | none =>
      simp only [hs, hc, creditEffect, Prod.mk.injEq] at hcredit
      rw [hcredit.1, hcredit.2]
      simp
    | some c =>
      have hw : creatorWalletOf (some c) = c := rfl
      simp only [hs, hc, creditEffect] at hcredit
      by_cases h0 : t = 0
      · simp only [h0, if_true, Prod.mk.injEq] at hcredit
        rw [hcredit.1, hcredit.2]
        simp [h0]
      · simp only [h0, if_false, Prod.mk.injEq] at hcredit
        simp only [h0, reduceCtorEq, false_or]
        -- what is left is one comparison of the target with the recorded coins a stage
        rw [hcredit.1, hcredit.2, hw]
        have hw' : ∀ n : ℕ, creatorWalletOf (some n) = n := fun n => rfl
        rw [hw']
        cases he : f.swallowed with
        | none => simp only [walletCredited, rowUpserted, if_true, Option.getD_some]; omega
        | some e =>
          cases e with
          | readCreator => simp [walletCredited, rowUpserted]
          | readCreatorUser => simp [walletCredited, rowUpserted]
          | readCreditTxn => simp [walletCredited, rowUpserted]
          | creditCreatorWallet =>
            by_cases hk : t ≤ db.creditTxn.getD 0
            · simp only [walletCredited, rowUpserted, hk, decide_true, if_true, Option.getD_some]
              omega
            · simp only [walletCredited, rowUpserted, hk, decide_false, Bool.false_eq_true,
                if_false, sub_self, true_iff]
              omega
          | upsertCreatorCreditTxn =>
            simp only [walletCredited, rowUpserted, if_true, Bool.false_eq_true, if_false]
            omega
          | staff n => simp only [walletCredited, rowUpserted, if_true, Option.getD_some]; omega

theorem step_matches_iff (m : Moved) (hm : WalletsMatchRows m) (s : SettleStep) :
    WalletsMatchRows (m.step s) ↔ StepRecorded m s := by
  obtain ⟨hd, hc⟩ := hm
  cases s with
  | other payer creator => exact ⟨fun _ => trivial, fun _ => ⟨hd, hc⟩⟩
  | settle inp fs =>
    simp only [Moved.step, StepRecorded]
    cases hr : settleTransaction inp fs m.db with
    | none =>
      refine ⟨fun _ t f hcm => ?_, fun _ => ⟨hd, hc⟩⟩
      simp [settleTransaction_eq_none.1 hr] at hcm
    | some r =>
      obtain ⟨v, db'⟩ := r
      obtain ⟨t, f, hcm, hatt⟩ := settleAttempts_committing hr
      have hd' := debit_matches_iff hatt
      have hc' := credit_matches_iff hatt
      simp only [WalletsMatchRows, hd, hc]
      constructor
      · rintro ⟨h₁, h₂⟩ t₁ f₁ hcm₁
        rw [hcm] at hcm₁
        cases hcm₁
        exact ⟨hd'.1 (by omega), hc'.1 (by omega)⟩
      · intro h
        obtain ⟨h₁, h₂⟩ := h t f hcm
        have e₁ := hd'.2 h₁
        have e₂ := hc'.2 h₂
        constructor
        · omega
        · omega

/-- **When wallets and rows agree.**  Starting without rows, the net movements of both wallets are
the coins of their rows after every step of a run of settlements and other business, if and only if
every committed settlement of the run finds its targets no smaller than what is recorded, a payer
who can pay the difference, and no error between the creator's wallet and row. -/
theorem walletsMatchRows_iff (db : SettleDb) (hd : db.debitTxn = none) (hc : db.creditTxn = none)
    (steps : List SettleStep) :
    (∀ n, WalletsMatchRows ((Moved.mk db 0 0).run (steps.take n))) ↔
      ∀ n s, steps[n]? = some s → StepRecorded ((Moved.mk db 0 0).run (steps.take n)) s := by
  have hstep : ∀ n s, steps[n]? = some s → (Moved.mk db 0 0).run (steps.take (n + 1)) =
      ((Moved.mk db 0 0).run (steps.take n)).step s := by
    intro n s hs
    rw [List.take_add_one, hs]
    simp [Moved.run]
  constructor
  · intro h n s hs
    have hn := h (n + 1)
    rw [hstep n s hs] at hn
    exact (step_matches_iff _ (h n) s).1 hn
  · intro h n
    induction n with
    | zero => exact ⟨by simp [Moved.run, hd], by simp [Moved.run, hc]⟩
    | succ n ih =>
      cases hs : steps[n]? with
      | none =>
        have hlen : steps.length ≤ n := List.getElem?_eq_none_iff.1 hs
        rw [List.take_of_length_le (by omega)]
        rwa [List.take_of_length_le hlen] at ih
      | some s =>
        rw [hstep n s hs]
        exact (step_matches_iff _ ih s).2 (h n s hs)

/-! ### A payer who has spent the coins -/

def spentDb : SettleDb where
  payer := some ⟨3, 0, false⟩
  creator := some none
  creatorUser := some 0
  debitTxn := none
  creditTxn := none
  bdLine := none
  agencyLine := none
  bdBalance := 0
  agencyBalance := 0
  userHistory := none
  creatorHistory := none

/-- A wallet call of ten coins. -/
def spentInput : SettleInput where
  introPromoActive := false
  introDeductedMicros := 0
  walletDeductedMicros := 10 * coinMicros
  totalDeductedMicros := 10 * coinMicros
  totalEarnedMicros := 5 * coinMicros
  durationSeconds := 60

theorem clamped_debit_recorded_in_full :
    ¬ ∀ (db : SettleDb) (steps : List SettleStep), db.debitTxn = none → db.creditTxn = none →
      WalletsMatchRows ((Moved.mk db 0 0).run steps) := by
  intro h
  have hd := (h spentDb [.settle spentInput [Faults.none]] rfl rfl).1
  exact absurd hd (by decide +kernel)

/-- The equivalence at one settlement the payer can pay in full. -/
theorem walletsMatchRows_iff_single :
    (∀ n, WalletsMatchRows ((Moved.mk spentDb 0 0).run
        ([SettleStep.other 50 0, .settle spentInput [Faults.none]].take n))) ↔
      ∀ n s, [SettleStep.other 50 0, .settle spentInput [Faults.none]][n]? = some s →
        StepRecorded ((Moved.mk spentDb 0 0).run
          ([SettleStep.other 50 0, .settle spentInput [Faults.none]].take n)) s :=
  walletsMatchRows_iff spentDb rfl rfl [.other 50 0, .settle spentInput [Faults.none]]

end VibemeetBackend.Billing
