import VibemeetBackend.Billing.SettleTransaction

/-!
# Settlement under transient failures

Whether a settlement that needed retries commits what a settlement without failures would have
committed.  The loop of `settleCall` shares `totalEarnedCreator` between its attempts and the
`catch` of the creator block sets it to zero, so an error swallowed in any attempt is felt by every
later one.
-/

namespace VibemeetBackend.Billing

variable {inp : SettleInput} {f : Faults} {fs : List Faults} {t t' : ℕ} {db db' : SettleDb}

/-- The attempt reaches its creator block and an error raised in it is swallowed. -/
def attemptSwallows (inp : SettleInput) (f : Faults) (db : SettleDb) : Bool :=
  !failsBeforeCredit inp f db &&
    match db.payer with
    | none => false
    | some p => swallows f inp.targetCredit (consumeIntroPromo inp (debitUser inp p db))

/-- An error is swallowed in an attempt that is made.  The attempts start with the target until one
of them swallows an error, and a failed attempt leaves the documents as they were. -/
def swallowsInSomeAttempt (inp : SettleInput) : List Faults → SettleDb → Bool
  | [], _ => false
  | f :: fs, db =>
    attemptSwallows inp f db ||
      ((attempt inp f inp.targetCredit db).2.isNone && f.transient && swallowsInSomeAttempt inp fs db)

/-- The committed state `db'` credits the creator by the target: in the wallet, in `CallHistory` and
in the `call_credit` row, as a settlement without failures does. -/
structure CommitsTarget (inp : SettleInput) (db db' : SettleDb) : Prop where
  wallet : ∃ c c', db.creatorUser = some c ∧ db'.creatorUser = some c' ∧ c' = c + inp.targetCredit
  history : ∃ row, db'.creatorHistory = some row ∧ row.coinsEarned = inp.targetCredit
  row : db'.creditTxn.getD 0 = inp.targetCredit
  noFailure : settleTransaction inp [Faults.none] db = some (inp.targetCredit, db')

theorem attempt_value {staff : Option Staff} {c : ℕ} (hs : db.creator = some staff)
    (hc : db.creatorUser = some c) {r : Option SettleDb}
    (h : attempt inp f inp.targetCredit db = (t', r)) :
    t' = if attemptSwallows inp f db then 0 else inp.targetCredit := by
  unfold attempt at h
  unfold attemptSwallows
  by_cases hf : failsBeforeCredit inp f db
  · simpa [hf] using (congrArg Prod.fst h).symm
  · rw [if_neg hf] at h
    cases hp : db.payer with
    | none =>
      simpa [hp] using (congrArg Prod.fst h).symm
    | some p =>
      simp only [hp] at h
      obtain ⟨_, hi₂, hi₃, _, _⟩ := consumeIntroPromo_frame inp (debitUser inp p db)
      have hv := creditCreator_value (f := f) (t := inp.targetCredit) (hi₂.trans hs) (hi₃.trans hc)
      have ht' : t' =
          (creditCreator f inp.targetCredit (consumeIntroPromo inp (debitUser inp p db))).1 := by
        grind
      rw [ht', hv]
      simp [hf]

/-- Once `totalEarnedCreator` is zero it stays zero. -/
theorem attempt_value_zero {r : Option SettleDb} (h : attempt inp f 0 db = (t', r)) : t' = 0 := by
  unfold attempt at h
  split at h
  · exact (congrArg Prod.fst h).symm
  · split at h
    · exact (congrArg Prod.fst h).symm
    · have h0 : ∀ d, creditCreator f 0 d = (0, d) := fun d => by simp [creditCreator]
      grind

theorem settleAttempts_zero (h : settleAttempts inp fs 0 db = some (t', db')) : t' = 0 := by
  induction fs with
  | nil => cases h
  | cons f fs ih =>
    unfold settleAttempts at h
    cases ha : attempt inp f 0 db with
    | mk v r =>
      obtain rfl := attempt_value_zero ha
      grind

theorem attempt_eq_none (h : attempt inp f inp.targetCredit db = (t', some db'))
    (hsw : attemptSwallows inp f db = false) :
    attempt inp Faults.none inp.targetCredit db = (t', some db') := by
  obtain ⟨p, hp, ht', hdb'⟩ := attempt_committed h
  have hf : failsBeforeCredit inp f db = false := by
    by_contra hne
    have hne' : failsBeforeCredit inp f db = true := by simpa using hne
    simp [attempt, hne'] at h
  have hs : swallows f inp.targetCredit (consumeIntroPromo inp (debitUser inp p db)) = false := by
    simpa [attemptSwallows, hf, hp] using hsw
  -- the creator block raises nothing, so its own errors do not matter
  have hcc : creditCreator f inp.targetCredit (consumeIntroPromo inp (debitUser inp p db)) =
      creditCreator Faults.none inp.targetCredit
        (consumeIntroPromo inp (debitUser inp p db)) := by
    unfold creditCreator
    by_cases ht : inp.targetCredit = 0
    · rw [if_pos ht, if_pos ht]
    · have hsome : (creatorBlock f.swallowed inp.targetCredit
          (consumeIntroPromo inp (debitUser inp p db))).2.isSome := by
        simp only [swallows, Bool.and_eq_false_iff, bne_eq_false_iff_eq, ht, false_or] at hs
        simpa using hs
      rw [if_neg ht, if_neg ht, creatorBlock_eq_of_isSome hsome]
      rfl
  have hsn : swallows Faults.none inp.targetCredit
      (consumeIntroPromo inp (debitUser inp p db)) = false ∨
      Faults.none.aborted = false := .inr rfl
  have hfn : failsBeforeCredit inp Faults.none db = false := by
    simp [failsBeforeCredit, Faults.none, hp]
  unfold attempt
  rw [hfn]
  simp only [hp, Bool.false_eq_true, if_false]
  have hab : (swallows Faults.none inp.targetCredit (consumeIntroPromo inp (debitUser inp p db)) &&
      Faults.none.aborted) = false := by simp [Faults.none]
  rw [hab, ← hcc]
  simp only [Faults.none, Bool.false_eq_true, if_false, reduceCtorEq]
  rw [hdb', ht']

/-- What the attempt that commits the loop leaves of the target: everything when no attempt so far
has swallowed an error, nothing otherwise. -/
theorem settleAttempts_value {staff : Option Staff} {c : ℕ} (hs : db.creator = some staff)
    (hc : db.creatorUser = some c)
    (h : settleAttempts inp fs inp.targetCredit db = some (t', db')) :
    if swallowsInSomeAttempt inp fs db then t' = 0
    else attempt inp Faults.none inp.targetCredit db = (t', some db') ∧
      t' = inp.targetCredit := by
  induction fs with
  | nil => cases h
  | cons f fs ih =>
    unfold settleAttempts at h
    unfold swallowsInSomeAttempt
    cases ha : attempt inp f inp.targetCredit db with
    | mk v r =>
      have hv := attempt_value hs hc ha
      simp only [ha] at h
      by_cases hsw : attemptSwallows inp f db = true
      · -- from here on `totalEarnedCreator` is zero
        rw [hsw] at hv ⊢
        subst hv
        cases r with
        | some d =>
          simp only [Option.some.injEq, Prod.mk.injEq] at h
          exact h.1.symm
        | none =>
          simp only at h
          split at h
          · cases h
          · exact settleAttempts_zero h
      · have hsw' : attemptSwallows inp f db = false := by simpa using hsw
        rw [hsw'] at hv ⊢
        subst hv
        cases r with
        | some d =>
          simp only [Option.some.injEq, Prod.mk.injEq] at h
          obtain ⟨rfl, rfl⟩ := h
          simpa using attempt_eq_none ha hsw'
        | none =>
          simp only at h
          split at h
          · cases h
          · rename_i htr
            have htr' : f.transient = true := by simpa using htr
            simpa [htr'] using ih h

theorem swallowsInSomeAttempt_zero (h0 : inp.targetCredit = 0) (fs : List Faults) :
    swallowsInSomeAttempt inp fs db = false := by
  have ha : ∀ f, attemptSwallows inp f db = false := by
    grind [attemptSwallows, swallows]
  induction fs with
  | nil => rfl
  | cons f fs ih => simp [swallowsInSomeAttempt, ha, ih]

/-- **When a settlement commits its target.**  With the `Creator` document and its user in place, a
run of the settlement loop that commits credits the creator by exactly the target, in the wallet, in
`CallHistory` and in the `call_credit` row, and as a run without failures would, if and only if no
coins are recorded for the call yet and either the target is zero or no attempt has swallowed an
error of its creator block. -/
theorem commitsTarget_iff (inp : SettleInput) (fs : List Faults) (db : SettleDb)
    {staff : Option Staff} {c t : ℕ} {db' : SettleDb} (hs : db.creator = some staff)
    (hc : db.creatorUser = some c) (h : settleTransaction inp fs db = some (t, db')) :
    CommitsTarget inp db db' ↔
      db.creditTxn.getD 0 = 0 ∧ (inp.targetCredit = 0 ∨
        swallowsInSomeAttempt inp (fs.take settlementTxnMaxAttempts) db = false) := by
  have hval := settleAttempts_value hs hc h
  have hisSome : db.creator.isSome := by rw [hs]; rfl
  obtain ⟨v, g, _, hatt⟩ := settleAttempts_committing h
  by_cases hsw : swallowsInSomeAttempt inp (fs.take settlementTxnMaxAttempts) db = true
  · -- `CallHistory` records nothing although there is something to record
    rw [if_pos hsw] at hval
    subst hval
    have hne : inp.targetCredit ≠ 0 := by
      intro h0
      simp [swallowsInSomeAttempt_zero h0] at hsw
    obtain ⟨_, _, _, _, hhist⟩ := attempt_spec hatt
    obtain ⟨row, hrow, hearned⟩ := hhist hisSome
    constructor
    · intro hct
      obtain ⟨row', hrow', hearned'⟩ := hct.history
      rw [hrow] at hrow'
      cases hrow'
      exact absurd (hearned'.symm.trans hearned) hne
    · rintro ⟨_, h0 | hno⟩
      · exact absurd h0 hne
      · simp [hsw] at hno
  · have hsw' : swallowsInSomeAttempt inp (fs.take settlementTxnMaxAttempts) db = false := by
      simpa using hsw
    rw [if_neg hsw] at hval
    obtain ⟨hnone, rfl⟩ := hval
    obtain ⟨_, _, _, hcredit, hhist⟩ := attempt_spec hnone
    have hnf : settleTransaction inp [Faults.none] db = some (inp.targetCredit, db') := by
      simp [settleTransaction, settlementTxnMaxAttempts, settleAttempts, hnone]
    rw [hs, hc] at hcredit
    rw [hsw']
    simp only [or_true, and_true]
    by_cases h0 : inp.targetCredit = 0
    · simp only [creditEffect, h0, if_true, Prod.mk.injEq] at hcredit
      constructor
      · intro hct
        have hrow := hct.row
        rw [hcredit.2, h0] at hrow
        exact hrow
      · intro hk
        exact ⟨⟨c, c, hc, hcredit.1, by omega⟩, hhist hisSome, by rw [hcredit.2, hk, h0], hnf⟩
    · simp only [creditEffect, h0, if_false, Faults.none, walletCredited, rowUpserted, if_true,
        Prod.mk.injEq] at hcredit
      constructor
      · intro hct
        obtain ⟨d, d', hd, hd', hinc⟩ := hct.wallet
        rw [hc] at hd
        rw [hcredit.1] at hd'
        cases hd
        cases hd'
        omega
      · intro hk
        refine ⟨⟨c, _, hc, hcredit.1, by omega⟩, hhist hisSome, by rw [hcredit.2]; rfl, hnf⟩

/-! ### A retried settlement -/

/-- A payer with 100 coins and a creator without any. -/
def retryDb : SettleDb where
  payer := some ⟨100, 0, false⟩
  creator := some none
  creatorUser := some 0
  debitTxn := none
  creditTxn := none
  bdLine := none
  agencyLine := none
  bdBalance := 0
  agencyBalance := 0
  userHistory := none
  creatorHistory := none

/-- A wallet call of ten coins, five of them earned by the creator. -/
def retryInput : SettleInput where
  introPromoActive := false
  introDeductedMicros := 0
  walletDeductedMicros := 10 * coinMicros
  totalDeductedMicros := 10 * coinMicros
  totalEarnedMicros := 5 * coinMicros
  durationSeconds := 60

/-- The first attempt cannot read the `Creator` document and then fails to commit with a transient
error; the second one has no failure. -/
def retryFaults : List Faults :=
  [⟨some .readCreator, false, some .commit, true⟩, Faults.none]

theorem retry_loses_credit :
    ¬ ∀ (inp : SettleInput) (fs : List Faults) (db : SettleDb) (staff : Option Staff) (c t : ℕ)
      (db' : SettleDb), db.creator = some staff → db.creatorUser = some c →
      settleTransaction inp fs db = some (t, db') → CommitsTarget inp db db' := by
  intro h
  obtain ⟨_, c', _, hc', hsum⟩ := (h retryInput retryFaults retryDb none 0 0
    ((settleTransaction retryInput retryFaults retryDb).getD (0, retryDb)).2 rfl rfl
    (by decide +kernel)).wallet
  have hzero : ((settleTransaction retryInput retryFaults retryDb).getD (0, retryDb)).2.creatorUser
      = some 0 := by decide +kernel
  have hfive : retryInput.targetCredit = 5 := by decide +kernel
  rw [hzero] at hc'
  have := Option.some.inj hc'
  omega

/-- The first attempt reads the `Creator` document and fails to commit. -/
def repeatedFaults : List Faults := [⟨none, false, some .commit, true⟩, Faults.none]

theorem commitsTarget_repeated : CommitsTarget retryInput retryDb
    ((settleTransaction retryInput repeatedFaults retryDb).getD (0, retryDb)).2 :=
  (commitsTarget_iff retryInput repeatedFaults retryDb
    (show retryDb.creator = some none from rfl) (show retryDb.creatorUser = some 0 from rfl)
    (show _ = some (5, _) by decide +kernel)).2 ⟨rfl, .inr (by decide +kernel)⟩

end VibemeetBackend.Billing
