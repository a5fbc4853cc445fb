import VibemeetBackend.Billing.Constants

/-!
# The settlement transaction of `settleCall`

`billing-settlement.service.ts`, from the first attempt to the commit.  An attempt works on a copy
of the documents and publishes it when it commits; what survives a failed attempt is the variable
`totalEarnedCreator`, which the loop shares between its attempts.

An error is raised at one of the stages the source names.  Those of the creator block are caught
inside the attempt: the writes made before them stay, and `totalEarnedCreator` becomes zero.
-/

namespace VibemeetBackend.Billing

/-! ### Documents -/

/-- The payer's `User` document.  `User.coins` has minimum zero. -/
structure Payer where
  coins : ℕ
  introFreeCallCredits : ℕ
  welcomeFreeCallConsumed : Bool
  deriving DecidableEq

/-- The staff that shares the creator's earnings, with its rates in basis points. -/
structure Staff where
  hasBd : Bool
  bdBps : ℕ
  agencyBps : ℕ
  deriving DecidableEq

/-- `CallHistory.settlementStatus`. -/
inductive HistoryStatus where
  | pending
  | settled
  | failed
  deriving DecidableEq, Repr

structure CallHistory where
  settlementStatus : HistoryStatus
  durationSeconds : ℕ
  coinsDeducted : ℕ
  walletCoinsDeducted : Option ℕ
  coinsEarned : ℕ
  paidCoinsEarned : Option ℕ
  freeCoinsEarned : Option ℕ
  deriving DecidableEq, Repr

/-- The documents of one call.  `creator` is the `Creator` document with the staff assigned to it,
`creatorUser` the wallet of its owner, who is not the payer; the transactions are the coins of the
`call_debit` and `call_credit` rows. -/
structure SettleDb where
  payer : Option Payer
  creator : Option (Option Staff)
  creatorUser : Option ℕ
  debitTxn : Option ℕ
  creditTxn : Option ℕ
  bdLine : Option ℕ
  agencyLine : Option ℕ
  bdBalance : ℕ
  agencyBalance : ℕ
  userHistory : Option CallHistory
  creatorHistory : Option CallHistory
  deriving DecidableEq

/-- What `settleCall` has computed before its first attempt. -/
structure SettleInput where
  introPromoActive : Bool
  introDeductedMicros : ℤ
  walletDeductedMicros : ℤ
  totalDeductedMicros : ℤ
  totalEarnedMicros : ℤ
  durationSeconds : ℕ
  deriving DecidableEq

def SettleInput.targetWalletDebit (inp : SettleInput) : ℕ :=
  microsToUserDebitWholeCoins inp.walletDeductedMicros

/-- The value of `totalEarnedCreator` before the first attempt. -/
def SettleInput.targetCredit (inp : SettleInput) : ℕ :=
  microsToCreatorCreditWholeCoins inp.totalEarnedMicros

/-! ### Failures -/

/-- Where an error of the creator block is raised; `staff n` is after `n` of the staff writes. -/
inductive CreatorStage where
  | readCreator
  | readCreatorUser
  | readCreditTxn
  | creditCreatorWallet
  | upsertCreatorCreditTxn
  | staff (n : ℕ)
  deriving DecidableEq

inductive Stage where
  | readUser
  | debitUserWallet
  | upsertUserDebitTxn
  | consumeIntroPromo
  | upsertCallHistory
  | commit
  deriving DecidableEq

/-- The errors of one attempt.  When the server aborted the transaction with a swallowed error, the
next statement of the attempt fails. -/
structure Faults where
  swallowed : Option CreatorStage
  aborted : Bool
  raised : Option Stage
  /-- `isTransientMongoTransactionError` of the error that ends the attempt. -/
  transient : Bool

def Faults.none : Faults := ⟨Option.none, false, Option.none, false⟩

/-! ### The code -/

def splitCreatorEarningsByDebit (total : ℕ) (intro wallet : ℤ) : ℕ × ℕ :=
  let intro := max 0 intro
  let wallet := max 0 wallet
  let debit := intro + wallet
  if total = 0 then (0, 0)
  else if debit ≤ 0 ∨ debit ≤ wallet then (total, 0)
  else if wallet ≤ 0 then (0, total)
  else
    let paid := (mathRound (toDouble (total * toDouble ((wallet : ℚ) / debit)))).toNat
    (paid, total - paid)

/-- The product is 22.499999999999996, not 22.5. -/
example : splitCreatorEarningsByDebit 39 55000000 75000000 = (22, 17) := by decide +kernel

/-- The staff writes of a credit of `t` coins, in order. -/
def staffWrites (staff : Option Staff) (t : ℕ) : List (SettleDb → SettleDb) :=
  match staff with
  | none => []
  | some staff =>
    let bdCut := if staff.hasBd then t * staff.bdBps / 10000 else 0
    let agencyCut := t * staff.agencyBps / 10000
    [ fun db => if 0 < bdCut ∧ db.bdLine = none then
          { db with bdBalance := db.bdBalance + bdCut, bdLine := some bdCut } else db,
      fun db => if 0 < agencyCut ∧ db.agencyLine = none then
          { db with agencyBalance := db.agencyBalance + agencyCut, agencyLine := some agencyCut }
        else db ]

/-- The creator block: the documents and the value it leaves in `totalEarnedCreator`, `none` when
an error was raised in it. -/
def creatorBlock (e : Option CreatorStage) (t : ℕ) (db : SettleDb) : SettleDb × Option ℕ :=
  if e = some .readCreator then (db, none)
  else
    match db.creator with
    | none => (db, some 0)
    | some staff =>
      if e = some .readCreatorUser then (db, none)
      else
        match db.creatorUser with
        | none => (db, some 0)
        | some coins =>
          if e = some .readCreditTxn then (db, none)
          else
            let creatorCreditDelta := t - db.creditTxn.getD 0
            if 0 < creatorCreditDelta ∧ e = some .creditCreatorWallet then (db, none)
            else
              let db := { db with creatorUser := some (coins + creatorCreditDelta) }
              if e = some .upsertCreatorCreditTxn then (db, none)
              else
                let db := { db with creditTxn := some t }
                let writes := staffWrites staff t
                match e with
                | some (.staff n) =>
                  if n ≤ writes.length then ((writes.take n).foldl (fun d w => w d) db, none)
                  else (writes.foldl (fun d w => w d) db, some t)
                | _ => (writes.foldl (fun d w => w d) db, some t)

/-- `totalEarnedCreator` and the documents after the creator block, with its `catch`. -/
def creditCreator (f : Faults) (t : ℕ) (db : SettleDb) : ℕ × SettleDb :=
  if t = 0 then (t, db)
  else
    match creatorBlock f.swallowed t db with
    | (db, some t') => (t', db)
    | (db, none) => (0, db)

/-- The creator block raises an error that its `catch` swallows. -/
def swallows (f : Faults) (t : ℕ) (db : SettleDb) : Bool :=
  t != 0 && (creatorBlock f.swallowed t db).2.isNone

/-- The debit of the payer: `$max: [0, coins - delta]`, then the upsert of the row. -/
def debitUser (inp : SettleInput) (payer : Payer) (db : SettleDb) : SettleDb :=
  let delta := inp.targetWalletDebit - db.debitTxn.getD 0
  { db with
    payer := some { payer with coins := payer.coins - delta }
    debitTxn := if 0 < inp.targetWalletDebit then some inp.targetWalletDebit else db.debitTxn }

def consumeIntroPromo (inp : SettleInput) (db : SettleDb) : SettleDb :=
  if inp.introPromoActive = true ∧ 0 < inp.introDeductedMicros then
    { db with payer := db.payer.map fun p =>
        if p.welcomeFreeCallConsumed = false ∧ 0 < p.introFreeCallCredits then
          { p with welcomeFreeCallConsumed := true, introFreeCallCredits := 0 } else p }
  else db

/-- The two `CallHistory` upserts; the creator's needs a `Creator` document. -/
def upsertHistories (inp : SettleInput) (t : ℕ) (db : SettleDb) : SettleDb :=
  let split := splitCreatorEarningsByDebit t inp.introDeductedMicros inp.walletDeductedMicros
  { db with
    userHistory := some
      { settlementStatus := .settled
        durationSeconds := inp.durationSeconds
        coinsDeducted := microsToUserDebitWholeCoins inp.totalDeductedMicros
        walletCoinsDeducted := some inp.targetWalletDebit
        coinsEarned := 0
        paidCoinsEarned := none
        freeCoinsEarned := none }
    creatorHistory :=
      if db.creator.isSome then
        some
          { settlementStatus := .settled
            durationSeconds := inp.durationSeconds
            coinsDeducted := 0
            walletCoinsDeducted := none
            coinsEarned := t
            paidCoinsEarned := some split.1
            freeCoinsEarned := some split.2 }
      else db.creatorHistory }

/-- Is the error of the attempt raised before or during the writes of the debit? -/
def failsBeforeCredit (inp : SettleInput) (f : Faults) (db : SettleDb) : Bool :=
  f.raised = some .readUser ∨ db.payer = none ∨
    (0 < inp.targetWalletDebit - db.debitTxn.getD 0 ∧ f.raised = some .debitUserWallet) ∨
    (0 < inp.targetWalletDebit ∧ f.raised = some .upsertUserDebitTxn) ∨
    (inp.introPromoActive = true ∧ 0 < inp.introDeductedMicros ∧
      f.raised = some .consumeIntroPromo)

/-- One transaction attempt: the value it leaves in `totalEarnedCreator`, and the documents it
commits, `none` when it aborts. -/
def attempt (inp : SettleInput) (f : Faults) (t : ℕ) (db : SettleDb) : ℕ × Option SettleDb :=
  if failsBeforeCredit inp f db then (t, none)
  else
    match db.payer with
    | none => (t, none)
    | some payer =>
      let debited := consumeIntroPromo inp (debitUser inp payer db)
      let (t', credited) := creditCreator f t debited
      if swallows f t debited && f.aborted then (t', none)
      else if f.raised = some .upsertCallHistory then (t', none)
      else
        let recorded := upsertHistories inp t' credited
        if f.raised = some .commit then (t', none)
        else (t', some recorded)

/-- The attempts that are left: a failed one is followed by the next while its error is transient. -/
def settleAttempts (inp : SettleInput) : List Faults → ℕ → SettleDb → Option (ℕ × SettleDb)
  | [], _, _ => none
  | f :: fs, t, db =>
    match attempt inp f t db with
    | (t', some db') => some (t', db')
    | (t', none) => if f.transient = false then none else settleAttempts inp fs t' db

/-- The attempt that commits: the value of `totalEarnedCreator` it starts with, and its errors. -/
def committing (inp : SettleInput) : List Faults → ℕ → SettleDb → Option (ℕ × Faults)
  | [], _, _ => none
  | f :: fs, t, db =>
    match attempt inp f t db with
    | (_, some _) => some (t, f)
    | (t', none) => if f.transient = false then none else committing inp fs t' db

/-- The loop of `settleCall`. -/
def settleTransaction (inp : SettleInput) (fs : List Faults) (db : SettleDb) :
    Option (ℕ × SettleDb) :=
  settleAttempts inp (fs.take settlementTxnMaxAttempts) inp.targetCredit db

/-! ### The creator block -/

section creatorBlock

variable {e : Option CreatorStage} {t : ℕ} {db : SettleDb} {staff : Option Staff} {c : ℕ}

structure StaffOnly (db db' : SettleDb) : Prop where
  payer : db'.payer = db.payer
  creator : db'.creator = db.creator
  creatorUser : db'.creatorUser = db.creatorUser
  debitTxn : db'.debitTxn = db.debitTxn
  creditTxn : db'.creditTxn = db.creditTxn

theorem StaffOnly.refl (db : SettleDb) : StaffOnly db db := ⟨rfl, rfl, rfl, rfl, rfl⟩

theorem staffOnly_foldl (ws : List (SettleDb → SettleDb)) (h : ∀ w ∈ ws, ∀ d, StaffOnly d (w d))
    (db : SettleDb) : StaffOnly db (ws.foldl (fun d w => w d) db) := by
  induction ws generalizing db with
  | nil => exact StaffOnly.refl db
  | cons w ws ih =>
    have h₁ := h w List.mem_cons_self db
    have h₂ := ih (fun w' hw' => h w' (List.mem_cons_of_mem _ hw')) (w db)
    exact ⟨h₂.payer.trans h₁.payer, h₂.creator.trans h₁.creator,
      h₂.creatorUser.trans h₁.creatorUser, h₂.debitTxn.trans h₁.debitTxn,
      h₂.creditTxn.trans h₁.creditTxn⟩

theorem staffWrites_staffOnly (staff : Option Staff) (t : ℕ) :
    ∀ w ∈ staffWrites staff t, ∀ d, StaffOnly d (w d) := by
  intro w hw d
  cases staff with
  | none => cases hw
  | some staff =>
    simp only [staffWrites, List.mem_cons, List.not_mem_nil, or_false] at hw
    rcases hw with rfl | rfl
    · dsimp only
      generalize (if staff.hasBd then t * staff.bdBps / 10000 else 0) = cut
      by_cases h : 0 < cut ∧ d.bdLine = none
      · rw [if_pos h]
        exact ⟨rfl, rfl, rfl, rfl, rfl⟩
      · rw [if_neg h]
        exact StaffOnly.refl d
    · dsimp only
      generalize t * staff.agencyBps / 10000 = cut
      by_cases h : 0 < cut ∧ d.agencyLine = none
      · rw [if_pos h]
        exact ⟨rfl, rfl, rfl, rfl, rfl⟩
      · rw [if_neg h]
        exact StaffOnly.refl d

/-- Whether the creator's wallet has been credited when the block ends, for a recorded credit `k`. -/
def walletCredited (e : Option CreatorStage) (t k : ℕ) : Bool :=
  match e with
  | none => true
  | some (.staff _) => true
  | some .upsertCreatorCreditTxn => true
  | some .creditCreatorWallet => t ≤ k
  | some _ => false

/-- Whether the `call_credit` row has been upserted when the block ends. -/
def rowUpserted (e : Option CreatorStage) (t k : ℕ) : Bool :=
  match e with
  | none => true
  | some (.staff _) => true
  | some .creditCreatorWallet => t ≤ k
  | some _ => false

theorem creatorBlock_effect (hs : db.creator = some staff) (hc : db.creatorUser = some c) :
    (creatorBlock e t db).1.payer = db.payer ∧
      (creatorBlock e t db).1.creator = db.creator ∧
      (creatorBlock e t db).1.debitTxn = db.debitTxn ∧
      (creatorBlock e t db).1.creatorUser =
        some (if walletCredited e t (db.creditTxn.getD 0) then c + (t - db.creditTxn.getD 0)
          else c) ∧
      (creatorBlock e t db).1.creditTxn =
        if rowUpserted e t (db.creditTxn.getD 0) then some t else db.creditTxn := by
  obtain ⟨payer, creator, creatorUser, debitTxn, creditTxn, bdLine, agencyLine, bdBalance,
    agencyBalance, userHistory, creatorHistory⟩ := db
  subst hs hc
  have hstaff (ws : List (SettleDb → SettleDb)) (hw : ∀ w ∈ ws, w ∈ staffWrites staff t)
      (d : SettleDb) := staffOnly_foldl ws (fun w h => staffWrites_staffOnly staff t w (hw w h)) d
  have hall := hstaff _ (fun _ h => h) ⟨payer, some staff, some (c + (t - creditTxn.getD 0)),
    debitTxn, some t, bdLine, agencyLine, bdBalance, agencyBalance, userHistory, creatorHistory⟩
  cases e with
  | none =>
    simpa [creatorBlock, walletCredited, rowUpserted] using
      ⟨hall.payer, hall.creator, hall.debitTxn, hall.creatorUser, hall.creditTxn⟩
  | some e =>
    cases e with
    | readCreator => simp [creatorBlock, walletCredited, rowUpserted]
    | readCreatorUser => simp [creatorBlock, walletCredited, rowUpserted]
    | readCreditTxn => simp [creatorBlock, walletCredited, rowUpserted]
    | creditCreatorWallet =>
      by_cases hk : t ≤ creditTxn.getD 0
      · have hd : t - creditTxn.getD 0 = 0 := by omega
        rw [hd] at hall
        simpa [creatorBlock, walletCredited, rowUpserted, hk, hd] using
          ⟨hall.payer, hall.creator, hall.debitTxn, hall.creatorUser, hall.creditTxn⟩
      · have hd : 0 < t - creditTxn.getD 0 := by omega
        simp [creatorBlock, walletCredited, rowUpserted, hk, hd]
    | upsertCreatorCreditTxn => simp [creatorBlock, walletCredited, rowUpserted]
    | staff n =>
      have htake := hstaff ((staffWrites staff t).take n) (fun _ h => List.mem_of_mem_take h)
        ⟨payer, some staff, some (c + (t - creditTxn.getD 0)), debitTxn, some t, bdLine,
          agencyLine, bdBalance, agencyBalance, userHistory, creatorHistory⟩
      by_cases hn : n ≤ (staffWrites staff t).length
      · simpa [creatorBlock, walletCredited, rowUpserted, hn] using
          ⟨htake.payer, htake.creator, htake.debitTxn, htake.creatorUser, htake.creditTxn⟩
      · simpa [creatorBlock, walletCredited, rowUpserted, hn] using
          ⟨hall.payer, hall.creator, hall.debitTxn, hall.creatorUser, hall.creditTxn⟩

theorem creatorBlock_eq_of_isSome (h : (creatorBlock e t db).2.isSome) :
    creatorBlock e t db = creatorBlock none t db := by
  unfold creatorBlock at h ⊢
  cases e with
  | none => rfl
  | some e =>
    cases e with
    | readCreator => simp at h
    | readCreatorUser =>
      cases hs : db.creator with
      | none => simp
      | some staff => simp [hs] at h
    | readCreditTxn =>
      cases hs : db.creator <;> grind
    | creditCreatorWallet =>
      cases hs : db.creator with
      | none => simp
      | some staff =>
        cases hc : db.creatorUser with
        | none => simp
        | some c =>
          by_cases hd : 0 < t - db.creditTxn.getD 0
          · simp [hs, hc, hd] at h
          · simp [hd]
    | upsertCreatorCreditTxn =>
      cases hs : db.creator <;> grind
    | staff n =>
      cases hs : db.creator with
      | none => simp
      | some staff =>
        cases hc : db.creatorUser with
        | none => simp
        | some c =>
          by_cases hn : n ≤ (staffWrites staff t).length
          · simp [hs, hc, hn] at h
          · simp [hn]

/-- With both documents there, a block that raises no error keeps `totalEarnedCreator`. -/
theorem creatorBlock_value (hs : db.creator = some staff) (hc : db.creatorUser = some c)
    (h : (creatorBlock e t db).2.isSome) : (creatorBlock e t db).2 = some t := by
  rw [creatorBlock_eq_of_isSome h]
  simp [creatorBlock, hs, hc]

end creatorBlock

/-! ### A committed attempt -/

section attempt

variable {inp : SettleInput} {f : Faults} {t t' : ℕ} {db db' : SettleDb}

/-- The creator's wallet and the `call_credit` row after an attempt, from what they were before. -/
def creditEffect (e : Option CreatorStage) (t : ℕ) (creator : Option (Option Staff))
    (wallet row : Option ℕ) : Option ℕ × Option ℕ :=
  match creator, wallet with
  | some _, some c =>
    if t = 0 then (some c, row)
    else
      (some (if walletCredited e t (row.getD 0) then c + (t - row.getD 0) else c),
        if rowUpserted e t (row.getD 0) then some t else row)
  | _, wallet => (wallet, row)

theorem creditCreator_effect (f : Faults) (t : ℕ) (db : SettleDb) :
    (creditCreator f t db).2.payer = db.payer ∧
      (creditCreator f t db).2.creator = db.creator ∧
      (creditCreator f t db).2.debitTxn = db.debitTxn ∧
      ((creditCreator f t db).2.creatorUser, (creditCreator f t db).2.creditTxn) =
        creditEffect f.swallowed t db.creator db.creatorUser db.creditTxn := by
  unfold creditCreator
  by_cases ht : t = 0
  · rw [if_pos ht]
    refine ⟨rfl, rfl, rfl, ?_⟩
    cases hs : db.creator with
    | none => rfl
    | some staff =>
      cases hc : db.creatorUser with
      | none => rfl
      | some c => simp [creditEffect, ht]
  · rw [if_neg ht]
    -- the `catch` changes `totalEarnedCreator`, never the documents
    have hdb : (match creatorBlock f.swallowed t db with
        | (db, some t') => (t', db)
        | (db, none) => (0, db)).2 = (creatorBlock f.swallowed t db).1 := by
      split <;> rename_i h <;> rw [h]
    rw [hdb]
    cases hs : db.creator with
    | none =>
      have h : (creatorBlock f.swallowed t db).1 = db := by
        unfold creatorBlock
        split
        · rfl
        · simp [hs]
      rw [h]
      exact ⟨rfl, hs, rfl, rfl⟩
    | some staff =>
      cases hc : db.creatorUser with
      | none =>
        have h : (creatorBlock f.swallowed t db).1 = db := by
          unfold creatorBlock
          split
          · rfl
          · simp only [hs, hc]
            split <;> rfl
        rw [h]
        exact ⟨rfl, hs, rfl, by rw [hc]; rfl⟩
      | some c =>
        obtain ⟨h₁, h₂, h₃, h₄, h₅⟩ := creatorBlock_effect (e := f.swallowed) (t := t) hs hc
        refine ⟨h₁, h₂.trans hs, h₃, ?_⟩
        simp [h₄, h₅, creditEffect, ht]

theorem creditCreator_value {staff : Option Staff} {c : ℕ} (hs : db.creator = some staff)
    (hc : db.creatorUser = some c) :
    (creditCreator f t db).1 = if swallows f t db then 0 else t := by
  unfold creditCreator swallows
  by_cases ht : t = 0
  · simp [ht]
  · rw [if_neg ht]
    cases hb : (creatorBlock f.swallowed t db).2 with
    | none =>
      have h : creatorBlock f.swallowed t db = ((creatorBlock f.swallowed t db).1, none) :=
        Prod.ext rfl hb
      rw [h]
      simp [ht]
    | some t' =>
      have hv := creatorBlock_value hs hc (by rw [hb]; rfl : (creatorBlock f.swallowed t db).2.isSome)
      have h : creatorBlock f.swallowed t db = ((creatorBlock f.swallowed t db).1, some t) :=
        Prod.ext rfl hv
      rw [h]
      simp

theorem attempt_committed (h : attempt inp f t db = (t', some db')) :
    ∃ p, db.payer = some p ∧
      (let debited := consumeIntroPromo inp (debitUser inp p db)
       t' = (creditCreator f t debited).1 ∧
        db' = upsertHistories inp t' (creditCreator f t debited).2) := by
  unfold attempt at h
  split at h
  · cases h
  · cases hp : db.payer with
    | none => simp [hp] at h
    | some p =>
      simp only [hp] at h
      refine ⟨p, rfl, ?_⟩
      grind

theorem consumeIntroPromo_frame (inp : SettleInput) (db : SettleDb) :
    (consumeIntroPromo inp db).payer.map Payer.coins = db.payer.map Payer.coins ∧
      (consumeIntroPromo inp db).creator = db.creator ∧
      (consumeIntroPromo inp db).creatorUser = db.creatorUser ∧
      (consumeIntroPromo inp db).debitTxn = db.debitTxn ∧
      (consumeIntroPromo inp db).creditTxn = db.creditTxn := by
  unfold consumeIntroPromo
  split
  · refine ⟨?_, rfl, rfl, rfl, rfl⟩
    cases db.payer with
    | none => rfl
    | some p =>
      simp only [Option.map_some]
      split <;> rfl
  · exact ⟨rfl, rfl, rfl, rfl, rfl⟩

/-- **What a committed attempt does** to the two wallets and to the two transaction rows, and the
earnings it records in the creator's `CallHistory`. -/
theorem attempt_spec (h : attempt inp f t db = (t', some db')) :
    (∃ p p', db.payer = some p ∧ db'.payer = some p' ∧
      p'.coins = p.coins - (inp.targetWalletDebit - db.debitTxn.getD 0)) ∧
    db'.creator = db.creator ∧
    db'.debitTxn =
      (if 0 < inp.targetWalletDebit then some inp.targetWalletDebit else db.debitTxn) ∧
    (db'.creatorUser, db'.creditTxn) =
      creditEffect f.swallowed t db.creator db.creatorUser db.creditTxn ∧
    (db.creator.isSome → ∃ row, db'.creatorHistory = some row ∧ row.coinsEarned = t') := by
  obtain ⟨p, hp, ht', hdb'⟩ := attempt_committed h
  obtain ⟨hi₁, hi₂, hi₃, hi₄, hi₅⟩ := consumeIntroPromo_frame inp (debitUser inp p db)
  obtain ⟨hc₁, hc₂, hc₃, hc₄⟩ :=
    creditCreator_effect f t (consumeIntroPromo inp (debitUser inp p db))
  rw [hi₂, hi₃, hi₅] at hc₄
  have hcreator : (creditCreator f t (consumeIntroPromo inp (debitUser inp p db))).2.creator =
      db.creator := hc₂.trans hi₂
  subst hdb'
  refine ⟨?_, hcreator, hc₃.trans hi₄, hc₄, fun hs => ?_⟩
  · have hcoins : (creditCreator f t (consumeIntroPromo inp (debitUser inp p db))).2.payer.map
        Payer.coins = some (p.coins - (inp.targetWalletDebit - db.debitTxn.getD 0)) := by
      rw [hc₁, hi₁]
      rfl
    obtain ⟨p', hp', hcoins'⟩ := Option.map_eq_some_iff.1 hcoins
    exact ⟨p, p', hp, hp', hcoins'⟩
  · simp [upsertHistories, hcreator, hs]

end attempt

/-! ### The loop -/

theorem settleAttempts_committing {inp : SettleInput} {fs : List Faults} {t t' : ℕ}
    {db db' : SettleDb} (h : settleAttempts inp fs t db = some (t', db')) :
    ∃ v f, committing inp fs t db = some (v, f) ∧ attempt inp f v db = (t', some db') := by
  induction fs generalizing t with
  | nil => cases h
  | cons f fs ih =>
    unfold settleAttempts at h
    unfold committing
    cases ha : attempt inp f t db with
    | mk v r =>
      simp only [ha] at h
      cases r with
      | some d =>
        simp only [Option.some.injEq, Prod.mk.injEq] at h
        exact ⟨t, f, rfl, by rw [ha, h.1, h.2]⟩
      | none =>
        simp only at h
        split at h
        · cases h
        · rename_i htr
          obtain ⟨v', f', hc, hatt⟩ := ih h
          exact ⟨v', f', by simp only [if_neg htr, hc], hatt⟩

theorem settleTransaction_eq_none {inp : SettleInput} {fs : List Faults} {db : SettleDb} :
    settleTransaction inp fs db = none ↔
      committing inp (fs.take settlementTxnMaxAttempts) inp.targetCredit db = none := by
  unfold settleTransaction
  generalize fs.take settlementTxnMaxAttempts = gs
  generalize inp.targetCredit = t
  induction gs generalizing t with
  | nil => exact ⟨fun _ => rfl, fun _ => rfl⟩
  | cons f gs ih =>
    grind [settleAttempts, committing]

end VibemeetBackend.Billing
