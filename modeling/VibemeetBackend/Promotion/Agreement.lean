import VibemeetBackend.Async.Trace
import VibemeetBackend.Promotion.Starter

/-!
# Wallet and ledger after a promotion
-/

namespace VibemeetBackend.Promotion

open Async Ledger Mongo

/-! ### The row of a promotion -/

section rows

variable {userId : String} {s : Store} {rows : List CoinTransaction}

theorem getCompletedLedgerBalance_eq (userId : String) (rows : List CoinTransaction) :
    getCompletedLedgerBalance userId rows = net rows userId := by
  induction rows with
  | nil => rfl
  | cons row rows ih =>
    rw [net_cons, ← ih]
    unfold getCompletedLedgerBalance total CoinTransaction.signed
    by_cases h : row.userId = userId ∧ row.status = .completed
    · cases htype : row.type <;> simp [h, htype] <;> omega
    · have hcond : (row.userId == userId && row.status == .completed) = false := by simpa using h
      rw [if_neg h]
      simp [hcond]

theorem walletClearedRow_signed (userId : String) (ledgerBalance : ℤ) :
    (walletClearedRow userId ledgerBalance).signed = -ledgerBalance := by
  unfold CoinTransaction.signed walletClearedRow
  by_cases h : 0 < ledgerBalance
  · simp only [if_pos h]
    omega
  · simp only [if_neg h]
    omega

theorem balance_cleared (userId : String) (s : Store) :
    getCompletedLedgerBalance userId (ensureCreatorPromotionWalletClearedEntry userId s).rows =
      if s.has (creatorPromotionWalletClearTransactionId userId) then
        getCompletedLedgerBalance userId s.rows
      else 0 := by
  unfold ensureCreatorPromotionWalletClearedEntry
  split
  · rfl
  · dsimp only
    split
    · rename_i h
      exact h
    · rw [getCompletedLedgerBalance_eq, getCompletedLedgerBalance_eq, net_append, net_cons, net_nil,
        walletClearedRow_signed, if_pos ⟨rfl, rfl⟩]
      omega

theorem ensure_coins : (ensureCreatorPromotionWalletClearedEntry userId s).coins = s.coins := by
  unfold ensureCreatorPromotionWalletClearedEntry
  split
  · rfl
  · dsimp only
    split <;> rfl

theorem ensure_profile : (ensureCreatorPromotionWalletClearedEntry userId s).profile = s.profile := by
  unfold ensureCreatorPromotionWalletClearedEntry
  split
  · rfl
  · dsimp only
    split <;> rfl

theorem move_profile (row : CoinTransaction) : (s.move userId row).profile = s.profile := by
  unfold Store.move
  split <;> rfl

theorem moves_profile (between : List CoinTransaction) (s : Store) :
    (between.foldl (Store.move userId) s).profile = s.profile := by
  induction between generalizing s with
  | nil => rfl
  | cons row between ih =>
    rw [List.foldl_cons, ih, move_profile]

end rows

/-! ### One promotion -/

section promotion

variable {userId : String} {entry : Entry} {m m' : UserDoc} {s : Store}

theorem createProfile_ensured (hprofile : s.profile = false) :
    createProfile (ensureCreatorPromotionWalletClearedEntry userId s) =
      .ok { ensureCreatorPromotionWalletClearedEntry userId s with profile := true } := by
  unfold createProfile
  rw [ensure_profile, hprofile]
  rfl

def savedStore (entry : Entry) (m : UserDoc) (s : Store) : Store :=
  { s with
    coins := (m.coins.set 0).write s.coins
    role := (m.role.set (entry.role m.role.value)).write s.role }

def savedDoc (entry : Entry) (m : UserDoc) : UserDoc where
  coins := (m.coins.set 0).saved
  role := (m.role.set (entry.role m.role.value)).saved

theorem runSteps_promotion (hprofile : s.profile = false) :
    runSteps (entry.steps userId) m s = .ok (savedDoc entry m,
      { ensureCreatorPromotionWalletClearedEntry userId (savedStore entry m s) with
        profile := true }) := by
  have hcreate : createProfile (ensureCreatorPromotionWalletClearedEntry userId
      (savedStore entry m s)) = _ := createProfile_ensured hprofile
  show Except.bind (createProfile (ensureCreatorPromotionWalletClearedEntry userId
    (savedStore entry m s))) _ = _
  rw [hcreate]
  rfl

theorem abortSteps_promotion (userId : String) (entry : Entry) (m : UserDoc)
    (hprofile : s.profile = false) (cut : ℕ) :
    ∃ m', abortSteps (entry.steps userId) cut m s = .ok m' ∧
      m'.coins = if cut = 0 then m.coins.set 0 else (m.coins.set 0).saved := by
  match cut with
  | 0 => exact ⟨_, rfl, rfl⟩
  | 1 => exact ⟨_, rfl, rfl⟩
  | 2 => exact ⟨_, rfl, rfl⟩
  | 3 => exact ⟨_, rfl, rfl⟩
  | cut + 4 =>
    refine ⟨savedDoc entry m, ?_, rfl⟩
    have hcreate : createProfile (ensureCreatorPromotionWalletClearedEntry userId
        (savedStore entry m s)) = _ := createProfile_ensured hprofile
    show Except.bind (createProfile (ensureCreatorPromotionWalletClearedEntry userId
      (savedStore entry m s))) _ = _
    rw [hcreate]
    rfl

/-- The wallet that the last attempt saves: an attempt that got past its save leaves nothing to
save. -/
theorem abortAll_promotion (userId : String) (entry : Entry) (hprofile : s.profile = false)
    (aborted : List ℕ) (m : UserDoc) :
    ∃ m', abortAll (fun (_ : Unit) _ => entry.steps userId) (aborted.map fun cut => ((), cut)) m s =
      .ok m' ∧ m'.coins.set 0 = if ∀ cut ∈ aborted, cut = 0 then m.coins.set 0 else ⟨0, false⟩ := by
  induction aborted generalizing m with
  | nil => exact ⟨m, rfl, (if_pos fun cut h => nomatch h).symm⟩
  | cons cut aborted ih =>
    obtain ⟨m₁, hone, hcoins⟩ := abortSteps_promotion userId entry m hprofile cut
    obtain ⟨m', hall, hlast⟩ := ih m₁
    refine ⟨m', ?_, ?_⟩
    · show Except.bind (abortSteps (entry.steps userId) cut m s) _ = _
      rw [hone]
      exact hall
    · rw [hlast, hcoins]
      by_cases hcut : cut = 0
      · have hagain : (m.coins.set 0).set 0 = m.coins.set 0 :=
          DocField.set_same (DocField.set_value _ _).symm
        rw [if_pos hcut, hagain]
        simp [hcut]
      · have hclean : ((m.coins.set 0).saved).set 0 = ⟨0, false⟩ := by
          rw [DocField.set_same (by simp)]
          show (⟨(m.coins.set 0).value, false⟩ : DocField ℤ) = _
          rw [DocField.set_value]
        simp_all

theorem write_cleared (loaded stored : ℤ) :
    ((DocField.load loaded).set 0).write stored = if loaded = 0 then stored else 0 := by
  by_cases h : loaded = 0
  · rw [if_pos h, DocField.set_same (h.symm : (0 : ℤ) = (DocField.load loaded).value)]
    rfl
  · rw [if_neg h, DocField.write_set (Ne.symm h)]

def Cleared (entry : Entry) (loaded : ℤ) : Prop := loaded ≠ 0 ∧ ∀ cut ∈ entry.aborted, cut = 0

instance (entry : Entry) (loaded : ℤ) : Decidable (Cleared entry loaded) := by
  unfold Cleared
  infer_instance

/-- **A promotion.** -/
theorem promote_spec (userId : String) (entry : Entry) (between : List CoinTransaction) {s t : Store}
    (ht : between.foldl (Store.move userId) s = t) (hprofile : s.profile = false) :
    ∃ t', promote userId entry between s = .ok t' ∧
      t'.coins = (if Cleared entry s.coins then 0 else t.coins) ∧
      getCompletedLedgerBalance userId t'.rows =
        if t.has (creatorPromotionWalletClearTransactionId userId) then
          getCompletedLedgerBalance userId t.rows
        else 0 := by
  have hprofile' : t.profile = false := by
    rw [← ht, moves_profile, hprofile]
  obtain ⟨m', hall, hcoins⟩ := abortAll_promotion userId entry hprofile' entry.aborted
    ⟨.load s.coins, .load s.role⟩
  refine ⟨{ ensureCreatorPromotionWalletClearedEntry userId (savedStore entry m' t) with
    profile := true }, ?_, ?_, ?_⟩
  · unfold promote withTransaction
    rw [hprofile, ht]
    show Except.map Prod.snd (Except.bind (abortAll _ _ _ _) _) = _
    rw [hall]
    show Except.map Prod.snd (runSteps _ _ _) = _
    rw [runSteps_promotion hprofile']
    rfl
  · show (ensureCreatorPromotionWalletClearedEntry userId (savedStore entry m' t)).coins = _
    rw [ensure_coins]
    show (m'.coins.set 0).write t.coins = _
    rw [hcoins]
    by_cases hcuts : ∀ cut ∈ entry.aborted, cut = 0
    · rw [if_pos hcuts, write_cleared]
      by_cases hzero : s.coins = 0
      · have hcleared : ¬Cleared entry s.coins := fun h => h.1 hzero
        rw [if_pos hzero, if_neg hcleared]
      · have hcleared : Cleared entry s.coins := ⟨hzero, hcuts⟩
        rw [if_neg hzero, if_pos hcleared]
    · have hcleared : ¬Cleared entry s.coins := fun h => hcuts h.2
      rw [if_neg hcuts, if_neg hcleared]
      rfl
  · exact balance_cleared userId (savedStore entry m' t)

end promotion

/-! ### Histories -/

structure Agrees (userId : String) (s : Store) : Prop where
  ledger : getCompletedLedgerBalance userId s.rows = s.coins
  zero : s.coins = 0

/-- What a step keeps: a promotion that succeeds leaves wallet and ledger in agreement. -/
def PromotionAgrees (userId : String) (s : Store) (e : Event) : Prop :=
  match e with
  | .promotion entry between => ∀ t, promote userId entry between s = .ok t → Agrees userId t
  | _ => True

/-- The promotions that do: the save clears the wallet, or finds it empty, and the row of an earlier
promotion finds the ledger at zero. -/
def Sound (userId : String) (s : Store) (e : Event) : Prop :=
  match e with
  | .promotion entry between =>
    s.profile = false →
      (Cleared entry s.coins ∨ (between.foldl (Store.move userId) s).coins = 0) ∧
      ((between.foldl (Store.move userId) s).has
          (creatorPromotionWalletClearTransactionId userId) = true →
        getCompletedLedgerBalance userId (between.foldl (Store.move userId) s).rows = 0)
  | _ => True

instance (userId : String) (s : Store) (e : Event) : Decidable (Sound userId s e) := by
  unfold Sound
  cases e <;> infer_instance

theorem agrees_iff (userId : String) (s : Store) (e : Event) :
    PromotionAgrees userId s e ↔ Sound userId s e := by
  cases e with
  | movement row => exact iff_of_true trivial trivial
  | deletion => exact iff_of_true trivial trivial
  | promotion entry between =>
    show (∀ t, promote userId entry between s = .ok t → Agrees userId t) ↔ (s.profile = false → _)
    cases hprofile : s.profile with
    | true =>
      apply iff_of_true
      · intro t h
        unfold promote at h
        simp [hprofile] at h
      · intro h
        cases h
    | false =>
      obtain ⟨t', hpromote, hcoins, hledger⟩ := promote_spec userId entry between rfl hprofile
      have hthis : (∀ t, promote userId entry between s = .ok t → Agrees userId t) ↔
          t'.coins = 0 ∧ getCompletedLedgerBalance userId t'.rows = 0 := by
        constructor
        · intro h
          have hagrees := h t' hpromote
          exact ⟨hagrees.zero, hagrees.ledger.trans hagrees.zero⟩
        · rintro ⟨hzero, hnet⟩ t ht
          obtain rfl := Except.ok.inj (hpromote.symm.trans ht)
          exact ⟨hnet.trans hzero.symm, hzero⟩
      rw [hthis, hcoins, hledger]
      by_cases hcleared : Cleared entry s.coins <;> simp [hcleared]

/-- **Wallet and ledger agree** after every promotion of exactly the histories whose promotions are
sound. -/
theorem promotions_agree_iff (userId : String) (s : Store) (es : List Event) :
    (∀ e ∈ stepLog (Event.next userId) s es, PromotionAgrees userId e.1 e.2) ↔
      ∀ e ∈ stepLog (Event.next userId) s es, Sound userId e.1 e.2 :=
  forall₂_congr fun e _ => agrees_iff userId e.1 e.2

/-! ### Samples -/

def newUser : Store := ⟨0, .user, false, []⟩

def credit (transactionId : String) (coins : ℕ) : Event :=
  .movement ⟨transactionId, "u", .credit, coins, "payment", "", .completed⟩

/-- A second promotion, after more coins. -/
def promotedTwice : List Event :=
  [credit "p1" 10, .promotion .createCreator [], .deletion, credit "p2" 5,
    .promotion .createCreator []]

theorem promotedTwice_disagrees :
    (runFrom (Event.next "u") newUser promotedTwice).coins = 0 ∧
      getCompletedLedgerBalance "u" (runFrom (Event.next "u") newUser promotedTwice).rows = 5 ∧
      ¬∀ e ∈ stepLog (Event.next "u") newUser promotedTwice, PromotionAgrees "u" e.1 e.2 := by
  refine ⟨by decide +kernel, by decide +kernel, ?_⟩
  intro h
  simp only [promotedTwice, forall_stepLog_cons] at h
  have hlast := (agrees_iff _ _ _).1 h.2.2.2.2.1
  revert hlast
  decide +kernel

end VibemeetBackend.Promotion
