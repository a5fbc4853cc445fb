import VibemeetBackend.MomentPurchase.Admin

/-!
# Wallets and the ledger rows that move them

A regrant or refund moves wallets by assigning to documents that were loaded before its transaction,
and writes ledger rows of its own.
-/

namespace VibemeetBackend.MomentPurchases

open Ledger Mongo

/-- Each wallet moves by the completed rows of its user that were created. -/
def LedgerExact (s s' : Store) : Prop :=
  ∃ created, s'.rows = s.rows ++ created ∧
    ∀ userId coins, s.coins userId = some coins →
      ∃ coins', s'.coins userId = some coins' ∧ (coins' : ℤ) = coins + net created userId

theorem LedgerExact.refl (s : Store) : LedgerExact s s := by
  refine ⟨[], (List.append_nil _).symm, ?_⟩
  intro userId coins hcoins
  exact ⟨coins, hcoins, (add_zero _).symm⟩

theorem ok_of_required {α : Type} {message : String} {o : Option α} {a : α}
    (h : required message o = .ok a) : o = some a := by
  cases o with
  | none => cases h
  | some b => exact congrArg some (Except.ok.inj h)

theorem ok_of_bind {α β : Type} {x : Except String α} {f : α → Except String β} {b : β}
    (h : x >>= f = .ok b) : ∃ a, x = .ok a ∧ f a = .ok b := by
  cases x with
  | error e => cases h
  | ok a => exact ⟨a, rfl, h⟩

/-! ### Saves of two wallets -/

section posted

variable {s s' s'' : Store} {f f₀ f₁ : DocField ℤ} {ids : Parties}

theorem ok_of_saveCoins {userId : String} (h : s.saveCoins userId f = .ok s') :
    (f.modified = true → 0 ≤ f.value) ∧
      s' = { s with
        coins := fun id =>
          if id = userId then (s.coins id).map fun c => (f.write c).toNat else s.coins id } := by
  unfold Store.saveCoins at h
  split at h
  · cases h
  · rename_i hvalid
    refine ⟨?_, (Except.ok.inj h).symm⟩
    intro hmodified
    by_contra hneg
    exact hvalid ⟨hmodified, not_le.1 hneg⟩

theorem ok_of_saveEarnings {creatorId : String} (h : s.saveEarnings creatorId f = .ok s') :
    ∃ creators, s' = { s with creators } := by
  unfold Store.saveEarnings at h
  split at h
  · cases h
  · exact ⟨_, (Except.ok.inj h).symm⟩

theorem ok_of_createRow {transactionId userId source description : String} {type : TxType}
    {coins : ℤ} (h : s.createRow transactionId userId type coins source description = .ok s') :
    0 ≤ coins ∧ s' = { s with
      rows := s.rows ++
        [⟨transactionId, userId, type, coins.toNat, source, description, .completed⟩] } := by
  unfold Store.createRow at h
  cases hrows : create s.rows transactionId userId type coins source description with
  | error e =>
    rw [hrows] at h
    cases h
  | ok rows =>
    rw [hrows] at h
    obtain ⟨hcoins, rfl⟩ := ok_of_create hrows
    exact ⟨hcoins, (Except.ok.inj h).symm⟩

theorem ok_of_createRevenue {id purchaseId momentId creatorId buyerUserId : String} {gross : ℕ}
    {creatorShare : ℤ} (h : s.createRevenue id purchaseId momentId creatorId buyerUserId gross
      creatorShare = .ok s') :
    0 ≤ creatorShare ∧ creatorShare ≤ gross ∧ ∃ revenues, s' = { s with revenues } := by
  grind [Store.createRevenue]

def savedCoins (coins : String → Option ℕ) (userId : String) (f : DocField ℤ) :
    String → Option ℕ := fun id =>
  if id = userId then (coins id).map fun c => (f.write c).toNat else coins id

theorem write_nonneg (hf : f.modified = true → 0 ≤ f.value) (c : ℕ) : 0 ≤ f.write c := by
  unfold DocField.write
  split
  · rename_i h
    exact hf h
  · exact Int.natCast_nonneg c

/-- **Two wallets and two rows.**  The rows move each of two wallets as they are saved, or the one
wallet of both. -/
theorem posted_iff {row₀ row₁ : CoinTransaction} {coins₀ coins₁ : ℕ}
    (hcoins₀ : s.coins ids.buyerId = some coins₀)
    (hcoins₁ : s.coins ids.creatorUserId = some coins₁)
    (hf₀ : f₀.modified = true → 0 ≤ f₀.value) (hf₁ : f₁.modified = true → 0 ≤ f₁.value)
    (hcoins : s'.coins = savedCoins (savedCoins s.coins ids.buyerId f₀) ids.creatorUserId f₁)
    (hrows : s'.rows = s.rows ++ [row₀, row₁])
    (hrow₀ : row₀.userId = ids.buyerId ∧ row₀.status = .completed)
    (hrow₁ : row₁.userId = ids.creatorUserId ∧ row₁.status = .completed) :
    LedgerExact s s' ↔
      if ids.buyerId = ids.creatorUserId then
        f₁.write (f₀.write coins₀) = coins₀ + row₀.signed + row₁.signed
      else f₀.write coins₀ = coins₀ + row₀.signed ∧ f₁.write coins₁ = coins₁ + row₁.signed := by
  have hnet : ∀ userId, net [row₀, row₁] userId =
      (if ids.buyerId = userId then row₀.signed else 0) +
        if ids.creatorUserId = userId then row₁.signed else 0 := by
    intro userId
    simp [net_cons, hrow₀.1, hrow₁.1, hrow₀.2, hrow₁.2]
  have hexact : LedgerExact s s' ↔ ∀ userId coins, s.coins userId = some coins →
      ∃ coins', s'.coins userId = some coins' ∧
        (coins' : ℤ) = coins + net [row₀, row₁] userId := by
    constructor
    · rintro ⟨created, hcreated, hwallets⟩
      obtain rfl : [row₀, row₁] = created := List.append_cancel_left (hrows.symm.trans hcreated)
      exact hwallets
    · intro hwallets
      exact ⟨_, hrows, hwallets⟩
  rw [hexact]
  have hnonneg₀ := write_nonneg hf₀ coins₀
  have htwice : (((f₀.write coins₀).toNat : ℕ) : ℤ) = f₀.write coins₀ :=
    Int.toNat_of_nonneg hnonneg₀
  split
  · -- one wallet is saved twice
    rename_i hsame
    have hafter : s'.coins ids.buyerId = some (f₁.write (f₀.write coins₀)).toNat := by
      rw [hcoins, savedCoins, if_pos hsame, savedCoins, if_pos rfl, hcoins₀]
      show some (f₁.write ((f₀.write coins₀).toNat : ℕ)).toNat = _
      rw [htwice]
    have hnonneg : 0 ≤ f₁.write (f₀.write coins₀) := by
      rw [← htwice]
      exact write_nonneg hf₁ _
    constructor
    · intro hwallets
      obtain ⟨coins', hcoins', heq⟩ := hwallets _ _ hcoins₀
      obtain rfl := Option.mem_unique hafter hcoins'
      rw [hnet, if_pos rfl, if_pos hsame.symm, Int.toNat_of_nonneg hnonneg] at heq
      rw [heq, add_assoc]
    · intro heq userId coins huser
      by_cases hbuyer : userId = ids.buyerId
      · subst hbuyer
        obtain rfl := Option.mem_unique hcoins₀ huser
        refine ⟨_, hafter, ?_⟩
        rw [hnet, if_pos rfl, if_pos hsame.symm, Int.toNat_of_nonneg hnonneg, heq, add_assoc]
      · have hother : userId ≠ ids.creatorUserId := fun h => hbuyer (h.trans hsame.symm)
        refine ⟨coins, ?_, ?_⟩
        · simp [hcoins, savedCoins, hother, hbuyer, huser]
        · simp [hnet, (Ne.symm hbuyer), (Ne.symm hother)]
  · rename_i hne
    have hbuyer : s'.coins ids.buyerId = some (f₀.write coins₀).toNat := by
      simp [hcoins, savedCoins, hne, hcoins₀]
    have hcreator : s'.coins ids.creatorUserId = some (f₁.write coins₁).toNat := by
      simp [hcoins, savedCoins, (Ne.symm hne), hcoins₁]
    have hnonneg₁ := write_nonneg hf₁ coins₁
    constructor
    · intro hwallets
      obtain ⟨coins, hcoins, heq⟩ := hwallets _ _ hcoins₀
      obtain ⟨coins', hcoins', heq'⟩ := hwallets _ _ hcoins₁
      obtain rfl := Option.mem_unique hbuyer hcoins
      obtain rfl := Option.mem_unique hcreator hcoins'
      grind
    · rintro ⟨heq, heq'⟩ userId coins huser
      by_cases hisBuyer : userId = ids.buyerId
      · subst hisBuyer
        obtain rfl := Option.mem_unique hcoins₀ huser
        refine ⟨_, hbuyer, ?_⟩
        rw [hnet, if_pos rfl, if_neg (Ne.symm hne), htwice, heq, add_zero]
      by_cases hisCreator : userId = ids.creatorUserId
      · subst hisCreator
        obtain rfl := Option.mem_unique hcoins₁ huser
        refine ⟨_, hcreator, ?_⟩
        rw [hnet, if_neg hne, if_pos rfl, Int.toNat_of_nonneg hnonneg₁, heq', zero_add]
      · refine ⟨coins, ?_, ?_⟩
        · simp [hcoins, savedCoins, hisCreator, hisBuyer, huser]
        · simp [hnet, (Ne.symm hisBuyer), (Ne.symm hisCreator)]

end posted

end VibemeetBackend.MomentPurchases
