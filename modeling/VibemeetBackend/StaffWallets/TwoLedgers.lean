import VibemeetBackend.Async.Trace
import VibemeetBackend.StaffWallets.Operations

/-!
# Two wallets, two ledgers

Sequences of complete operations on the wallets of the staff, and of the repairs.  The gap of a wallet
is its balance minus what its own ledger says.
-/

namespace VibemeetBackend.StaffWallets

open Async
open Staff (Direction StaffWalletLedger Share ReconcileConfig)

variable {s t : Store} {userId : String}

/-! ### Gaps -/

def Store.coinGap (s : Store) (userId : String) : Option ℤ :=
  (s.users.get userId).map fun d => d.coins - s.coinNet userId

def Store.staffGap (s : Store) (userId : String) : Option ℤ :=
  (s.users.get userId).map fun d => d.staffCoinsBalance - s.staffNet userId

def share (owner userId : String) (n : ℤ) : ℤ := if owner = userId then n else 0

theorem map_add_zero (v : Option ℤ) : (v.map fun x => x + 0) = v := by
  simp only [add_zero, Option.map_id']

variable {f : User → User}

theorem gap_update (hid : ∀ d, (f d).id = d.id) (wallet : User → ℕ) (v n : ℤ) (owner : String)
    (hn : ∀ d, s.users.get owner = some d → (wallet (f d) : ℤ) = wallet d + n) :
    (((s.users.update owner f).get userId).map fun d => (wallet d : ℤ) - v) =
      ((s.users.get userId).map fun d => (wallet d : ℤ) - v).map fun x => x + share owner userId n := by
  rw [Mongo.Unique.get_update hid, share]
  split
  · rename_i h
    subst h
    cases hd : s.users.get owner with
    | none => rfl
    | some d =>
      show some ((wallet (f d) : ℤ) - v) = some ((wallet d : ℤ) - v + n)
      rw [hn d hd]
      congr 1
      omega
  · rw [map_add_zero]

theorem gap_kept (hid : ∀ d, (f d).id = d.id) (wallet : User → ℕ) (owner : String)
    (userId : String) (v : ℤ) (hf : ∀ d, wallet (f d) = wallet d) :
    (((s.users.update owner f).get userId).map fun d => (wallet d : ℤ) - v) =
      (s.users.get userId).map fun d => (wallet d : ℤ) - v := by
  rw [gap_update hid wallet v 0 owner fun d _ => by rw [hf, add_zero], share, ite_self,
    map_add_zero]

theorem toNat_add {m : ℕ} {n : ℤ} (h : 0 ≤ (m : ℤ) + n) : (((m + n).toNat : ℕ) : ℤ) = m + n :=
  Int.toNat_of_nonneg h

variable {owner : String}

theorem coinGap_addCoins {n : ℤ} (h : ∀ d, s.users.get owner = some d → 0 ≤ (d.coins : ℤ) + n) :
    (s.addCoins owner n).coinGap userId = (s.coinGap userId).map fun x => x + share owner userId n :=
  gap_update (f := fun d => { d with coins := (d.coins + n).toNat }) (fun _ => rfl) User.coins _ n
    owner fun d hd => toNat_add (h d hd)

theorem staffGap_addStaff {n : ℤ}
    (h : ∀ d, s.users.get owner = some d → 0 ≤ (d.staffCoinsBalance : ℤ) + n) :
    (s.addStaff owner n).staffGap userId =
      (s.staffGap userId).map fun x => x + share owner userId n :=
  gap_update (f := fun d => { d with staffCoinsBalance := (d.staffCoinsBalance + n).toNat })
    (fun _ => rfl) User.staffCoinsBalance _ n owner fun d hd => toNat_add (h d hd)

theorem staffGap_addCoins (owner : String) (n : ℤ) :
    (s.addCoins owner n).staffGap userId = s.staffGap userId :=
  gap_kept (f := fun d => { d with coins := (d.coins + n).toNat }) (fun _ => rfl)
    User.staffCoinsBalance owner userId _ fun _ => rfl

theorem coinGap_addStaff (owner : String) (n : ℤ) :
    (s.addStaff owner n).coinGap userId = s.coinGap userId :=
  gap_kept (f := fun d => { d with staffCoinsBalance := (d.staffCoinsBalance + n).toNat })
    (fun _ => rfl) User.coins owner userId _ fun _ => rfl

theorem coinGap_createTransaction {row : CoinTransaction} (hcompleted : row.completed = true)
    (hnew : s.coinLedger.get row.transactionId = none) :
    (s.createTransaction row).coinGap userId =
      (s.coinGap userId).map fun x => x - share row.userId userId (signed row.type row.coins) := by
  have hnet : (s.createTransaction row).coinNet userId =
      s.coinNet userId + share row.userId userId (signed row.type row.coins) := by
    simp [Store.coinNet, Store.createTransaction, Mongo.Unique.insert_rows hnew, net_snoc,
      hcompleted, share]
  rw [Store.coinGap, hnet, Store.coinGap, Option.map_map]
  congr 1
  funext d
  show (d.coins : ℤ) - (s.coinNet userId + _) = d.coins - s.coinNet userId - _
  omega

theorem staffGap_createLedgerRow {row : StaffWalletLedger}
    (hnew : s.staffLedger.get row.idempotencyKey = none) :
    (s.createLedgerRow row).staffGap userId = (s.staffGap userId).map fun x =>
      x - share row.staffUserId userId (signed row.direction row.amountCoins) := by
  have hnet : (s.createLedgerRow row).staffNet userId =
      s.staffNet userId + share row.staffUserId userId (signed row.direction row.amountCoins) := by
    simp [Store.staffNet, Store.createLedgerRow, Mongo.Unique.insert_rows hnew, net_snoc, share]
  rw [Store.staffGap, hnet, Store.staffGap, Option.map_map]
  congr 1
  funext d
  show (d.staffCoinsBalance : ℤ) - (s.staffNet userId + _) =
    d.staffCoinsBalance - s.staffNet userId - _
  omega

theorem map_add_sub (v : Option ℤ) (n : ℤ) : ((v.map fun x => x + n).map fun x => x - n) = v := by
  rw [Option.map_map]
  have hid : ((fun x : ℤ => x - n) ∘ fun x => x + n) = id := by
    funext x
    show x + n - n = x
    omega
  rw [hid, Option.map_id]
  rfl

/-! ### What keeps the gaps -/

/-- Both gaps of every user are the same. -/
structure Kept (s t : Store) : Prop where
  coins : ∀ userId, t.coinGap userId = s.coinGap userId
  staff : ∀ userId, t.staffGap userId = s.staffGap userId

theorem Kept.refl (s : Store) : Kept s s := ⟨fun _ => rfl, fun _ => rfl⟩

theorem Kept.trans {u : Store} (h : Kept s t) (h' : Kept t u) : Kept s u :=
  ⟨fun userId => (h'.coins userId).trans (h.coins userId),
    fun userId => (h'.staff userId).trans (h.staff userId)⟩

theorem Kept.of_eq (husers : t.users = s.users) (hcoins : t.coinLedger = s.coinLedger)
    (hstaff : t.staffLedger = s.staffLedger) : Kept s t := by
  constructor
  · intro userId
    rw [Store.coinGap, Store.coinNet, husers, hcoins]
    rfl
  · intro userId
    rw [Store.staffGap, Store.staffNet, husers, hstaff]
    rfl

theorem edit_kept (s : Store) (owner : String) (e : ProfileEdit) : Kept s (s.edit owner e) := by
  constructor
  · intro userId
    exact gap_kept e.id User.coins owner userId _ e.coins
  · intro userId
    exact gap_kept e.id User.staffCoinsBalance owner userId _ e.staffCoinsBalance

theorem credit_kept {row : CoinTransaction} {n : ℤ} (hsigned : signed row.type row.coins = n)
    (hcompleted : row.completed = true) (hnew : s.coinLedger.get row.transactionId = none)
    (h : ∀ d, s.users.get row.userId = some d → 0 ≤ (d.coins : ℤ) + n) :
    Kept s ((s.createTransaction row).addCoins row.userId n) := by
  constructor
  · intro userId
    have hget : ∀ d, (s.createTransaction row).users.get row.userId = some d →
        0 ≤ (d.coins : ℤ) + n := h
    rw [coinGap_addCoins hget, coinGap_createTransaction hcompleted hnew, hsigned, Option.map_map]
    have hid : ((fun x : ℤ => x + share row.userId userId n) ∘
        fun x => x - share row.userId userId n) = id := by
      funext x
      show x - _ + _ = x
      omega
    rw [hid, Option.map_id]
    rfl
  · intro userId
    rw [staffGap_addCoins]
    rfl

/-! ### Settlement -/

theorem creditStaff_kept (s : Store) (p : Share) : Kept s (creditStaff s p) := by
  unfold creditStaff
  split
  · exact .refl s
  split
  · exact .refl s
  rename_i hkey
  rw [Bool.not_eq_true, Option.isSome_eq_false_iff, Option.isNone_iff_eq_none] at hkey
  constructor
  · intro userId
    show (s.addStaff p.staffUserId p.coins).coinGap userId = _
    rw [coinGap_addStaff]
  · intro userId
    have hnew : (s.addStaff p.staffUserId p.coins).staffLedger.get p.row.idempotencyKey = none := hkey
    rw [staffGap_createLedgerRow hnew, staffGap_addStaff]
    · exact map_add_sub _ _
    · intro d _
      omega

theorem settleStaff_kept (s : Store) (q : SettleRequest) : Kept s (settleStaff s q) := by
  unfold settleStaff
  split
  · exact .refl s
  split
  · exact .refl s
  split
  · split
    · exact .refl s
    split
    · exact .refl s
    · apply Kept.trans _ (creditStaff_kept _ _)
      unfold creditBd
      split
      · exact .refl s
      · exact creditStaff_kept s _
  · exact .refl s

/-! ### Referrals -/

theorem grantEdge_kept (s : Store) (referredUserId : String) : Kept s (grantEdge s referredUserId) :=
  .of_eq rfl rfl rfl

theorem ensureReferralEdge_kept (s : Store) (referredUserId : String) :
    Kept s (ensureReferralEdgeForReferredUser s referredUserId) := by
  unfold ensureReferralEdgeForReferredUser
  split
  · dsimp only
    split
    · exact grantEdge_kept s referredUserId
    · exact .refl s
  · split
    · exact .refl s
    split
    · exact .refl s
    split
    · exact .refl s
    · exact .of_eq rfl rfl rfl

theorem grantReward_kept {q : ReferralRequest} {referrer : User}
    (hnew : s.coinLedger.get (referralRewardTransactionId referrer.id q.referredUserId) = none) :
    Kept s (grantReward s q referrer).1 := by
  unfold grantReward
  split
  · exact .refl s
  · -- the row comes after the update of the wallet, which does not matter to the store
    let row : CoinTransaction := ⟨referralRewardTransactionId referrer.id q.referredUserId,
      referrer.id, .credit, q.rewardCoins, true⟩
    let s' := s.edit referrer.id (grantReferral q.referredUserId)
    have hcredit : Kept s' ((s'.createTransaction row).addCoins row.userId q.rewardCoins) := by
      apply credit_kept
      · rfl
      · rfl
      · exact hnew
      · intro d _
        omega
    exact (edit_kept s _ _).trans (hcredit.trans (.of_eq rfl rfl rfl))

theorem referralReward_kept (s : Store) (q : ReferralRequest) :
    Kept s (processReferralRewardOnPurchase s q).1 := by
  unfold processReferralRewardOnPurchase
  split
  · exact .refl s
  dsimp only
  have hedge := ensureReferralEdge_kept s q.referredUserId
  split
  · exact hedge
  split
  · exact hedge
  split
  · exact hedge.trans ((edit_kept _ _ _).trans (grantEdge_kept _ _))
  · rename_i hrow
    rw [Bool.not_eq_true, Option.isSome_eq_false_iff, Option.isNone_iff_eq_none] at hrow
    exact hedge.trans (grantReward_kept hrow)

/-! ### Transfers -/

theorem txnId_ne (suffix : String) : debitTxnId suffix ≠ creditTxnId suffix := by
  intro h
  have hchar : ∀ front : String, (front ++ suffix).toList.take front.toList.length = front.toList := by
    intro front
    rw [String.toList_append, List.take_left']
    rfl
  have hlist := congrArg (fun t => t.toList.take 26) h
  have hout := congrArg (List.take 26) (hchar "referral_reward_transfer_out_")
  have hin := congrArg (List.take 26) (hchar "referral_reward_transfer_in_")
  rw [List.take_take] at hout hin
  exact absurd (hout.symm.trans (hlist.trans hin)) (by decide +kernel)

variable {q : TransferRequest}

theorem rewardMove_some {oldReferredBy : Option String} {rewardGranted : Bool} {oldRefId : String}
    (h : rewardMove s q oldReferredBy rewardGranted = .ok (some oldRefId)) :
    oldRefId ≠ q.targetAgencyId ∧
      ∃ d, s.users.get oldRefId = some d ∧ q.rewardCoins ≤ d.coins := by
  unfold rewardMove at h
  split at h
  · cases h
  split at h
  · cases h
  rename_i hmove
  split at h
  · cases h
  rename_i oldRef hold
  split at h
  · cases h
  split at h
  · cases h
  · rename_i hcoins
    obtain rfl := Option.some.inj (Except.ok.inj h)
    exact ⟨fun heq => hmove (.inr (.inr heq)), oldRef, hold, not_lt.1 hcoins⟩

theorem planTransfer_moves {p : TransferPlan} {oldRefId : String} (h : planTransfer s q = .ok p)
    (hmoves : p.movesFrom = some oldRefId) :
    oldRefId ≠ q.targetAgencyId ∧
      ∃ d, s.users.get oldRefId = some d ∧ q.rewardCoins ≤ d.coins := by
  unfold planTransfer at h
  split at h
  · cases h
  split at h
  · cases h
  split at h
  · cases h
  split at h
  · cases h
  split at h
  · cases h
  dsimp only at h
  split at h
  · cases h
  · rename_i hmove
    cases h
    obtain rfl : _ = some oldRefId := hmoves
    exact rewardMove_some hmove

def Store.coinsOf (s : Store) (userId : String) : Option ℕ := (s.users.get userId).map User.coins

theorem coinsOf_edit (s : Store) (owner : String) (e : ProfileEdit) (userId : String) :
    (s.edit owner e).coinsOf userId = s.coinsOf userId := by
  show ((s.users.update owner e.run).get userId).map User.coins = _
  rw [Mongo.Unique.get_update e.id]
  split
  · rw [Option.map_map]
    congr 1
    funext d
    exact e.coins d
  · rfl

/-- What is written before the reward moves. -/
structure Prepared (s t : Store) : Prop where
  kept : Kept s t
  coinsOf : ∀ userId, t.coinsOf userId = s.coinsOf userId

theorem Prepared.trans {u : Store} (h : Prepared s t) (h' : Prepared t u) : Prepared s u :=
  ⟨h.kept.trans h'.kept, fun userId => (h'.coinsOf userId).trans (h.coinsOf userId)⟩

theorem edit_prepared (s : Store) (owner : String) (e : ProfileEdit) :
    Prepared s (s.edit owner e) := ⟨edit_kept s owner e, coinsOf_edit s owner e⟩

theorem transferEdge_prepared (s : Store) (q : TransferRequest) (p : TransferPlan) :
    Prepared s (transferEdge s q p) := by
  unfold transferEdge
  split
  · exact ⟨.of_eq rfl rfl rfl, fun _ => rfl⟩
  · exact ⟨.of_eq rfl rfl rfl, fun _ => rfl⟩

theorem updateCreator_prepared (s : Store) (id : String) (f : Creator → Creator) :
    Prepared s (s.updateCreator id f) := ⟨.of_eq rfl rfl rfl, fun _ => rfl⟩

theorem transferReferrals_prepared (s : Store) (q : TransferRequest) (p : TransferPlan) :
    Prepared s (transferReferrals s q p) := by
  unfold transferReferrals
  split
  · exact (edit_prepared s _ _).trans (edit_prepared _ _ _)
  · exact (edit_prepared s _ _).trans ((edit_prepared _ _ _).trans (edit_prepared _ _ _))

theorem moveReward_kept {p : TransferPlan}
    (h : ∀ oldRefId, p.movesFrom = some oldRefId →
      ∀ d, s.users.get oldRefId = some d → q.rewardCoins ≤ d.coins) :
    Kept s (moveReward s q p).1 := by
  unfold moveReward
  split
  · exact .refl s
  rename_i oldRefId hmoves
  dsimp only
  split
  · exact .refl s
  rename_i hnew
  rw [not_or, Bool.not_eq_true, Bool.not_eq_true, Option.isSome_eq_false_iff,
    Option.isSome_eq_false_iff, Option.isNone_iff_eq_none, Option.isNone_iff_eq_none] at hnew
  -- each of the two rows goes with one of the two updates
  let debit : CoinTransaction :=
    ⟨debitTxnId (transferSuffix q p oldRefId), oldRefId, .debit, q.rewardCoins, true⟩
  let credit : CoinTransaction :=
    ⟨creditTxnId (transferSuffix q p oldRefId), q.targetAgencyId, .credit, q.rewardCoins, true⟩
  have hout : Kept s ((s.createTransaction debit).addCoins debit.userId (-q.rewardCoins)) := by
    apply credit_kept
    · rfl
    · rfl
    · exact hnew.1
    · intro d hd
      have hle := h oldRefId hmoves d hd
      omega
  have hfree : ((s.createTransaction debit).addCoins debit.userId (-q.rewardCoins)).coinLedger.get
      credit.transactionId = none := by
    show (s.coinLedger.insert debit).get credit.transactionId = none
    rw [Mongo.Unique.get_insert hnew.1, if_neg (txnId_ne _)]
    exact hnew.2
  have hin : Kept ((s.createTransaction debit).addCoins debit.userId (-q.rewardCoins))
      ((((s.createTransaction debit).addCoins debit.userId (-q.rewardCoins)).createTransaction
        credit).addCoins credit.userId q.rewardCoins) := by
    apply credit_kept
    · rfl
    · rfl
    · exact hfree
    · intro d _
      omega
  exact hout.trans hin

theorem transfer_kept (s : Store) (q : TransferRequest) :
    Kept s (transferCreatorToAgency s q).1 := by
  unfold transferCreatorToAgency
  split
  · exact .refl s
  · rename_i p hplan
    have hprepared : Prepared s (transferReferrals ((((transferEdge s q p).updateCreator p.creator.id
        fun c => { c with assignedAgencyId := some q.targetAgencyId }).edit p.creatorUserId
          (.referredBy q.targetAgencyId))) q p) :=
      (transferEdge_prepared s q p).trans ((updateCreator_prepared _ _ _).trans
        ((edit_prepared _ _ _).trans (transferReferrals_prepared _ q p)))
    apply hprepared.kept.trans
    apply Kept.trans (t := (moveReward _ q p).1)
    · apply moveReward_kept
      intro oldRefId hmoves d hd
      obtain ⟨-, d₀, hd₀, hle⟩ := planTransfer_moves hplan hmoves
      have hcoins := hprepared.coinsOf oldRefId
      rw [Store.coinsOf, Store.coinsOf, hd, hd₀] at hcoins
      have hcoins : d.coins = d₀.coins := Option.some.inj hcoins
      omega
    · exact .of_eq rfl rfl rfl

/-! ### Withdrawals -/

theorem finishPaid_kept (s : Store) (w : Withdrawal) (transactionId : String)
    (balances : Option (ℕ × ℕ)) : Kept s (finishPaid s w transactionId balances).1 :=
  .of_eq rfl rfl rfl

variable {w : Withdrawal}

theorem resolveWithdrawalCreatorUser_some {d : User}
    (h : resolveWithdrawalCreatorUser s w = some d) : s.users.get d.id = some d := by
  unfold resolveWithdrawalCreatorUser at h
  split at h
  · obtain ⟨-, rfl⟩ := Mongo.Unique.mem_of_get h
    exact h
  · exact Mongo.Unique.get_of_mem (List.mem_of_find?_eq_some h)
  · cases h

theorem debitCreator_kept {creatorUser : User} (uuid : String)
    (h : s.users.get creatorUser.id = some creatorUser) :
    Kept s (debitCreator s w creatorUser uuid).1 := by
  unfold debitCreator
  dsimp only
  split
  · exact .refl s
  rename_i hcoins
  split
  · exact .refl s
  rename_i hnew
  rw [Bool.not_eq_true, Option.isSome_eq_false_iff, Option.isNone_iff_eq_none] at hnew
  let row : CoinTransaction :=
    ⟨"withdrawal_" ++ w.id ++ "_" ++ uuid, creatorUser.id, .debit, w.amount, true⟩
  have hdebit : Kept s ((s.createTransaction row).addCoins row.userId (-w.amount)) := by
    apply credit_kept
    · rfl
    · rfl
    · exact hnew
    · intro d hd
      obtain rfl := Option.mem_unique h hd
      omega
  exact hdebit.trans (.of_eq rfl rfl rfl)

def debitsStaff (s : Store) (q : MarkPaidRequest) (w : Withdrawal) : Bool :=
  q.isAdmin && w.status == .approved && isSuperAdminRole q.actingRole && w.unpaid &&
    (s.coinLedger.get (staffTransactionId w q.randomUUID)).isNone &&
    ((w.staffUserId.bind s.users.get).any fun d => w.amount ≤ d.staffCoinsBalance)

def debited (s : Store) : Operation → Option Withdrawal
  | .markPaid q => (s.withdrawal q.withdrawalId).filter (debitsStaff s q)
  | _ => none

def PaysStaff (userId : String) (x : Store × Operation) : Prop :=
  ((debited x.1 x.2).any fun w => w.staffUserId == some userId) = true

instance (userId : String) (x : Store × Operation) : Decidable (PaysStaff userId x) :=
  inferInstanceAs (Decidable (_ = true))

structure Debited (s t : Store) (w : Withdrawal) (owner : String) : Prop where
  coins : ∀ userId, t.coinGap userId =
    (s.coinGap userId).map fun x => x + share owner userId w.amount
  staff : ∀ userId, userId ≠ owner → t.staffGap userId = s.staffGap userId

theorem debitStaff_debited {uuid : String} {d : User} (hd : s.users.get owner = some d)
    (hbalance : w.amount ≤ d.staffCoinsBalance)
    (hnew : s.coinLedger.get (staffTransactionId w uuid) = none) :
    Debited s (debitStaff s w owner uuid).1 w owner := by
  have hstep : Debited s ((s.createTransaction (staffDebitRow w owner uuid)).addStaff owner
      (-w.amount)) w owner := by
    constructor
    · intro userId
      rw [coinGap_addStaff, coinGap_createTransaction rfl hnew]
      congr 1
      funext x
      show x - share owner userId (-w.amount) = x + share owner userId w.amount
      unfold share
      split
      · omega
      · omega
    · intro userId hother
      rw [staffGap_addStaff, share, if_neg hother.symm, map_add_zero]
      · rfl
      · intro d' hd'
        obtain rfl := Option.mem_unique hd hd'
        omega
  unfold debitStaff
  rw [hd]
  dsimp only
  rw [if_neg (not_lt.2 hbalance), if_neg (by rw [hnew]; exact Bool.false_ne_true)]
  split
  · exact hstep
  · rename_i hkey
    rw [Bool.not_eq_true, Option.isSome_eq_false_iff, Option.isNone_iff_eq_none] at hkey
    refine ⟨hstep.coins, fun userId hother => ?_⟩
    rw [← hstep.staff userId hother]
    have hrow := @staffGap_createLedgerRow _ userId _ hkey
    have hshare : share (staffLedgerRow w owner).staffUserId userId
        (signed (staffLedgerRow w owner).direction (staffLedgerRow w owner).amountCoins) = 0 :=
      if_neg hother.symm
    rw [hshare] at hrow
    simp only [sub_zero, Option.map_id'] at hrow
    exact hrow

theorem debitStaff_refused {uuid : String}
    (h : ¬ ((s.coinLedger.get (staffTransactionId w uuid)).isNone = true ∧
      ∃ d, s.users.get owner = some d ∧ w.amount ≤ d.staffCoinsBalance)) :
    (debitStaff s w owner uuid).1 = s := by
  unfold debitStaff
  split
  · rfl
  rename_i d hd
  split
  · rfl
  rename_i hbalance
  split <;> simp_all

theorem debitsStaff_iff {q : MarkPaidRequest} :
    debitsStaff s q w = true ↔
      ((((q.isAdmin = true ∧ w.status = .approved) ∧ isSuperAdminRole q.actingRole = true) ∧
        w.unpaid = true) ∧ (s.coinLedger.get (staffTransactionId w q.randomUUID)).isNone = true) ∧
        ∃ owner d, w.staffUserId = some owner ∧ s.users.get owner = some d ∧
          w.amount ≤ d.staffCoinsBalance := by
  unfold debitsStaff
  rw [Bool.and_eq_true, Bool.and_eq_true, Bool.and_eq_true, Bool.and_eq_true, Bool.and_eq_true,
    beq_iff_eq, Option.any_eq_true]
  apply and_congr_right
  intro _
  constructor
  · rintro ⟨d, hd, hle⟩
    obtain ⟨owner, howner, hget⟩ := Option.bind_eq_some_iff.1 hd
    exact ⟨owner, d, howner, hget, of_decide_eq_true hle⟩
  · rintro ⟨owner, d, howner, hget, hle⟩
    refine ⟨d, ?_, decide_eq_true hle⟩
    rw [howner]
    exact hget

theorem markPaid_debited {q : MarkPaidRequest} (hw : s.withdrawal q.withdrawalId = some w)
    (h : debitsStaff s q w = true) :
    ∃ owner, w.staffUserId = some owner ∧ Debited s (processWithdrawalMarkPaid s q).1 w owner := by
  obtain ⟨⟨⟨⟨⟨hadmin, hstatus⟩, hrole⟩, hunpaid⟩, hnew⟩, owner, d, howner, hd, hbalance⟩ :=
    debitsStaff_iff.1 h
  refine ⟨owner, howner, ?_⟩
  unfold processWithdrawalMarkPaid
  rw [hw]
  dsimp only
  rw [if_neg (by simp [hadmin]), if_neg (not_not.2 hstatus), howner]
  dsimp only
  rw [if_neg (by simp [hrole]), if_pos hunpaid]
  exact debitStaff_debited hd hbalance (Option.isNone_iff_eq_none.1 hnew)

theorem markPaid_kept {q : MarkPaidRequest} (h : debited s (.markPaid q) = none) :
    Kept s (processWithdrawalMarkPaid s q).1 := by
  unfold processWithdrawalMarkPaid
  split
  · exact .refl s
  rename_i w hw
  have hpays : ¬ debitsStaff s q w = true := by
    intro hpays
    simp [debited, hw, Option.filter_some, if_pos hpays] at h
  rw [debitsStaff_iff] at hpays
  split
  · exact .refl s
  rename_i hadmin
  split
  · exact .refl s
  rename_i hstatus
  split
  · rename_i owner howner
    split
    · exact .refl s
    rename_i hrole
    split
    · rename_i hunpaid
      rw [debitStaff_refused]
      · exact .refl s
      simp_all
    · exact finishPaid_kept ..
  · split
    · exact .refl s
    rename_i creatorUser hcreator
    split
    · exact debitCreator_kept _ (resolveWithdrawalCreatorUser_some hcreator)
    · exact finishPaid_kept ..

/-! ### Agreement -/

def Agrees (s : Store) (userId : String) : Prop :=
  ∃ d, s.users.get userId = some d ∧ (d.coins : ℤ) = s.coinNet userId ∧
    (d.staffCoinsBalance : ℤ) = s.staffNet userId

theorem agrees_iff_gaps :
    Agrees s userId ↔ s.coinGap userId = some 0 ∧ s.staffGap userId = some 0 := by
  unfold Agrees Store.coinGap Store.staffGap
  cases s.users.get userId with
  | none =>
    constructor
    · rintro ⟨d, hd, -⟩
      cases hd
    · rintro ⟨h, -⟩
      cases h
  | some d =>
    rw [Option.map_some, Option.map_some, Option.some_inj, Option.some_inj, sub_eq_zero, sub_eq_zero]
    constructor
    · rintro ⟨d', hd, h⟩
      cases hd
      exact h
    · exact fun h => ⟨d, rfl, h⟩

theorem Kept.agrees (h : Kept s t) (hs : Agrees s userId) : Agrees t userId := by
  rw [agrees_iff_gaps] at hs ⊢
  rw [h.coins, h.staff]
  exact hs

structure Unrepaired (s : Store) (userId : String) : Prop where
  canonicalCoins : ∀ tolerance, canonicalCoins s userId tolerance = s
  reconcile : ∀ cfg dryRun, (reconcileStaffBalance s cfg dryRun userId).1 = s

theorem Agrees.unrepaired (h : Agrees s userId) : Unrepaired s userId := by
  obtain ⟨d, hd, hcoins, hstaff⟩ := h
  constructor
  · intro tolerance
    simp [canonicalCoins, hd, getCanonicalCoinsAndRepairIfNeeded, ← hcoins]
  · intro cfg dryRun
    have hdrift : ¬ cfg.tolerance < |(d.staffCoinsBalance : ℤ) - s.staffNet userId| := by
      rw [hstaff, sub_self, abs_zero]
      exact not_lt.2 (le_max_left 0 _)
    simp [reconcileStaffBalance, hd, decide_eq_false hdrift]

theorem Agrees.update {other : String} (hid : ∀ d, (f d).id = d.id) (hother : other ≠ userId)
    (h : Agrees s userId) : Agrees { s with users := s.users.update other f } userId := by
  obtain ⟨d, hd, hcoins, hstaff⟩ := h
  refine ⟨d, ?_, hcoins, hstaff⟩
  show (s.users.update other f).get userId = some d
  rw [Mongo.Unique.get_update hid, if_neg hother]
  exact hd

theorem Agrees.canonicalCoins (h : Agrees s userId) (other : String) (tolerance : Option ℤ) :
    Agrees (canonicalCoins s other tolerance) userId := by
  by_cases hother : other = userId
  · subst hother
    rw [h.unrepaired.canonicalCoins]
    exact h
  · unfold StaffWallets.canonicalCoins
    split
    · exact h
    · unfold getCanonicalCoinsAndRepairIfNeeded
      dsimp only
      split
      · exact h
      · exact h.update (fun _ => rfl) hother

theorem Agrees.reconcile (h : Agrees s userId) (cfg : ReconcileConfig) (dryRun : Bool)
    (other : String) : Agrees (reconcileStaffBalance s cfg dryRun other).1 userId := by
  by_cases hother : other = userId
  · subst hother
    rw [h.unrepaired.reconcile]
    exact h
  · unfold reconcileStaffBalance
    dsimp only
    split
    · exact h.update (fun _ => rfl) hother
    · exact h

theorem Debited.agrees (h : Debited s t w owner) (hother : userId ≠ owner) (hs : Agrees s userId) :
    Agrees t userId := by
  rw [agrees_iff_gaps] at hs ⊢
  rw [h.coins, h.staff userId hother, hs.1, share, if_neg hother.symm]
  exact ⟨rfl, hs.2⟩

theorem Debited.not_agrees (h : Debited s t w userId) (hs : Agrees s userId) :
    ¬ Agrees t userId := by
  rw [agrees_iff_gaps] at hs ⊢
  rintro ⟨hcoins, -⟩
  rw [h.coins, hs.1, share, if_pos rfl] at hcoins
  have hzero : (0 : ℤ) + w.amount = 0 := Option.some.inj hcoins
  have hpos := w.amount_pos
  omega

theorem markPaid_agrees (q : MarkPaidRequest) (hs : Agrees s userId) :
    Agrees (processWithdrawalMarkPaid s q).1 userId ↔ ¬ PaysStaff userId (s, .markPaid q) := by
  unfold PaysStaff
  cases hdebited : debited s (.markPaid q) with
  | none => exact iff_of_true ((markPaid_kept hdebited).agrees hs) Bool.false_ne_true
  | some w =>
    obtain ⟨hw, hpays⟩ := Option.filter_eq_some_iff.1 hdebited
    obtain ⟨owner, howner, hstep⟩ := markPaid_debited hw hpays
    rw [Option.any_some, howner, beq_iff_eq, Option.some_inj]
    by_cases hu : userId = owner
    · subst hu
      exact iff_of_false (hstep.not_agrees hs) (not_not.2 rfl)
    · exact iff_of_true (hstep.agrees hu hs) fun h => hu h.symm

theorem exec_agrees (o : Operation) (hs : Agrees s userId) :
    Agrees (exec s o) userId ↔ ¬ PaysStaff userId (s, o) := by
  cases o with
  | markPaid q => exact markPaid_agrees q hs
  | settle q => exact iff_of_true ((settleStaff_kept s q).agrees hs) Bool.false_ne_true
  | referralReward q => exact iff_of_true ((referralReward_kept s q).agrees hs) Bool.false_ne_true
  | transfer q => exact iff_of_true ((transfer_kept s q).agrees hs) Bool.false_ne_true
  | canonicalCoins other tolerance =>
    exact iff_of_true (hs.canonicalCoins other tolerance) Bool.false_ne_true
  | reconcile cfg dryRun other =>
    exact iff_of_true (hs.reconcile cfg dryRun other) Bool.false_ne_true

/-! ### Sequences -/

/-- After every operation the wallets of the user agree with their ledgers, and no repair changes
them. -/
def Separate (userId : String) (s : Store) (os : List Operation) : Prop :=
  ∀ x ∈ stepLog exec s os, Agrees (exec x.1 x.2) userId ∧ Unrepaired (exec x.1 x.2) userId

/-- **Two wallets, two ledgers.**  The payments of staff withdrawals, and nothing else, take a user out
of agreement. -/
theorem separate_iff (s : Store) (userId : String) (hs : Agrees s userId) (os : List Operation) :
    Separate userId s os ↔ ∀ x ∈ stepLog exec s os, ¬ PaysStaff userId x := by
  apply forall_trace_iff (I := fun s => Agrees s userId) hs
  · intro s o hs
    rw [← exec_agrees o hs]
    exact ⟨fun h => h.1, fun h => ⟨h, h.unrepaired⟩⟩
  · intro s o hs hpays
    exact (exec_agrees o hs).2 hpays

def sampleAgency : User :=
  ⟨"agency", "f", "agency", 60, 500, none, none, "AG", [], false⟩

def sampleWithdrawal : Withdrawal :=
  ⟨"w", some "agency", none, none, none, 500, by decide, .approved, none⟩

def sampleStore : Store where
  users := (Mongo.Unique.empty : Mongo.Unique User.id).insert sampleAgency
  creators := [⟨"c", some "agency", some "agency", 0⟩]
  edges := .empty
  withdrawals := [sampleWithdrawal]
  coinLedger := (Mongo.Unique.empty : Mongo.Unique CoinTransaction.transactionId).insert
    ⟨"referral_reward_agency_u", "agency", .credit, 60, true⟩
  staffLedger := (Mongo.Unique.empty : Mongo.Unique StaffWalletLedger.idempotencyKey).insert
    ⟨"agency", .credit, 500, "staff_ledger_call_x_agency_credit"⟩

theorem sampleStore_agrees : Agrees sampleStore "agency" :=
  ⟨sampleAgency, by decide +kernel, by decide +kernel, by decide +kernel⟩

def settleAndShow : List Operation :=
  [.settle ⟨"y", "c", 100, 500, 1000⟩, .canonicalCoins "agency" none]

theorem separate_settleAndShow : Separate "agency" sampleStore settleAndShow :=
  (separate_iff sampleStore "agency" sampleStore_agrees settleAndShow).2 (by decide +kernel)

def payment : Operation := .markPaid ⟨"w", "super_admin", true, "uuid"⟩

def payAndShow : List Operation := [payment, .canonicalCoins "agency" none]

/-- The staff wallet is debited, as it should; then the coins, of which nothing was withdrawn, are
repaired to zero. -/
theorem coins_erased :
    Agrees sampleStore "agency" ∧ ¬ Separate "agency" sampleStore payAndShow ∧
      ((runFrom exec sampleStore (payAndShow.take 1)).users.get "agency").map
        (fun d => (d.coins, d.staffCoinsBalance)) = some (60, 0) ∧
      ((runFrom exec sampleStore payAndShow).users.get "agency").map
        (fun d => (d.coins, d.staffCoinsBalance)) = some (0, 0) := by
  refine ⟨sampleStore_agrees, ?_, by decide +kernel, by decide +kernel⟩
  intro h
  obtain ⟨⟨d, hd, hcoins, -⟩, -⟩ := h _ List.mem_cons_self
  have hd : (exec sampleStore payment).users.get "agency" = some d := hd
  have hpaid : ((exec sampleStore payment).users.get "agency").map User.coins = some 60 := by
    decide +kernel
  rw [hd] at hpaid
  have hpaid : d.coins = 60 := Option.some.inj hpaid
  rw [hpaid] at hcoins
  exact absurd hcoins (by decide +kernel)

end VibemeetBackend.StaffWallets
