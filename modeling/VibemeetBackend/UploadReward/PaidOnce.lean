import VibemeetBackend.UploadReward.Reward

/-!
# Rewards against the ledger

Whole runs of rewards, clawbacks and movements by other features, with answers that are lost and
requests that stop for good anywhere.
-/

namespace VibemeetBackend.UploadReward

open Async Flow Ledger Pool

/-! ### What a run keeps to -/

/-- A row that is written is answered, a wallet that is saved holds the coins that it was loaded with,
and a clawback is covered by them. -/
def Sound (e : Event Cmd Reply Store) : Prop :=
  match e.cmd with
  | .insertRow _ => e.ans.ok = true ∨ e.ans.executed = false
  | .saveUser userId loaded _ => e.ans.ok = true ∧ e.before.coins userId = some loaded
  | .clawback row loaded _ _ => e.before.has row.transactionId = true ∨
      (e.before.coins row.userId = some loaded ∧ row.coins ≤ loaded)
  | _ => True

instance : DecidablePred Sound := fun e => by
  unfold Sound
  cases e.cmd <;> infer_instance

abbrev Phase : Type := Debt String

namespace Phase

def after (φ : Phase) (c : Cmd) (r : Reply) (s : Store) : Phase :=
  match c with
  | .insertRow row =>
    if c.sent r = true ∧ s.has row.transactionId = false then some (row.userId, row.signed) else φ
  | .saveUser .. => none
  | _ => φ

/-- A request whose command is not answered gives up. -/
def next (φ : Phase) (c : Cmd) (r : Reply) (s : Store) : Phase :=
  if r.ok then φ.after c r s else none

end Phase

def Permits (φ : Phase) : Cmd → Prop
  | .insertRow row => φ = none ∧ row.status = .completed
  | .saveUser userId _ change => φ = some (userId, change) ∧ 0 ≤ change
  | .clawback row .. => φ = none ∧ row.status = .completed ∧ row.type = .debit
  | _ => φ = none

/-! ### The service follows the protocol -/

section protocol

variable {φ : Phase} {α : Type}

/-- The program ends with nothing owed. -/
abbrev Pays (φ : Phase) (p : RewardFlow α) (Q : α → Phase → Prop) : Prop :=
  Follows (guarded Permits Phase.next) φ p Q fun _ φ' => φ' = none

theorem pays_run {c : Cmd} {f : Reply × Store → RewardFlow α} {Q : α → Phase → Prop}
    (hc : Permits φ c) (h : ∀ r s, Pays (φ.after c r s) (f (r, s)) Q) : Pays φ (run c >>= f) Q := by
  apply follows_call_bind
  intro r s
  refine ⟨_, guarded_of hc, ?_, ?_⟩
  · intro hr
    rw [Phase.next, if_pos hr]
    exact h r s
  · intro hr
    rw [Phase.next, if_neg (by simp [hr])]

theorem after_insertRow {row : CoinTransaction} {r : Reply} (s : Store)
    (hsent : (Cmd.insertRow row).sent r = true) :
    φ.after (.insertRow row) r s =
      if s.has row.transactionId = true then φ else some (row.userId, row.signed) := by
  unfold Phase.after
  simp only [hsent, true_and]
  cases s.has row.transactionId <;> rfl

theorem createUploadRewardTransaction_pays (transactionId userId : String) (coins : ℕ)
    (type : MomentType) :
    Pays none (createUploadRewardTransaction transactionId userId coins type) fun x φ =>
      φ = match x with
        | .created => some (userId, (coins : ℤ))
        | .duplicate => none := by
  apply pays_run
  · exact ⟨rfl, rfl⟩
  intro r s
  dsimp only
  cases hvalid : r.validSource with
  | true =>
    have hsent : (Cmd.insertRow (uploadRewardRow transactionId userId coins type
        "moment_upload_reward")).sent r = true := by
      unfold Cmd.sent
      rw [hvalid]
      rfl
    show Phase.after _ _ _ _ = _
    rw [after_insertRow s hsent]
    show (if s.has transactionId = true then _ else _) = _
    cases s.has transactionId <;> rfl
  | false =>
    have hidle : Phase.after none
        (.insertRow (uploadRewardRow transactionId userId coins type "moment_upload_reward")) r s =
          none := by
      unfold Phase.after Cmd.sent
      rw [hvalid]
      rfl
    rw [hidle]
    apply pays_run
    · exact ⟨rfl, rfl⟩
    intro r' t
    show Phase.after _ _ _ _ = _
    have hsent : (Cmd.insertRow (uploadRewardRow transactionId userId coins type
        "creator_task")).sent r' = true := Bool.or_true _
    rw [after_insertRow t hsent]
    show (if t.has transactionId = true then _ else _) = _
    cases t.has transactionId <;> rfl

theorem creditMomentUploadReward_pays (cfg : MomentsConfig) (userId creatorId momentId : String)
    (type : MomentType) :
    Pays none (creditMomentUploadReward cfg userId creatorId momentId type) fun _ φ => φ = none := by
  unfold creditMomentUploadReward
  dsimp only
  split
  · rfl
  apply pays_run (c := .findRow _)
  · rfl
  intro _ s
  cases s.findRow (uploadRewardCreditTransactionId momentId) with
  | some existing =>
    apply pays_run (c := .findUser userId)
    · rfl
    intro _ t
    rfl
  | none =>
    apply pays_run (c := .findUser userId)
    · rfl
    intro _ t
    apply pays_run (c := .findCreator creatorId)
    · rfl
    intro _ u
    split
    · rename_i coins earnings _ _
      apply follows_bind
      apply (createUploadRewardTransaction_pays _ userId _ type).mono _ fun _ _ h => h
      intro inserted φ hφ
      subst hφ
      cases inserted with
      | duplicate =>
        apply pays_run (c := .findRow _)
        · rfl
        intro _ v
        apply pays_run (c := .findUser userId)
        · rfl
        intro _ w
        rfl
      | created =>
        apply pays_run (c := .saveUser userId coins _)
        · exact ⟨rfl, Int.natCast_nonneg _⟩
        intro _ _
        apply pays_run (c := .saveCreator creatorId earnings _)
        · rfl
        intro _ _
        rfl
    · rfl

theorem debitMomentUploadRewardClawback_pays (userId creatorId momentId : String)
    (actorLabel : Option String) :
    Pays none (debitMomentUploadRewardClawback userId creatorId momentId actorLabel) fun _ φ =>
      φ = none := by
  unfold debitMomentUploadRewardClawback
  dsimp only
  apply pays_run (c := .findRow _)
  · rfl
  intro _ s
  dsimp only
  have hbalance : ∀ {β : Type} (f : ℕ → β), Pays none (do
      let newBalance ← (do
        let found ← run (.findUser userId)
        return (found.2.coins userId).getD 0 : RewardFlow ℕ)
      return f newBalance) fun _ φ => φ = none := by
    intro β f
    apply follows_bind
    apply pays_run (c := .findUser userId)
    · rfl
    intro _ t
    rfl
  split
  · exact hbalance _
  · rename_i creditTx _
    apply pays_run (c := .findRow _)
    · rfl
    intro _ t
    dsimp only
    split
    · exact hbalance _
    · apply pays_run (c := .findUser userId)
      · rfl
      intro _ u
      apply pays_run (c := .findCreator creatorId)
      · rfl
      intro _ v
      dsimp only
      split
      · apply pays_run
        · exact ⟨rfl, rfl, rfl⟩
        intro _ w
        dsimp only
        split
        · apply pays_run (c := .findRow _)
          · rfl
          intro _ x
          exact hbalance _
        · rfl
      · rfl

theorem program_pays (cfg : MomentsConfig) (q : Request) :
    (program cfg q).Follows (guarded Permits Phase.next) none fun _ φ => φ = none := by
  cases q with
  | credit userId creatorId momentId type =>
    exact (creditMomentUploadReward_pays cfg userId creatorId momentId type).run_of
  | clawback userId creatorId momentId actorLabel =>
    exact (debitMomentUploadRewardClawback_pays userId creatorId momentId actorLabel).run_of
  | movement transactionId userId type coins source =>
    intro r s
    refine ⟨_, guarded_of rfl, ?_⟩
    show Phase.next none (.movement transactionId userId type coins source) r s = none
    rw [Phase.next]
    split <;> rfl

end protocol

/-! ### Steps -/

theorem nodup_snoc {s : Store} (row : CoinTransaction)
    (hids : (s.rows.map (·.transactionId)).Nodup) (hfree : s.has row.transactionId = false) :
    ((s.rows ++ [row]).map (·.transactionId)).Nodup := by
  rw [List.map_append, List.map_singleton, List.nodup_append]
  refine ⟨hids, List.nodup_singleton _, ?_⟩
  intro id hid id' hid' heq
  obtain ⟨row', hrow', rfl⟩ := List.mem_map.1 hid
  obtain rfl := List.mem_singleton.1 hid'
  have hnone : s.findRow row.transactionId = none := by
    simpa [Store.has] using hfree
  have hne := List.find?_eq_none.1 hnone row' hrow'
  simp [heq] at hne

theorem nodup_exec {c : Cmd} {r : Reply} {s : Store} (h : (s.rows.map (·.transactionId)).Nodup) :
    ((c.exec r s).rows.map (·.transactionId)).Nodup := by
  have heffect : ((c.effect s).rows.map (·.transactionId)).Nodup := by
    cases c with
    | insertRow row =>
      unfold Cmd.effect
      dsimp only
      split
      · exact h
      · rename_i hfree
        exact nodup_snoc row h (Bool.not_eq_true _ ▸ hfree)
    | clawback row loaded creatorId earnings =>
      unfold Cmd.effect
      dsimp only
      split
      · exact h
      · rename_i hfree
        exact nodup_snoc row h (Bool.not_eq_true _ ▸ hfree)
    | movement transactionId userId type coins source =>
      unfold Cmd.effect
      dsimp only
      split
      · split
        · exact h
        · rename_i hfree
          rw [not_or, Bool.not_eq_true] at hfree
          exact nodup_snoc ⟨transactionId, userId, type, coins, source, "", .completed⟩ h hfree.1
      · exact h
    | saveUser | saveCreator | findRow | findUser | findCreator => exact h
  unfold Cmd.exec
  split
  · exact heffect
  · exact h

theorem saved_eq_set {wallets : Wallets} {id : String} {loaded : ℕ} (change : ℤ)
    (hloaded : wallets id = some loaded) :
    saved wallets id loaded change = wallets.set id (changed loaded change) := by
  unfold saved
  split
  · rename_i hsame
    rw [hsame]
    funext id'
    unfold Wallets.set
    split
    · rename_i hid
      rw [hid, hloaded]
      rfl
    · rfl
  · rfl

theorem changed_cast {loaded : ℕ} {change : ℤ} (h : 0 ≤ (loaded : ℤ) + change) :
    (changed loaded change : ℤ) = loaded + change := Int.toNat_of_nonneg h

theorem books_posted {coins : Wallets} {rows : List CoinTransaction} (row : CoinTransaction)
    {loaded : ℕ} (hloaded : coins row.userId = some loaded) (hdone : row.status = .completed)
    (hcovered : 0 ≤ (loaded : ℤ) + row.signed) (due : ℤ) (userId : String) :
    books (coins.set row.userId (changed loaded row.signed)) (rows ++ [row]) due userId =
      books coins rows due userId :=
  books_move hloaded (changed_cast hcovered) hdone due userId

/-- **A wallet and its rows.**  What a command changes in a wallet, beyond the rows that it writes,
is what its request owes the wallet less. -/
theorem books_step {t : Store} {φ : Phase} {c : Cmd} {r : Reply} (hA : Permits φ c)
    (hsound : Sound ⟨t, c, r, c.exec r t⟩) (due : ℤ) (userId : String) :
    books (c.exec r t).coins (c.exec r t).rows
        (due + ((φ.next c r t).due userId - φ.due userId)) userId =
      books t.coins t.rows due userId := by
  -- a command of a request that owes nothing, before and after
  have hidle : φ = none → φ.next c r t = none →
      books (c.effect t).coins (c.effect t).rows due userId = books t.coins t.rows due userId →
      books (c.exec r t).coins (c.exec r t).rows
          (due + ((φ.next c r t).due userId - φ.due userId)) userId =
        books t.coins t.rows due userId := by
    grind [Cmd.exec]
  have hstill : φ = none → φ.after c r t = φ → φ.next c r t = none := by
    intro hnone hafter
    unfold Phase.next
    split
    · rw [hafter, hnone]
    · rfl
  cases c with
  | insertRow row =>
    obtain ⟨rfl, hdone⟩ := hA
    cases hok : r.ok with
    | false =>
      have hlost : r.executed = false := hsound.resolve_left (by simp [hok])
      have hnext : Phase.next none (.insertRow row) r t = none := by
        unfold Phase.next
        rw [if_neg (by simp [hok])]
      have hexec : (Cmd.insertRow row).exec r t = t := by
        unfold Cmd.exec
        rw [if_neg (by simp [hok, hlost])]
      rw [hnext, hexec, Debt.due_paid, sub_zero, add_zero]
    | true =>
      by_cases hsent : (Cmd.insertRow row).sent r = true ∧ t.has row.transactionId = false
      · obtain ⟨hsent, hfree⟩ := hsent
        have hnext : Phase.next none (.insertRow row) r t = some (row.userId, row.signed) := by
          unfold Phase.next
          rw [if_pos hok, after_insertRow t hsent, if_neg (by simp [hfree])]
        have hexec : (Cmd.insertRow row).exec r t = { t with rows := t.rows ++ [row] } := by
          simp_all [Cmd.exec, Cmd.effect]
        rw [hnext, hexec, Debt.due_paid, sub_zero, Debt.due_owe]
        exact books_row hdone due userId
      · -- nothing is written, and nothing is owed
        have hnext : Phase.next none (.insertRow row) r t = none := by
          unfold Phase.next
          rw [if_pos hok]
          exact if_neg hsent
        have hexec : (Cmd.insertRow row).exec r t = t := by
          unfold Cmd.exec Cmd.effect
          split
          · rename_i hexecuted
            have htaken : t.has row.transactionId = true := by
              by_contra hfree
              exact hsent ⟨(Bool.and_eq_true_iff.1 hexecuted).1, Bool.not_eq_true _ ▸ hfree⟩
            dsimp only
            rw [if_pos htaken]
          · rfl
        rw [hnext, hexec, Debt.due_paid, sub_zero, add_zero]
  | saveUser owner loaded change =>
    obtain ⟨rfl, hchange⟩ := hA
    obtain ⟨hok, hloaded⟩ := hsound
    have hcovered : 0 ≤ (loaded : ℤ) + change := by omega
    have hnext : Phase.next (some (owner, change)) (.saveUser owner loaded change) r t = none := by
      unfold Phase.next
      rw [if_pos hok]
      rfl
    have hexec : (Cmd.saveUser owner loaded change).exec r t =
        { t with coins := t.coins.set owner (changed loaded change) } := by
      have hok' : r.ok = true := hok
      unfold Cmd.exec Cmd.effect Cmd.sent
      rw [if_pos (by rw [hok']; rfl)]
      simp [saved_eq_set change hloaded]
    rw [hnext, hexec, Debt.due_paid, Debt.due_owe, zero_sub, ← sub_eq_add_neg]
    exact books_set t.rows hloaded (changed_cast hcovered) due userId
  | clawback row loaded creatorId earnings =>
    obtain ⟨rfl, hdone, hdebit⟩ := hA
    apply hidle rfl (hstill rfl rfl)
    unfold Cmd.effect
    dsimp only
    split
    · rfl
    · rename_i hfree
      obtain htaken | ⟨hloaded, hcovered⟩ := hsound
      · exact absurd htaken hfree
      · have hpaid : 0 ≤ (loaded : ℤ) + row.signed := by
          unfold CoinTransaction.signed
          rw [hdebit]
          dsimp only at hcovered ⊢
          omega
        have hloaded' : t.coins row.userId = some loaded := hloaded
        simpa [saved_eq_set _ hloaded'] using books_posted row hloaded' hdone hpaid due userId
  | movement transactionId owner type coins source =>
    apply hidle hA (hstill hA rfl)
    unfold Cmd.effect
    dsimp only
    split
    · rename_i wallet hwallet
      split
      · rfl
      · rename_i hfree
        rw [not_or, not_lt] at hfree
        exact books_posted ⟨transactionId, owner, type, coins, source, "", .completed⟩ hwallet rfl
          hfree.2 due userId
    · rfl
  | findRow | findUser | findCreator | saveCreator => exact hidle hA (hstill hA rfl) rfl

/-! ### Runs -/

/-- The ids differ, and the wallets are those of `s` up to the rows and what is still owed. -/
structure Keeping (s : Store) (φs : List Phase) (t : Store) : Prop where
  ids : (t.rows.map (·.transactionId)).Nodup
  books : ∀ userId, books t.coins t.rows (due id φs userId) userId =
    books s.coins s.rows 0 userId

def rewardRun (cfg : MomentsConfig) (s : Store) (ms : List (Move Request Reply)) :
    Pool Cmd Reply Store :=
  (start s).play Cmd.exec (program cfg) ms

/-- A wallet is saved next. -/
def saving : Prog Cmd Reply Store Unit → Bool
  | .act (.saveUser ..) _ => true
  | _ => false

/-- No request stands between a row and the save of its wallet. -/
def Resting (w : Pool Cmd Reply Store) : Prop := ∀ p ∈ w.procs, saving p = false

instance : DecidablePred Resting := fun _ => inferInstanceAs (Decidable (∀ p ∈ _, _ = false))

theorem owes_resting {p : Prog Cmd Reply Store Unit} {φ : Phase} (s : Store)
    (h : saving p = false)
    (hp : p.Follows (guarded Permits Phase.next) φ fun _ φ => φ = none) : φ = none := by
  cases p with
  | ret _ => exact hp
  | act c k =>
    obtain ⟨φ', hδ, -⟩ := hp ⟨true, true, true⟩ s
    have hA := (guarded_eq_some hδ).1
    cases c with
    | insertRow row => exact hA.1
    | clawback row loaded creatorId earnings => exact hA.1
    | saveUser userId loaded change => cases h
    | _ => exact hA

structure LedgerExact (s t : Store) : Prop where
  once : ∀ transactionId, (t.rows.map (·.transactionId)).count transactionId ≤ 1
  kept : WalletsKept s.coins s.rows t.coins t.rows

/-- **Rewards are exact**: in every state of every run whose commands are sound and in which no request
stands between a row and its wallet. -/
theorem upload_reward_run (cfg : MomentsConfig) (s : Store)
    (hids : (s.rows.map (·.transactionId)).Nodup) (ms : List (Move Request Reply))
    (hsound : ∀ e ∈ (rewardRun cfg s ms).log, Sound e) (hresting : Resting (rewardRun cfg s ms)) :
    LedgerExact s (rewardRun cfg s ms).store := by
  have hprog : ∀ q, (program cfg q).Follows (guarded Permits Phase.next)
      ((fun _ : Request => (none : Phase)) q) fun _ φ => φ = none := program_pays cfg
  obtain ⟨φs, hphases, hkeeping⟩ := play_protocol (fun φs _ t => Keeping s φs t) Sound hprog
    ⟨hids, fun _ => rfl⟩
    (fun φs l t q h => ⟨h.ids, fun userId => by
      rw [due_append rfl]
      exact h.books userId⟩)
    (by
      intro φs l t i φ c r φ' h hi hδ hG
      obtain ⟨hA, rfl⟩ := guarded_eq_some hδ
      refine ⟨nodup_exec h.ids, ?_⟩
      intro userId
      rw [due_set hi]
      exact (books_step hA hG _ userId).trans (h.books userId)) ms hsound
  refine ⟨List.nodup_iff_count_le_one.1 hkeeping.ids, walletsKept_of_books ?_⟩
  intro userId
  have hdue : due id φs userId = 0 :=
    hphases.due_eq_zero (fun p hp φ => owes_resting s (hresting p hp)) userId
  have hbooks := hkeeping.books userId
  rw [hdue] at hbooks
  exact hbooks

/-! ### Samples -/

def config : MomentsConfig := ⟨10, 30⟩

def wallet (coins : ℕ) : Store where
  coins := fun id => if id = "user" then some coins else none
  earnings := fun id => if id = "creator" then some 0 else none
  rows := []

def answered : Reply := ⟨true, true, true⟩

def rewardedAndClawedBack : List (Move Request Reply) :=
  Move.spawn (Request.credit "user" "creator" "moment" .photo) ::
      List.replicate 6 (Move.step 0 answered) ++
    Move.spawn (Request.movement "call" "user" .credit 5 "call") :: Move.step 1 answered ::
    Move.spawn (Request.clawback "user" "creator" "moment" none) ::
      List.replicate 5 (Move.step 2 answered)

theorem upload_reward_sample :
    LedgerExact (wallet 0) (rewardRun config (wallet 0) rewardedAndClawedBack).store :=
  upload_reward_run config (wallet 0) List.nodup_nil rewardedAndClawedBack (by decide +kernel)
    (by decide +kernel)

def returned : Prog Cmd Reply Store Unit → Bool
  | .ret _ => true
  | .act .. => false

/-- Coins for a call come in between the load of the wallet and its save. -/
def overtakenReward : List (Move Request Reply) :=
  .spawn (.credit "user" "creator" "moment" .photo) ::
    .spawn (.movement "call" "user" .credit 5 "call") ::
    [0, 0, 0, 1, 0, 0, 0].map fun i => .step i answered

/-- A reward whose process stops after the row, and its retry, which finds the row. -/
def crashedReward : List (Move Request Reply) :=
  Move.spawn (Request.credit "user" "creator" "moment" .photo) ::
      List.replicate 4 (Move.step 0 answered) ++
    Move.spawn (Request.credit "user" "creator" "moment" .photo) ::
      List.replicate 2 (Move.step 1 answered)

/-- The coins of the call are overwritten, though every request returns; and a reward is not paid,
though its retry returns. -/
theorem upload_reward_not_exact :
    (¬∀ (cfg : MomentsConfig) (s : Store), (s.rows.map (·.transactionId)).Nodup →
      ∀ ms, (∀ p ∈ (rewardRun cfg s ms).procs, returned p = true) →
        LedgerExact s (rewardRun cfg s ms).store) ∧
    ((rewardRun config (wallet 0) crashedReward).procs.map returned = [false, true] ∧
      ¬LedgerExact (wallet 0) (rewardRun config (wallet 0) crashedReward).store) := by
  refine ⟨?_, by decide +kernel, ?_⟩
  · intro h
    have hkept := (h config (wallet 0) List.nodup_nil overtakenReward (by decide +kernel)).kept "user"
    exact absurd hkept (by decide +kernel)
  · intro h
    exact absurd (h.kept "user") (by decide +kernel)

end VibemeetBackend.UploadReward
