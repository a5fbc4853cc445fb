import VibemeetBackend.Rewards.Referral

/-!
# The referral reward: all or nothing

Whole runs of purchases and calls of one referred user, with other income of the referrer in between,
and requests that stop for good anywhere.
-/

namespace VibemeetBackend.Rewards

open Async Pool

/-! ### Payments -/

def payment (referrerId referredUserId : String) (e : Event Cmd Reply Store) : Option ℤ :=
  match e.cmd with
  | .grant id id' inc =>
    if e.ans.delivered = true ∧ id = referrerId ∧ id' = referredUserId ∧
        e.before.grantable referrerId referredUserId = true then inc
    else none
  | .commit (some credit) =>
    if e.ans.delivered = true ∧ credit.conflicts e.before = false ∧
        credit.row.transactionId = referralRewardTransactionId referrerId referredUserId then
      some credit.row.coins
    else none
  | _ => none

def payments (referrerId referredUserId : String) (log : List (Event Cmd Reply Store)) : List ℤ :=
  log.filterMap (payment referrerId referredUserId)

def income (referrerId : String) (e : Event Cmd Reply Store) : ℤ :=
  match e.cmd with
  | .incCoins id amount => if e.ans.delivered = true ∧ id = referrerId then amount else 0
  | _ => 0

def Store.rewardGranted (s : Store) (referrerId referredUserId : String) : Bool :=
  (s.user referrerId).any fun u => u.granted referredUserId

/-- The payments are in the wallet and, with their amounts, in the ledger, and a flag comes with one. -/
structure AllOrNothing (referrerId referredUserId : String) (s : Store) (p : Pool Cmd Reply Store) :
    Prop where
  once : (payments referrerId referredUserId p.log).length ≤ 1
  row : ((p.store.ledger.row (referralRewardTransactionId referrerId referredUserId)).map
    fun t => (t.userId, t.coins)).toList =
      (payments referrerId referredUserId p.log).map fun coins => (referrerId, coins)
  notInVain : p.store.rewardGranted referrerId referredUserId = true →
    payments referrerId referredUserId p.log ≠ []
  wallet : p.store.coins referrerId = (s.coins referrerId).map fun v =>
    v + (payments referrerId referredUserId p.log).sum + (p.log.map (income referrerId)).sum

/-! ### What a command does -/

def Store.referralsOf (s : Store) (id : String) : Option (Option String × List Referral) :=
  (s.user id).map fun u => (u.referredBy, u.referrals)

variable {referrerId referredUserId : String} {φ : ReferralPhase} {s t : Store} {c : Cmd} {r : Reply}

theorem user_updateUser {f : User → User} (hf : ∀ u, (f u).id = u.id) (id id' : String) :
    (t.updateUser id f).user id' = if id = id' then (t.user id').map f else t.user id' :=
  Mongo.find?_update hf id id' t.users

variable {t' : Store}

theorem referralsOf_update {f : User → User} (hf : ∀ u, (f u).id = u.id)
    (hreferredBy : ∀ u, (f u).referredBy = u.referredBy)
    (hreferrals : ∀ u, (f u).referrals = u.referrals) (id id' : String)
    (ht : t'.users = (t.updateUser id f).users) : t'.referralsOf id' = t.referralsOf id' := by
  have huser : t'.user id' = (t.updateUser id f).user id' := by
    rw [Store.user, ht]
    rfl
  rw [Store.referralsOf, huser, user_updateUser hf]
  split
  · rw [Option.map_map, Store.referralsOf]
    congr 1
    funext u
    show ((f u).referredBy, (f u).referrals) = _
    rw [hreferredBy, hreferrals]
  · rfl

theorem exec_referralsOf (hgrant : ∀ id id' inc, c ≠ .grant id id' inc) (id : String) :
    (c.exec r t).referralsOf id = t.referralsOf id := by
  have hsame : ∀ {t' : Store}, t'.users = t.users → t'.referralsOf id = t.referralsOf id := by
    intro t' husers
    rw [Store.referralsOf, Store.user, husers]
    rfl
  by_cases hr : r.delivered = false
  · rw [exec_of_not_delivered hr]
  have hexec : c.exec r t = _ := if_neg hr
  cases c with
  | grant id id' inc => exact absurd rfl (hgrant id id' inc)
  | commit w =>
    rw [hexec]
    cases w with
    | none => rfl
    | some credit =>
      dsimp only
      split
      · rfl
      · apply referralsOf_update (f := fun u => { u with coins := u.coins + credit.row.coins })
          (fun _ => rfl) (fun _ => rfl) (fun _ => rfl) credit.row.userId
        rw [Store.credit, putProgress_users]
  | incCoins id' amount =>
    rw [hexec]
    exact referralsOf_update (f := fun u => { u with coins := u.coins + amount })
      (fun _ => rfl) (fun _ => rfl) (fun _ => rfl) id' id rfl
  | createProgress userId =>
    apply hsame
    rw [hexec]
    dsimp only
    split <;> rfl
  | createEdge edge =>
    apply hsame
    rw [hexec]
    dsimp only
    split <;> rfl
  | _ =>
    have husers := congrArg Store.users hexec
    exact hsame husers

theorem grantable_eq (t : Store) (referrerId referredUserId : String) :
    t.grantable referrerId referredUserId = (t.referralsOf referrerId).any fun x =>
      x.2.any fun r => r.user == referredUserId && !r.rewardGranted := by
  rw [Store.grantable, Store.referralsOf, Option.any_map]
  rfl

theorem rewardGranted_eq (t : Store) (referrerId referredUserId : String) :
    t.rewardGranted referrerId referredUserId = (t.referralsOf referrerId).any fun x =>
      x.2.any fun r => r.user == referredUserId && r.rewardGranted := by
  rw [Store.rewardGranted, Store.referralsOf, Option.any_map]
  rfl

theorem grant_id (u : User) (referredUserId : String) (inc : ℤ) :
    (u.grant referredUserId inc).id = u.id := by
  unfold User.grant
  split <;> rfl

theorem exec_grant (hr : r.delivered = true) (id id' : String) (inc : Option ℤ) :
    Cmd.exec (.grant id id' inc) r t = t.updateUser id fun u => u.grant id' (inc.getD 0) :=
  if_neg (by simp [hr])

theorem grant_grantable (hr : r.delivered = true) (inc : Option ℤ)
    (h : t.grantable referrerId referredUserId = true) :
    (Cmd.exec (.grant referrerId referredUserId inc) r t).grantable referrerId referredUserId = false ∧
      (Cmd.exec (.grant referrerId referredUserId inc) r t).rewardGranted referrerId
        referredUserId = true := by
  rw [exec_grant hr, Store.grantable, Store.rewardGranted, user_updateUser fun u => grant_id u _ _,
    if_pos rfl, Option.any_map, Option.any_map]
  rw [Store.grantable, Option.any_eq_true] at h
  obtain ⟨u, hu, hgrantable⟩ := h
  rw [hu]
  exact ⟨grantable_grant u referredUserId _, granted_grant _ hgrantable⟩

theorem grant_same (inc : Option ℤ) (h : t.grantable referrerId referredUserId = false) (id : String) :
    (Cmd.exec (.grant referrerId referredUserId inc) r t).user id = t.user id := by
  by_cases hr : r.delivered = false
  · rw [exec_of_not_delivered hr]
  rw [Bool.not_eq_false] at hr
  rw [exec_grant hr, user_updateUser fun u => grant_id u _ _]
  split
  · rename_i hid
    subst hid
    rw [Store.grantable] at h
    cases hu : t.user referrerId with
    | none => rfl
    | some u =>
      rw [hu] at h
      have hnot : u.grantable referredUserId = false := h
      show some (u.grant referredUserId _) = some u
      rw [User.grant, if_neg (by simp [hnot])]
  · rfl

theorem exec_referredBy (c : Cmd) (r : Reply) (t : Store) (id : String) :
    ((c.exec r t).user id).bind User.referredBy = (t.user id).bind User.referredBy := by
  have hof : ∀ t : Store, (t.user id).bind User.referredBy = (t.referralsOf id).bind fun x => x.1 := by
    intro t
    rw [Store.referralsOf]
    cases t.user id <;> rfl
  cases c with
  | grant id' referredUserId inc =>
    by_cases hr : r.delivered = false
    · rw [exec_of_not_delivered hr]
    rw [Bool.not_eq_false] at hr
    rw [exec_grant hr, user_updateUser fun u => grant_id u _ _]
    split
    · cases t.user id with
      | none => rfl
      | some u =>
        show (u.grant referredUserId _).referredBy = u.referredBy
        unfold User.grant
        split <;> rfl
    · rfl
  | _ =>
    rw [hof, hof, exec_referralsOf]
    intro _ _ _ h
    cases h

theorem exec_ledger_plain (hc : c.plain = true) : (c.exec r t).ledger = t.ledger := by
  by_cases hr : r.delivered = false
  · rw [exec_of_not_delivered hr]
  have hexec : c.exec r t = _ := if_neg hr
  cases c with
  | grant id id' inc => cases hc
  | createTransaction row => cases hc
  | commit w =>
    cases w with
    | none => rw [hexec]
    | some credit => cases hc
  | createProgress userId =>
    rw [hexec]
    dsimp only
    split <;> rfl
  | createEdge edge =>
    rw [hexec]
    dsimp only
    split <;> rfl
  | _ =>
    have hledger := congrArg Store.ledger hexec
    exact hledger

theorem row_insert {l : Ledger} {row : CoinTransaction} (h : l.row row.transactionId = none) :
    (l.insert row).row row.transactionId = some row := by
  rw [Ledger.row, Ledger.insert_rows h, List.find?_append]
  rw [Ledger.row] at h
  rw [h, Option.none_or, List.find?_singleton, beq_self_eq_true]
  rfl

/-! ### How far the reward is -/

def StageSays (referrerId : String) (row : Option CoinTransaction) (paid : List ℤ) :
    ReferralStage → Prop
  | .idle => False
  | .granted inc => paid = inc.toList ∧ row = none
  | .paid coins => paid = [coins] ∧ row.map (fun t => (t.userId, t.coins)) = some (referrerId, coins)

/-- Either nothing was granted, or one request has set the flag. -/
inductive Stages (referrerId referredUserId : String) (xs : List ReferralStage) (paid : List ℤ)
    (t : Store) : Prop where
  | untouched : (∀ x ∈ xs, x = .idle) → t.rewardGranted referrerId referredUserId = false →
      t.ledger.row (referralRewardTransactionId referrerId referredUserId) = none → paid = [] →
      Stages referrerId referredUserId xs paid t
  | touched (i : ℕ) (x : ReferralStage) : xs[i]? = some x →
      (∀ (j : ℕ) (y : ReferralStage), j ≠ i → xs[j]? = some y → y = .idle) →
      t.grantable referrerId referredUserId = false →
      t.rewardGranted referrerId referredUserId = true →
      StageSays referrerId (t.ledger.row (referralRewardTransactionId referrerId referredUserId)) paid x →
      Stages referrerId referredUserId xs paid t

variable {xs : List ReferralStage} {paid : List ℤ} {i : ℕ} {x : ReferralStage}

theorem Stages.congr (h : Stages referrerId referredUserId xs paid t)
    (hreferrals : t'.referralsOf referrerId = t.referralsOf referrerId)
    (hledger : t'.ledger = t.ledger) : Stages referrerId referredUserId xs paid t' := by
  have hgrantable : t'.grantable referrerId referredUserId = t.grantable referrerId referredUserId := by
    rw [grantable_eq, grantable_eq, hreferrals]
  have hgranted : t'.rewardGranted referrerId referredUserId =
      t.rewardGranted referrerId referredUserId := by
    rw [rewardGranted_eq, rewardGranted_eq, hreferrals]
  cases h with
  | untouched hidle hflag hrow hpaid =>
    rw [← hgranted] at hflag
    rw [← hledger] at hrow
    exact .untouched hidle hflag hrow hpaid
  | touched i x hi hothers hnot hflag hsays =>
    rw [← hgrantable] at hnot
    rw [← hgranted] at hflag
    rw [← hledger] at hsays
    exact .touched i x hi hothers hnot hflag hsays

theorem Stages.of_stage (h : Stages referrerId referredUserId xs paid t) (hi : xs[i]? = some x)
    (hx : x ≠ .idle) :
    (∀ (j : ℕ) (y : ReferralStage), j ≠ i → xs[j]? = some y → y = .idle) ∧
      t.grantable referrerId referredUserId = false ∧
      t.rewardGranted referrerId referredUserId = true ∧
      StageSays referrerId (t.ledger.row (referralRewardTransactionId referrerId referredUserId))
        paid x := by
  cases h with
  | untouched hidle _ _ _ => exact absurd (hidle x (List.mem_of_getElem? hi)) hx
  | touched j y hj hothers hnot hflag hsays =>
    by_cases hij : i = j
    · subst hij
      obtain rfl : x = y := Option.mem_unique hi hj
      exact ⟨hothers, hnot, hflag, hsays⟩
    · exact absurd (hothers i x hij hi) hx

theorem others_set (hothers : ∀ (j : ℕ) (y : ReferralStage), j ≠ i → xs[j]? = some y → y = .idle)
    (x' : ReferralStage) (j : ℕ) (y : ReferralStage) (hj : j ≠ i) (hy : (xs.set i x')[j]? = some y) :
    y = .idle := by
  rcases getElem?_set_cases hy with ⟨hji, -⟩ | ⟨-, hy⟩
  · exact absurd hji hj
  · exact hothers j y hj hy

theorem getElem?_set_of (hi : xs[i]? = some x) (x' : ReferralStage) : (xs.set i x')[i]? = some x' := by
  obtain ⟨hlt, -⟩ := List.getElem?_eq_some_iff.1 hi
  exact List.getElem?_set_self hlt

theorem Stages.grant (h : Stages referrerId referredUserId xs paid t) (hi : xs[i]? = some x)
    (hgrantable : t.grantable referrerId referredUserId = true) (inc : Option ℤ)
    (hnot : t'.grantable referrerId referredUserId = false)
    (hflag : t'.rewardGranted referrerId referredUserId = true) (hledger : t'.ledger = t.ledger) :
    Stages referrerId referredUserId (xs.set i (.granted inc)) (paid ++ inc.toList) t' := by
  cases h with
  | untouched hidle _ hrow hpaid =>
    apply Stages.touched i (.granted inc) (getElem?_set_of hi _)
    · intro j y hj hy
      rcases getElem?_set_cases hy with ⟨hji, -⟩ | ⟨-, hy⟩
      · exact absurd hji hj
      · exact hidle y (List.mem_of_getElem? hy)
    · exact hnot
    · exact hflag
    · refine ⟨?_, ?_⟩
      · rw [hpaid, List.nil_append]
      · rw [hledger]
        exact hrow
  | touched _ _ _ _ hnot' _ _ =>
    simp [hnot'] at hgrantable

theorem Stages.pay (h : Stages referrerId referredUserId xs paid t) {inc : Option ℤ}
    (hi : xs[i]? = some (.granted inc)) {row : CoinTransaction} (huser : row.userId = referrerId)
    (hid : row.transactionId = referralRewardTransactionId referrerId referredUserId)
    {paid' : List ℤ} (hpaid : inc.toList ++ paid' = [row.coins])
    (hreferrals : t'.referralsOf referrerId = t.referralsOf referrerId)
    (hledger : t'.ledger = t.ledger.insert row) :
    Stages referrerId referredUserId (xs.set i (.paid row.coins)) (paid ++ paid') t' := by
  obtain ⟨hothers, hnot, hflag, hpaid', hrow⟩ := h.of_stage hi nofun
  rw [← hid] at hrow
  apply Stages.touched i (.paid row.coins) (getElem?_set_of hi _) (others_set hothers _)
  · rw [grantable_eq, hreferrals, ← grantable_eq]
    exact hnot
  · rw [rewardGranted_eq, hreferrals, ← rewardGranted_eq]
    exact hflag
  · refine ⟨?_, ?_⟩
    · rw [hpaid', hpaid]
    · rw [hledger, ← hid, row_insert hrow, ← huser]
      rfl

theorem payment_plain (hc : c.plain = true) (t' : Store) :
    payment referrerId referredUserId ⟨t, c, r, t'⟩ = none := by
  unfold payment
  dsimp only
  split
  · cases hc
  · cases hc
  · rfl

theorem payment_of_not_delivered (hr : r.delivered = false) (t' : Store) :
    payment referrerId referredUserId ⟨t, c, r, t'⟩ = none := by
  grind [payment]

/-- **The stages after one command.** -/
theorem Stages.step (h : Stages referrerId referredUserId xs paid t) (hi : xs[i]? = some φ.stage)
    (hA : ReferralAllows referredUserId φ c) (hread : ∀ id ∈ φ.referrers, id = referrerId) :
    Stages referrerId referredUserId (xs.set i (φ.next referredUserId c r t).stage)
      (paid ++ (payment referrerId referredUserId ⟨t, c, r, c.exec r t⟩).toList) (c.exec r t) := by
  obtain ⟨hlt, hget⟩ := List.getElem?_eq_some_iff.1 hi
  have hsame : ∀ {t' : Store}, φ.stage.next referredUserId c r t = φ.stage →
      payment referrerId referredUserId ⟨t, c, r, c.exec r t⟩ = none →
      t'.referralsOf referrerId = t.referralsOf referrerId → t'.ledger = t.ledger →
      Stages referrerId referredUserId (xs.set i (φ.next referredUserId c r t).stage)
        (paid ++ (payment referrerId referredUserId ⟨t, c, r, c.exec r t⟩).toList) t' := by
    intro t' hstage hpay hreferrals hledger
    have hnext : (φ.next referredUserId c r t).stage = φ.stage := hstage
    rw [hnext, hpay, Option.toList_none, List.append_nil, ← hget, List.set_getElem_self]
    exact h.congr hreferrals hledger
  by_cases hr : r.delivered = false
  · apply hsame (if_pos hr) (payment_of_not_delivered hr _)
    · rw [exec_of_not_delivered hr]
    · rw [exec_of_not_delivered hr]
  have hexec : c.exec r t = _ := if_neg hr
  have hstage : φ.stage.next referredUserId c r t = _ := if_neg hr
  rw [Bool.not_eq_false] at hr
  cases c with
  | grant id id' inc =>
    obtain ⟨rfl, hmem, hidle⟩ := hA
    obtain rfl := hread id hmem
    cases hgrantable : t.grantable id id' with
    | true =>
      obtain ⟨hnot, hflag⟩ := grant_grantable (r := r) hr inc hgrantable
      have hnext : (φ.next id' (.grant id id' inc) r t).stage = .granted inc :=
        hstage.trans (if_pos ⟨rfl, hgrantable⟩)
      have hpay : payment id id' ⟨t, .grant id id' inc, r, Cmd.exec (.grant id id' inc) r t⟩ = inc :=
        if_pos ⟨hr, rfl, rfl, hgrantable⟩
      rw [hnext, hpay]
      apply h.grant hi hgrantable inc hnot hflag
      rw [hexec]
      rfl
    | false =>
      apply hsame
      · apply hstage.trans
        apply if_neg
        simp [hgrantable]
      · apply if_neg
        intro hpay
        have hfound : t.grantable id id' = true := hpay.2.2.2
        simp [hgrantable] at hfound
      · rw [Store.referralsOf, grant_same inc hgrantable]
        rfl
      · rw [hexec]
        rfl
  | createTransaction row =>
    obtain ⟨⟨hmem, hid⟩, hgranted⟩ := hA
    have huser := hread row.userId hmem
    rw [huser] at hid
    rw [hgranted] at hi
    obtain ⟨-, -, -, -, hrow⟩ := h.of_stage hi nofun
    have hnext : (φ.next referredUserId (.createTransaction row) r t).stage = .paid row.coins := by
      apply hstage.trans
      apply if_pos
      rw [hid, hrow]
      rfl
    rw [hnext]
    apply h.pay hi huser hid
    · rfl
    · apply exec_referralsOf
      intro _ _ _ heq
      cases heq
    · rw [hexec]
  | commit w =>
    cases w with
    | none =>
      apply hsame hstage rfl
      · rw [hexec]
      · rw [hexec]
    | some credit =>
      obtain ⟨⟨hmem, hid⟩, hgranted⟩ := hA
      have huser := hread credit.row.userId hmem
      rw [huser] at hid
      cases hconflicts : credit.conflicts t with
      | false =>
        have hnext : (φ.next referredUserId (.commit (some credit)) r t).stage =
            .paid credit.row.coins := hstage.trans (if_pos hconflicts)
        have hpay : payment referrerId referredUserId
            ⟨t, .commit (some credit), r, Cmd.exec (.commit (some credit)) r t⟩ =
              some credit.row.coins := if_pos ⟨hr, hconflicts, hid⟩
        rw [hgranted] at hi
        rw [hnext, hpay]
        apply h.pay hi huser hid
        · rfl
        · apply exec_referralsOf
          intro _ _ _ heq
          cases heq
        · rw [hexec]
          dsimp only
          rw [if_neg (by rw [hconflicts]; exact Bool.false_ne_true), Store.credit, putProgress_ledger]
      | true =>
        have hunchanged : Cmd.exec (.commit (some credit)) r t = t := by
          rw [hexec]
          exact if_pos hconflicts
        apply hsame
        · apply hstage.trans
          apply if_neg
          simp [hconflicts]
        · apply if_neg
          intro hpay
          have hfree : credit.conflicts t = false := hpay.2.1
          simp [hconflicts] at hfree
        · rw [hunchanged]
        · rw [hunchanged]
  | _ =>
    apply hsame (plain_stage rfl r t φ.stage) (payment_plain rfl _)
    · apply exec_referralsOf
      intro _ _ _ heq
      cases heq
    · exact exec_ledger_plain rfl

/-! ### The wallet -/

theorem income_of_not_delivered (hr : r.delivered = false) (t' : Store) :
    income referrerId ⟨t, c, r, t'⟩ = 0 := by
  unfold income
  rw [hr]
  split
  · exact if_neg fun h => absurd h.1 Bool.false_ne_true
  · rfl

theorem coins_grant (hr : r.delivered = true) (inc : Option ℤ) :
    (Cmd.exec (.grant referrerId referredUserId inc) r t).coins referrerId =
      (t.coins referrerId).map fun v =>
        v + if t.grantable referrerId referredUserId = true then inc.getD 0 else 0 := by
  cases hgrantable : t.grantable referrerId referredUserId with
  | true =>
    rw [exec_grant hr, coins_updateUser fun u => grant_id u _ _, if_pos rfl, Store.coins,
      Option.map_map]
    rw [Store.grantable] at hgrantable
    cases hu : t.user referrerId with
    | none => rfl
    | some u =>
      rw [hu] at hgrantable
      have hgrantable : u.grantable referredUserId = true := hgrantable
      show some (u.grant referredUserId _).coins = some _
      rw [User.grant, if_pos hgrantable]
      rfl
  | false =>
    rw [Store.coins, grant_same inc hgrantable, Store.coins, Option.map_map]
    congr 1
    funext u
    show u.coins = u.coins + 0
    rw [add_zero]

theorem exec_coins_referrer (hA : ReferralAllows referredUserId φ c)
    (hread : ∀ id ∈ φ.referrers, id = referrerId) :
    (c.exec r t).coins referrerId = (t.coins referrerId).map fun v =>
      v + (payment referrerId referredUserId ⟨t, c, r, c.exec r t⟩).getD 0 +
        income referrerId ⟨t, c, r, c.exec r t⟩ := by
  have hsame : ∀ {t' : Store} {m n : ℤ}, t'.users = t.users → m = 0 → n = 0 →
      t'.coins referrerId = (t.coins referrerId).map fun v => v + m + n := by
    rintro t' m n husers rfl rfl
    rw [Store.coins, Store.user, husers]
    show t.coins referrerId = _
    cases t.coins referrerId with
    | none => rfl
    | some v => rw [Option.map_some, add_zero, add_zero]
  by_cases hr : r.delivered = false
  · apply hsame
    · rw [exec_of_not_delivered hr]
    · rw [payment_of_not_delivered hr]
      rfl
    · exact income_of_not_delivered hr _
  have hexec : c.exec r t = _ := if_neg hr
  rw [Bool.not_eq_false] at hr
  cases c with
  | grant id id' inc =>
    obtain ⟨rfl, hmem, -⟩ := hA
    obtain rfl := hread id hmem
    rw [coins_grant hr]
    congr 1
    funext v
    show v + _ = v + (payment id id' _).getD 0 + 0
    rw [add_zero, payment]
    dsimp only
    cases t.grantable id id' <;> simp_all
  | commit w =>
    cases w with
    | none =>
      have husers := congrArg Store.users hexec
      exact hsame husers rfl rfl
    | some credit =>
      obtain ⟨⟨hmem, hid⟩, -⟩ := hA
      have huser := hread credit.row.userId hmem
      rw [huser] at hid
      cases hconflicts : credit.conflicts t with
      | false =>
        have hpay : payment referrerId referredUserId
            ⟨t, .commit (some credit), r, Cmd.exec (.commit (some credit)) r t⟩ =
              some credit.row.coins := if_pos ⟨hr, hconflicts, hid⟩
        have hcredit : Cmd.exec (.commit (some credit)) r t = t.credit credit := by
          rw [hexec]
          exact if_neg (by rw [hconflicts]; exact Bool.false_ne_true)
        rw [hpay, hcredit, coins_credit, huser]
        congr 1
        funext v
        show v + (if referrerId = referrerId then _ else _) = v + credit.row.coins + 0
        rw [if_pos rfl, add_zero]
      | true =>
        apply hsame
        · simp [hexec, hconflicts]
        · have hnone : payment referrerId referredUserId
              ⟨t, .commit (some credit), r, Cmd.exec (.commit (some credit)) r t⟩ = none := by
            apply if_neg
            intro hpay
            have hfree : credit.conflicts t = false := hpay.2.1
            simp [hconflicts] at hfree
          rw [hnone]
          rfl
        · rfl
  | incCoins id amount =>
    rw [hexec]
    rw [coins_inc]
    congr 1
    funext v
    show v + (if id = referrerId then amount else 0) =
      v + 0 + (if r.delivered = true ∧ id = referrerId then amount else 0)
    rw [hr, add_zero]
    simp only [true_and]
  | createProgress userId =>
    apply hsame _ rfl rfl
    rw [hexec]
    dsimp only
    split <;> rfl
  | createEdge edge =>
    apply hsame _ rfl rfl
    rw [hexec]
    dsimp only
    split <;> rfl
  | _ =>
    have husers := congrArg Store.users hexec
    exact hsame husers rfl rfl

/-! ### Whole runs -/

def referralRun (referredUserId : String) (s : Store) (ms : List (Move ReferralRequest Reply)) :
    Pool Cmd Reply Store :=
  (start s).play Cmd.exec (referralProgram referredUserId) ms

/-- The run with how far every request is. -/
def watchedReferral (referredUserId : String) (s : Store) (ms : List (Move ReferralRequest Reply)) :
    Watched ReferralPhase Cmd Reply Store :=
  (Watched.start s).play (ReferralPhase.next referredUserId) (fun _ => .start) Cmd.exec
    (referralProgram referredUserId) ms

structure Rewarding (referrerId referredUserId : String) (s : Store) (φs : List ReferralPhase)
    (l : List (ReferralPhase × Event Cmd Reply Store)) (t : Store) : Prop where
  referredBy : (t.user referredUserId).bind User.referredBy = some referrerId
  read : ∀ (i : ℕ) (φ : ReferralPhase), φs[i]? = some φ → ∀ id ∈ φ.referrers, id = referrerId
  stages : Stages referrerId referredUserId (φs.map fun φ => φ.stage)
    (payments referrerId referredUserId (l.map Prod.snd)) t
  wallet : t.coins referrerId = (s.coins referrerId).map fun v =>
    v + (payments referrerId referredUserId (l.map Prod.snd)).sum +
      ((l.map Prod.snd).map (income referrerId)).sum

variable {φs : List ReferralPhase} {l : List (ReferralPhase × Event Cmd Reply Store)}

theorem payments_snoc (log : List (Event Cmd Reply Store)) (e : Event Cmd Reply Store) :
    payments referrerId referredUserId (log ++ [e]) =
      payments referrerId referredUserId log ++ (payment referrerId referredUserId e).toList := by
  rw [payments, payments, List.filterMap_append]
  congr 1

theorem Rewarding.spawn (h : Rewarding referrerId referredUserId s φs l t) :
    Rewarding referrerId referredUserId s (φs ++ [.start]) l t := by
  refine { h with read := ?_, stages := ?_ }
  · intro j φ hj id hid
    rcases getElem?_snoc_cases hj with hj | rfl
    · exact h.read j φ hj id hid
    · cases hid
  · rw [List.map_append]
    cases h.stages with
    | untouched hidle hflag hrow hpaid =>
      refine .untouched ?_ hflag hrow hpaid
      intro x hx
      rcases List.mem_append.1 hx with hx | hx
      · exact hidle x hx
      · exact List.mem_singleton.1 hx
    | touched i x hi hothers hnot hflag hsays =>
      refine .touched i x ?_ ?_ hnot hflag hsays
      · obtain ⟨hlt, -⟩ := List.getElem?_eq_some_iff.1 hi
        rw [List.getElem?_append_left hlt]
        exact hi
      · intro j y hj hy
        rcases getElem?_snoc_cases hy with hy | rfl
        · exact hothers j y hj hy
        · rfl

/-- **One command of a run.** -/
theorem Rewarding.step {i : ℕ} (h : Rewarding referrerId referredUserId s φs l t)
    (hi : φs[i]? = some φ) (hA : ReferralAllows referredUserId φ c) :
    Rewarding referrerId referredUserId s (φs.set i (φ.next referredUserId c r t))
      (l ++ [(φ, ⟨t, c, r, c.exec r t⟩)]) (c.exec r t) := by
  have hread := h.read i φ hi
  constructor
  · rw [exec_referredBy]
    exact h.referredBy
  · intro j ψ hj id hid
    rcases getElem?_set_cases hj with ⟨-, rfl⟩ | ⟨-, hj⟩
    · unfold ReferralPhase.next at hid
      split at hid
      · split at hid
        · rename_i hfound
          rcases List.mem_append.1 hid with hid | hid
          · exact hread id hid
          · rw [hfound.2, h.referredBy] at hid
            exact List.mem_singleton.1 hid
        · exact hread id hid
      · exact hread id hid
    · exact h.read j ψ hj id hid
  · have hstage : (φs.map fun φ => φ.stage)[i]? = some φ.stage := by
      rw [List.getElem?_map, hi]
      rfl
    have hstep := h.stages.step (r := r) hstage hA hread
    rw [List.map_set, List.map_append, List.map_singleton, payments_snoc]
    exact hstep
  · rw [exec_coins_referrer hA hread, h.wallet, Option.map_map, List.map_append, List.map_singleton,
      payments_snoc, List.sum_append, List.map_append, List.sum_append, List.map_singleton,
      List.sum_singleton]
    congr 1
    funext v
    have hsum : (payment referrerId referredUserId ⟨t, c, r, c.exec r t⟩).toList.sum =
        (payment referrerId referredUserId ⟨t, c, r, c.exec r t⟩).getD 0 := by
      cases payment referrerId referredUserId ⟨t, c, r, c.exec r t⟩ with
      | none => rfl
      | some n => exact List.sum_singleton
    rw [hsum]
    show v + _ + _ + _ + _ = v + (_ + _) + (_ + _)
    ring

/-- The flag is set, the row is not written. -/
def ReferralStage.between : ReferralStage → Bool
  | .granted _ => true
  | .idle | .paid _ => false

/-- No request stands between its flag and its row. -/
def NoneBetween (φs : List ReferralPhase) : Prop := ∀ φ ∈ φs, φ.stage.between = false

/-- **All or nothing**, exactly when no request stands between its flag and its row. -/
theorem allOrNothing_iff (hreferred : (s.user referredUserId).bind User.referredBy = some referrerId)
    (hflag : s.rewardGranted referrerId referredUserId = false)
    (hrow : s.ledger.row (referralRewardTransactionId referrerId referredUserId) = none)
    (ms : List (Move ReferralRequest Reply)) :
    AllOrNothing referrerId referredUserId s (referralRun referredUserId s ms) ↔
      NoneBetween (watchedReferral referredUserId s ms).phases := by
  have h₀ : Rewarding referrerId referredUserId s [] [] s := by
    refine ⟨hreferred, ?_, ?_, ?_⟩
    · intro i φ hi
      cases hi
    · exact .untouched (fun _ hx => nomatch hx) hflag hrow rfl
    · cases s.coins referrerId with
      | none => rfl
      | some v =>
        show some v = some (v + 0 + 0)
        rw [add_zero, add_zero]
  obtain ⟨-, hlog, hJ⟩ := Watched.play_phased (Rewarding referrerId referredUserId s) (fun _ => True)
    (referralProgram_follows referredUserId) h₀ (fun φs l t q h => h.spawn)
    (fun φs l t i φ c r h hi hA _ => h.step hi hA) ms fun _ _ => trivial
  rw [Watched.play_pool] at hlog hJ
  obtain ⟨-, -, hstages, hwallet⟩ := hJ
  rw [hlog] at hstages hwallet
  constructor
  · intro h φ hφ
    rw [← Bool.not_eq_true]
    intro hbetween
    obtain ⟨inc, hstage⟩ : ∃ inc, φ.stage = .granted inc := by
      cases hx : φ.stage with
      | granted inc => exact ⟨inc, rfl⟩
      | idle =>
        rw [hx] at hbetween
        cases hbetween
      | paid coins =>
        rw [hx] at hbetween
        cases hbetween
    obtain ⟨i, hi⟩ := List.mem_iff_getElem?.1 hφ
    have hget : ((watchedReferral referredUserId s ms).phases.map fun φ => φ.stage)[i]? =
        some (.granted inc) := by
      rw [List.getElem?_map, hi, ← hstage]
      rfl
    obtain ⟨-, -, hflag, hpaid, hnone⟩ := hstages.of_stage hget nofun
    have hempty := h.row
    have hnotInVain := h.notInVain hflag
    have hnone : (referralRun referredUserId s ms).store.ledger.row
        (referralRewardTransactionId referrerId referredUserId) = none := hnone
    rw [hnone] at hempty
    exact hnotInVain (List.map_eq_nil_iff.1 hempty.symm)
  · intro h
    cases hstages with
    | untouched _ hflag hnone hpaid =>
      have hpaid : payments referrerId referredUserId (referralRun referredUserId s ms).log = [] :=
        hpaid
      have hnone : (referralRun referredUserId s ms).store.ledger.row
          (referralRewardTransactionId referrerId referredUserId) = none := hnone
      refine ⟨?_, ?_, ?_, hwallet⟩
      · rw [hpaid]
        exact Nat.zero_le 1
      · rw [hpaid, hnone]
        rfl
      · intro htrue
        have hflag : (referralRun referredUserId s ms).store.rewardGranted referrerId
            referredUserId = false := hflag
        simp [hflag] at htrue
    | touched i x hi _ _ _ hsays =>
      cases x with
      | idle => exact hsays.elim
      | granted inc =>
        rw [List.getElem?_map, Option.map_eq_some_iff] at hi
        obtain ⟨φ, hφ, hstage⟩ := hi
        have hfalse := h φ (List.mem_of_getElem? hφ)
        rw [hstage] at hfalse
        cases hfalse
      | paid coins =>
        obtain ⟨hpaid, hrow⟩ := hsays
        have hpaid : payments referrerId referredUserId (referralRun referredUserId s ms).log =
            [coins] := hpaid
        have hrow : ((referralRun referredUserId s ms).store.ledger.row
            (referralRewardTransactionId referrerId referredUserId)).map
              (fun t => (t.userId, t.coins)) = some (referrerId, coins) := hrow
        refine ⟨?_, ?_, ?_, hwallet⟩
        · rw [hpaid]
          exact le_rfl
        · rw [hpaid, hrow]
          rfl
        · intro _
          rw [hpaid]
          exact List.cons_ne_nil _ _

def sampleReferral : Store :=
  { users := [⟨"r", "user", 0, none, [⟨"d", false⟩]⟩, ⟨"d", "user", 0, some "r", []⟩]
    ledger := ⟨[], List.nodup_nil⟩
    progress := []
    edges := [⟨"r", "d", false⟩] }

def qualifiedCall : ReferralRequest := .call ⟨true, true, none, 20⟩ 200 3

def answered : Reply := ⟨true, true, false⟩

/-- A qualified call, up to its `n`-th command. -/
def callSteps (n : ℕ) : List (Move ReferralRequest Reply) :=
  .spawn qualifiedCall :: List.replicate n (.step 0 answered)

theorem allOrNothing_sample :
    AllOrNothing "r" "d" sampleReferral (referralRun "d" sampleReferral (callSteps 7)) :=
  (allOrNothing_iff rfl rfl rfl (callSteps 7)).2 (by unfold NoneBetween; decide +kernel)

theorem flag_in_vain :
    ¬ AllOrNothing "r" "d" sampleReferral (referralRun "d" sampleReferral (callSteps 4)) := by
  intro h
  have hflag : (referralRun "d" sampleReferral (callSteps 4)).store.rewardGranted "r" "d" = true := by
    decide +kernel
  have hpaid : payments "r" "d" (referralRun "d" sampleReferral (callSteps 4)).log = [] := by
    decide +kernel
  exact h.notInVain hflag hpaid

end VibemeetBackend.Rewards
