import VibemeetBackend.Async.Watch
import VibemeetBackend.Rewards.Credit

/-!
# A task is credited once

Whole runs of task credits: any requests, with other changes of the wallets between any two of their
commands, aborted and retried transactions, and requests that stop for good anywhere.
-/

namespace VibemeetBackend.Rewards

open Async Flow

/-! ### Requests -/

inductive TaskRequest where
  | once (input : OnceInput) (attempts : ℕ)
  | daily (input : DailyInput) (attempts : ℕ)
  | view (cfg : DailyConfig) (userId momentId : String) (freeTierAccess : Bool) (todayKey : String)
      (credit : DailyConfig × String) (attempts : ℕ)
  | like (cfg : DailyConfig) (userId momentId todayKey : String) (credit : DailyConfig × String)
      (attempts : ℕ)
  | income (userId : String) (amount : ℤ)

def taskProgram : TaskRequest → Prog Cmd Reply Store Unit
  | .once input attempts => (creditOnceTaskReward input attempts).run >>= fun _ => .ret ()
  | .daily input attempts => (creditDailyTaskReward input attempts).run >>= fun _ => .ret ()
  | .view cfg userId momentId freeTierAccess todayKey credit attempts =>
    (recordMomentViewForReward cfg userId momentId freeTierAccess todayKey credit attempts).run >>=
      fun _ => .ret ()
  | .like cfg userId momentId todayKey credit attempts =>
    (recordMomentLikeForReward cfg userId momentId todayKey credit attempts).run >>= fun _ => .ret ()
  | .income userId amount => .act (.incCoins userId amount) fun _ _ => .ret ()

/-! ### What a request has credited -/

abbrev Credited : Type := Option CoinTransaction

def committed (c : Cmd) (r : Reply) (s : Store) : Option CoinTransaction :=
  match c with
  | .commit (some credit) =>
    if transactions.applied (some credit) r s = true then some credit.row else none
  | _ => none

def Credited.next (φ : Credited) (c : Cmd) (r : Reply) (s : Store) : Credited :=
  committed c r s <|> φ

def TaskAllows (φ : Credited) : Cmd → Prop
  | .commit _ => φ = none
  | .report row result =>
    (result.alreadyClaimed = false → φ = some row ∧ result.coinsCredited = row.coins) ∧
      (result.alreadyClaimed = true → φ = none ∧ result.coinsCredited = 0)
  | .createTransaction _ | .grant .. => False
  | _ => True

abbrev TaskFollows (φ : Credited) {α : Type} (p : RewardFlow α) : Prop :=
  Follows (guarded TaskAllows Credited.next) φ p (fun _ _ => True) fun _ _ => True

section protocol

variable {φ : Credited} {α : Type}

theorem next_eq {c : Cmd} {r : Reply} {s : Store} (h : committed c r s = none) : φ.next c r s = φ := by
  rw [Credited.next, h]
  rfl

abbrev CreditsNothing (p : RewardFlow α) : Prop :=
  Follows (guarded TaskAllows Credited.next) none p (fun _ φ => φ = none) fun _ _ => True

theorem creditsNothing_bind {β : Type} {p : RewardFlow β} {f : β → RewardFlow α}
    {Q : α → Credited → Prop} (hp : CreditsNothing p)
    (hf : ∀ b, Follows (guarded TaskAllows Credited.next) none (f b) Q fun _ _ => True) :
    Follows (guarded TaskAllows Credited.next) none (p >>= f) Q fun _ _ => True := by
  apply follows_bind
  apply Follows.mono hp
  · rintro b φ rfl
    exact hf b
  · intro e φ _
    trivial

theorem creditsNothing_run {c : Cmd} (hc : TaskAllows none c)
    (hcommit : ∀ r s, committed c r s = none) : CreditsNothing (run c) := by
  simp_all [next_eq, run]

theorem credit_follows {row : CoinTransaction}
    {body : Store → Except String (Option Credit × CreditResult)}
    (hbody : ∀ s w a, body s = .ok (w, a) → CreditFor row w a) (attempts : ℕ) :
    TaskFollows none (do
      let result ← withTransaction transactions body attempts
      let _ ← issue (.report row result)
      pure result) := by
  apply follows_bind
  apply follows_withTransaction transactions (P := fun φ => φ = none)
  · rintro φ r s rfl
    exact ⟨none, guarded_of trivial, rfl⟩
  · rintro φ s₀ w a rfl hok r s
    refine ⟨_, guarded_of rfl, ?_, ?_⟩
    · intro happlied
      refine ⟨?_, fun _ => trivial⟩
      have hspec := hbody s₀ w a hok
      apply follows_issue_bind
      intro r' s'
      refine ⟨_, guarded_of ?_, trivial⟩
      cases w with
      | none =>
        refine ⟨fun hfalse => ?_, fun _ => ⟨rfl, hspec.2⟩⟩
        simp [hspec.1] at hfalse
      | some credit =>
        refine ⟨fun _ => ⟨?_, hspec.2.2⟩, fun htrue => ?_⟩
        · show (committed (.commit (some credit)) r s <|> none) = some row
          simp [committed, happlied, hspec.1]
        · simp [hspec.2.1] at htrue
    · intro happlied
      apply next_eq
      cases w with
      | none => rfl
      | some credit =>
        apply if_neg
        simp [happlied]
  · intro e φ _
    trivial
  · rfl

theorem once_follows (input : OnceInput) (attempts : ℕ) :
    TaskFollows none (creditOnceTaskReward input attempts) :=
  credit_follows (fun _ _ _ => onceTask_spec) attempts

theorem daily_follows (input : DailyInput) (attempts : ℕ) :
    TaskFollows none (creditDailyTaskReward input attempts) :=
  credit_follows (fun _ _ _ => dailyTask_spec) attempts

theorem ensure_creditsNothing (userId : String) :
    CreditsNothing (ensureUserRewardProgress userId) := by
  apply creditsNothing_bind (creditsNothing_run (c := .findProgress userId) trivial fun _ _ => rfl)
  rintro ⟨_, s⟩
  dsimp only
  split
  · exact follows_pure rfl
  apply creditsNothing_bind (creditsNothing_run (c := .createProgress userId) trivial fun _ _ => rfl)
  rintro ⟨_, s⟩
  split
  · exact follows_pure rfl
  apply creditsNothing_bind (creditsNothing_run (c := .findProgress userId) trivial fun _ _ => rfl)
  rintro ⟨_, s⟩
  split <;> simp

theorem add_creditsNothing (userId : String) (task : DailyTask) (momentId todayKey : String) :
    CreditsNothing (atomicAddDailyMomentId userId task momentId todayKey) := by
  apply creditsNothing_bind (ensure_creditsNothing userId)
  intro _
  apply creditsNothing_bind
    (creditsNothing_run (c := .resetDaily userId todayKey) trivial fun _ _ => rfl)
  intro _
  apply creditsNothing_bind
    (creditsNothing_run (c := .addDaily userId todayKey task momentId) trivial fun _ _ => rfl)
  intro _
  apply creditsNothing_bind (creditsNothing_run (c := .findProgress userId) trivial fun _ _ => rfl)
  rintro ⟨_, s⟩
  dsimp only
  split <;> simp

theorem tryCredit_follows (cfg : DailyConfig) (userId : String) (task : DailyTask)
    (todayKey : String) (attempts : ℕ) :
    TaskFollows none (tryCreditWatchOrLikeDaily cfg userId task todayKey attempts) := by
  unfold tryCreditWatchOrLikeDaily
  split
  · trivial
  split
  · trivial
  apply creditsNothing_bind (ensure_creditsNothing userId)
  intro progress
  split
  · trivial
  split
  · trivial
  · apply follows_bind
    apply Follows.mono (daily_follows _ attempts)
    · intro _ _ _
      trivial
    · intro _ _ _
      trivial

theorem recordMoment_follows (cfg : DailyConfig) (userId : String) (task : DailyTask)
    (momentId todayKey : String) (credit : DailyConfig × String) (attempts : ℕ) :
    TaskFollows none (recordMoment cfg userId task momentId todayKey credit attempts) := by
  unfold recordMoment
  split
  · trivial
  apply creditsNothing_bind (creditsNothing_run (c := .findUser userId) trivial fun _ _ => rfl)
  rintro ⟨_, s⟩
  dsimp only
  split
  · trivial
  split
  · trivial
  apply creditsNothing_bind (add_creditsNothing userId task momentId todayKey)
  rintro ⟨count, claimed⟩
  split
  · apply follows_bind
    apply Follows.mono (tryCredit_follows credit.1 userId task credit.2 attempts)
    · intro _ _ _
      trivial
    · intro _ _ _
      trivial
  · trivial

theorem taskProgram_follows (q : TaskRequest) :
    (taskProgram q).Follows (guarded TaskAllows Credited.next) none fun _ _ => True := by
  cases q with
  | once input attempts => exact Follows.run (once_follows input attempts)
  | daily input attempts => exact Follows.run (daily_follows input attempts)
  | view cfg userId momentId freeTierAccess todayKey credit attempts =>
    apply Follows.run
    simp [recordMomentViewForReward, recordMoment_follows]
  | like cfg userId momentId todayKey credit attempts =>
    apply Follows.run
    simp [recordMoment_follows, recordMomentLikeForReward]
  | income userId amount => exact fun r s => ⟨_, guarded_of trivial, trivial⟩

end protocol

/-! ### What a run credits -/

def rowsCredited (log : List (Credited × Event Cmd Reply Store)) : List CoinTransaction :=
  log.filterMap fun x => committed x.2.cmd x.2.ans x.2.before

def gain (userId : String) (e : Event Cmd Reply Store) : ℤ :=
  match e.cmd with
  | .commit _ =>
    match committed e.cmd e.ans e.before with
    | some row => if row.userId = userId then row.coins else 0
    | none => 0
  | .incCoins id amount => if e.ans.delivered = true ∧ id = userId then amount else 0
  | _ => 0

def Cmd.ofCredit : Cmd → Bool
  | .snapshot | .commit _ | .report .. => true
  | _ => false

/-- Every row of the run was credited with its amount, once, and the requests say so. -/
structure CreditedOnce (s : Store) (w : Watched Credited Cmd Reply Store) : Prop where
  rows : w.pool.store.ledger.rows = s.ledger.rows ++ rowsCredited w.log
  once : ∀ id, (rowsCredited w.log).countP (fun t => t.transactionId == id) ≤ 1
  wallets : ∀ userId, w.pool.store.coins userId =
    (s.coins userId).map fun v => v + (w.log.map fun x => gain userId x.2).sum
  credited : ∀ x ∈ w.log, ∀ row result, x.2.cmd = .report row result →
    result.alreadyClaimed = false →
      row ∈ rowsCredited w.log ∧ result.coinsCredited = row.coins ∧
        (rowsCredited w.log).countP (fun t => t.transactionId == row.transactionId) = 1
  alreadyClaimed : ∀ x ∈ w.log, ∀ row result, x.2.cmd = .report row result →
    result.alreadyClaimed = true → x.1 = none ∧ result.coinsCredited = 0
  unchanged : ∀ x ∈ w.log, x.2.cmd.ofCredit = true →
    committed x.2.cmd x.2.ans x.2.before = none → x.2.after = x.2.before

/-! ### What a command does -/

variable {φ : Credited} {s t : Store} {c : Cmd} {r : Reply}

theorem committed_some {row : CoinTransaction} (h : committed c r t = some row) :
    ∃ credit : Credit, c = .commit (some credit) ∧ credit.row = row ∧ c.exec r t = t.credit credit ∧
      t.ledger.row row.transactionId = none := by
  unfold committed at h
  split at h
  · rename_i credit
    split at h
    · rename_i happlied
      cases h
      have happlied : (r.delivered && !credit.conflicts t) = true := happlied
      rw [Bool.and_eq_true, Bool.not_eq_true'] at happlied
      refine ⟨credit, rfl, rfl, ?_, ?_⟩
      · show (if r.delivered = false then t else if credit.conflicts t = true then t
          else t.credit credit) = _
        rw [happlied.1, happlied.2]
        rfl
      · have hconflicts := happlied.2
        simp_all [Credit.conflicts]
    · cases h
  · cases h

theorem exec_unchanged (hc : c.ofCredit = true) (h : committed c r t = none) : c.exec r t = t := by
  by_cases hr : r.delivered = false
  · exact exec_of_not_delivered hr
  cases c with
  | commit w =>
    have hexec : Cmd.exec (.commit w) r t = _ := if_neg hr
    rw [hexec]
    cases w with
    | none => rfl
    | some credit =>
      apply if_pos
      by_contra hconflicts
      rw [Bool.not_eq_true] at hconflicts
      have happlied : transactions.applied (some credit) r t = true := by
        show (r.delivered && !credit.conflicts t) = true
        rw [hconflicts, Bool.eq_true_of_not_eq_false hr]
        rfl
      simp [committed, if_pos happlied] at h
  | snapshot => exact if_neg hr
  | report row result => exact if_neg hr
  | _ => cases hc

theorem exec_rows (hA : TaskAllows φ c) :
    (c.exec r t).ledger.rows = t.ledger.rows ++ (committed c r t).toList := by
  cases hcommitted : committed c r t with
  | some row =>
    obtain ⟨credit, -, rfl, hexec, hnone⟩ := committed_some hcommitted
    rw [hexec, Store.credit, putProgress_ledger]
    exact Ledger.insert_rows hnone
  | none =>
    rw [Option.toList_none, List.append_nil]
    by_cases hr : r.delivered = false
    · rw [exec_of_not_delivered hr]
    have hexec : c.exec r t = _ := if_neg hr
    cases c with
    | snapshot => rw [exec_unchanged rfl hcommitted]
    | commit w => rw [exec_unchanged rfl hcommitted]
    | report row result => rw [exec_unchanged rfl hcommitted]
    | createTransaction row => exact hA.elim
    | grant referrerId referredUserId inc => exact hA.elim
    | createProgress userId =>
      rw [hexec]
      dsimp only
      split <;> rfl
    | createEdge edge =>
      rw [hexec]
      dsimp only
      split <;> rfl
    | _ =>
      have hledger := congrArg (fun t => t.ledger.rows) hexec
      exact hledger

theorem exec_coins (hA : TaskAllows φ c) (userId : String) :
    (c.exec r t).coins userId =
      (t.coins userId).map fun v => v + gain userId ⟨t, c, r, c.exec r t⟩ := by
  have hsame : ∀ {t' : Store} {n : ℤ}, t'.users = t.users → n = 0 →
      t'.coins userId = (t.coins userId).map fun v => v + n := by
    rintro t' n husers rfl
    rw [Store.coins, Store.user, husers]
    show t.coins userId = _
    cases t.coins userId with
    | none => rfl
    | some v => rw [Option.map_some, add_zero]
  cases hcommitted : committed c r t with
  | some row =>
    obtain ⟨credit, rfl, rfl, hexec, -⟩ := committed_some hcommitted
    simp [hexec, coins_credit, gain, hcommitted]
  | none =>
    by_cases hr : r.delivered = false
    · apply hsame
      · rw [exec_of_not_delivered hr]
      grind [gain]
    have hexec : c.exec r t = _ := if_neg hr
    cases c with
    | commit w =>
      apply hsame
      · rw [exec_unchanged rfl hcommitted]
      · simp [gain, hcommitted]
    | incCoins id amount =>
      rw [Bool.not_eq_false] at hr
      have hgain : gain userId ⟨t, .incCoins id amount, r, Cmd.exec (.incCoins id amount) r t⟩ =
          if id = userId then amount else 0 := by
        simp [gain, hr]
      rw [hgain, hexec]
      exact coins_inc t id userId amount
    | createTransaction row => exact hA.elim
    | grant referrerId referredUserId inc => exact hA.elim
    | createProgress id =>
      apply hsame _ rfl
      rw [hexec]
      dsimp only
      split <;> rfl
    | createEdge edge =>
      apply hsame _ rfl
      rw [hexec]
      dsimp only
      split <;> rfl
    | _ =>
      have husers := congrArg Store.users hexec
      exact hsame husers rfl

/-! ### Whole runs -/

def watchedTasks (s : Store) (ms : List (Move TaskRequest Reply)) :
    Watched Credited Cmd Reply Store :=
  (Watched.start s).play Credited.next (fun _ => none) Cmd.exec taskProgram ms

structure Crediting (s : Store) (φs : List Credited) (l : List (Credited × Event Cmd Reply Store))
    (t : Store) : Prop where
  rows : t.ledger.rows = s.ledger.rows ++ rowsCredited l
  wallets : ∀ userId, t.coins userId =
    (s.coins userId).map fun v => v + (l.map fun x => gain userId x.2).sum
  phases : ∀ (i : ℕ) (row : CoinTransaction), φs[i]? = some (some row) → row ∈ rowsCredited l
  credited : ∀ x ∈ l, ∀ row result, x.2.cmd = .report row result →
    result.alreadyClaimed = false → row ∈ rowsCredited l ∧ result.coinsCredited = row.coins
  alreadyClaimed : ∀ x ∈ l, ∀ row result, x.2.cmd = .report row result →
    result.alreadyClaimed = true → x.1 = none ∧ result.coinsCredited = 0
  unchanged : ∀ x ∈ l, x.2.cmd.ofCredit = true →
    committed x.2.cmd x.2.ans x.2.before = none → x.2.after = x.2.before

variable {φs : List Credited} {l : List (Credited × Event Cmd Reply Store)} {i : ℕ}

theorem rowsCredited_snoc (x : Credited × Event Cmd Reply Store) :
    rowsCredited (l ++ [x]) =
      rowsCredited l ++ (committed x.2.cmd x.2.ans x.2.before).toList := by
  rw [rowsCredited, rowsCredited, List.filterMap_append]
  congr 1

theorem crediting_start : Crediting s [] [] s := by
  constructor
  · rw [rowsCredited, List.filterMap_nil, List.append_nil]
  · simp_all
  · intro i row hi
    cases hi
  · intro x hx
    cases hx
  · intro x hx
    cases hx
  · intro x hx
    cases hx

theorem Crediting.spawn (h : Crediting s φs l t) : Crediting s (φs ++ [none]) l t := by
  refine { h with phases := ?_ }
  intro i row hi
  rcases Pool.getElem?_snoc_cases hi with hi | hnone
  · exact h.phases i row hi
  · cases hnone

/-- **One command of a run.** -/
theorem Crediting.step (h : Crediting s φs l t) (hi : φs[i]? = some φ) (hA : TaskAllows φ c) :
    Crediting s (φs.set i (φ.next c r t)) (l ++ [(φ, ⟨t, c, r, c.exec r t⟩)]) (c.exec r t) := by
  have hmono : ∀ row, row ∈ rowsCredited l →
      row ∈ rowsCredited (l ++ [(φ, ⟨t, c, r, c.exec r t⟩)]) := by
    intro row hrow
    rw [rowsCredited_snoc]
    exact List.mem_append_left _ hrow
  constructor
  · rw [rowsCredited_snoc, exec_rows hA, h.rows, List.append_assoc]
  · intro userId
    rw [exec_coins hA, h.wallets, Option.map_map, List.map_append, List.sum_append,
      List.map_singleton, List.sum_singleton]
    congr 1
    funext v
    show v + _ + _ = v + (_ + _)
    rw [add_assoc]
  · intro j row hj
    rcases Pool.getElem?_set_cases hj with ⟨-, hnext⟩ | ⟨-, hj⟩
    · rw [Credited.next] at hnext
      cases hcommitted : committed c r t with
      | none =>
        rw [hcommitted] at hnext
        have hφ : φ = some row := hnext
        rw [hφ] at hi
        exact hmono row (h.phases i row hi)
      | some row' =>
        rw [hcommitted] at hnext
        obtain rfl : row' = row := Option.some.inj hnext
        rw [rowsCredited_snoc]
        apply List.mem_append_right
        show row' ∈ (committed c r t).toList
        simp [hcommitted]
    · exact hmono row (h.phases j row hj)
  · intro x hx row result hreport hclaimed
    rcases mem_snoc.1 hx with hx | rfl
    · obtain ⟨hrow, hcoins⟩ := h.credited x hx row result hreport hclaimed
      exact ⟨hmono row hrow, hcoins⟩
    · obtain rfl : c = .report row result := hreport
      obtain ⟨rfl, hcoins⟩ := hA.1 hclaimed
      exact ⟨hmono row (h.phases i row hi), hcoins⟩
  · apply Pool.forall_snoc h.alreadyClaimed
    intro row result hreport hclaimed
    obtain rfl : c = .report row result := hreport
    exact hA.2 hclaimed
  · apply Pool.forall_snoc h.unchanged
    intro hcredit hnone
    exact exec_unchanged hcredit hnone

/-- **Exactly once.**  In every run of task credits the ledger has one row for each credit, the wallet
has each row's coins, and what the requests return says which. -/
theorem creditedOnce_run (s : Store) (ms : List (Move TaskRequest Reply)) :
    CreditedOnce s (watchedTasks s ms) := by
  obtain ⟨-, -, hJ⟩ := Watched.play_phased (Crediting s) (fun _ => True) taskProgram_follows
    crediting_start (fun φs l t q h => h.spawn) (fun φs l t i φ c r h hi hA _ => h.step hi hA) ms
    fun _ _ => trivial
  have honce : ∀ id, (rowsCredited (watchedTasks s ms).log).countP
      (fun t => t.transactionId == id) ≤ 1 := by
    intro id
    have hone := (watchedTasks s ms).pool.store.ledger.countP_le_one id
    have hrows : (watchedTasks s ms).pool.store.ledger.rows =
        s.ledger.rows ++ rowsCredited (watchedTasks s ms).log := hJ.rows
    rw [hrows, List.countP_append] at hone
    omega
  refine ⟨hJ.rows, honce, hJ.wallets, ?_, hJ.alreadyClaimed, hJ.unchanged⟩
  intro x hx row result hreport hclaimed
  obtain ⟨hrow, hcoins⟩ := hJ.credited x hx row result hreport hclaimed
  have hpos : 0 < (rowsCredited (watchedTasks s ms).log).countP
      (fun t => t.transactionId == row.transactionId) := by
    rw [List.countP_pos_iff]
    exact ⟨row, hrow, beq_self_eq_true _⟩
  have hle := honce row.transactionId
  refine ⟨hrow, hcoins, ?_⟩
  omega

end VibemeetBackend.Rewards
