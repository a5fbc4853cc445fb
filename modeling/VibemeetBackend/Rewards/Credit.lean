import VibemeetBackend.Rewards.Store

/-!
# Crediting a task

`consumer-rewards/credit-reward.service.ts`: the credit of a once task and of a daily task, each one
transaction, and the daily counters of `consumer-rewards/hooks.ts` that lead to it.

Metrics, sockets and logs are left out.
-/

namespace VibemeetBackend.Rewards

open Async

/-! ### Commands -/

structure Reply where
  delivered : Bool
  answered : Bool
  /-- A failure with the label `TransientTransactionError`. -/
  transient : Bool

def Reply.ok (r : Reply) : Bool := r.delivered && r.answered

structure CreditResult where
  alreadyClaimed : Bool
  coinsCredited : ℤ
  balance : ℤ

inductive Cmd where
  | snapshot
  | commit (credit : Option Credit)
  | findUser (id : String)
  | findProgress (userId : String)
  | findTransaction (transactionId : String)
  | findEdge (referredUserId : String)
  | createProgress (userId : String)
  /-- `$set: { daily }`, when the stored day is another. -/
  | resetDaily (userId dateKey : String)
  /-- `$addToSet` of a moment, on the day `dateKey`, below the cap. -/
  | addDaily (userId dateKey : String) (task : DailyTask) (momentId : String)
  | claim (userId key : String)
  | createTransaction (row : CoinTransaction)
  /-- `referrals.$[r].rewardGranted`, where it is not set, and with it `$inc` of the wallet. -/
  | grant (referrerId referredUserId : String) (inc : Option ℤ)
  | createEdge (edge : ReferralEdge)
  | grantEdge (referredUserId : String)
  /-- `$inc` of a wallet by somebody else. -/
  | incCoins (userId : String) (amount : ℤ)
  /-- The return of a credit: the row that it was called for, and its result. -/
  | report (row : CoinTransaction) (result : CreditResult)

def dailyUniqueIdsCap : ℕ := 50

def Cmd.exec (c : Cmd) (r : Reply) (s : Store) : Store :=
  if r.delivered = false then s
  else
    match c with
    | .snapshot | .findUser _ | .findProgress _ | .findTransaction _ | .findEdge _ | .report .. => s
    | .commit credit =>
      match credit with
      | some c => if c.conflicts s = true then s else s.credit c
      | none => s
    | .createProgress userId =>
      match s.progressOf userId with
      | some _ => s
      | none => { s with progress := s.progress ++ [.fresh userId] }
    | .resetDaily userId dateKey =>
      s.updateProgress userId fun p =>
        if p.daily.dateKey = dateKey then p else { p with daily := .fresh dateKey }
    | .addDaily userId dateKey task momentId =>
      s.updateProgress userId fun p =>
        if p.daily.dateKey = dateKey ∧ (p.daily.ids task).length < dailyUniqueIdsCap ∧
            momentId ∉ p.daily.ids task then
          { p with daily := p.daily.setIds (p.daily.ids task ++ [momentId]) task }
        else p
    | .claim userId key =>
      s.updateProgress userId fun p =>
        if key ∈ p.claimed then p else { p with claimed := p.claimed ++ [key] }
    | .createTransaction row => { s with ledger := s.ledger.insert row }
    | .grant referrerId referredUserId inc =>
      s.updateUser referrerId fun u => u.grant referredUserId (inc.getD 0)
    | .createEdge edge =>
      match s.edge edge.referredUserId with
      | some _ => s
      | none => { s with edges := s.edges ++ [edge] }
    | .grantEdge referredUserId =>
      { s with edges := s.edges.map fun e =>
          if e.referredUserId = referredUserId then { e with rewardGranted := true } else e }
    | .incCoins userId amount =>
      s.updateUser userId fun u => { u with coins := u.coins + amount }

variable {s : Store}

theorem exec_of_not_delivered {c : Cmd} {r : Reply} (hr : r.delivered = false) :
    c.exec r s = s := if_pos hr

abbrev RewardFlow (α : Type) : Type := Flow Cmd Reply Store α

def run (c : Cmd) : RewardFlow (Reply × Store) := Flow.call Reply.ok "MongoServerError" c

def transactions : Transactions Cmd Reply Store Credit where
  snapshot := .snapshot
  commit := .commit
  delivered := Reply.delivered
  answered := Reply.answered
  transient := Reply.transient
  conflicts := Credit.conflicts

/-! ### The credits -/

structure OnceInput where
  userId : String
  taskKey : String
  progressClaimKey : Option String
  transactionId : String
  coins : ℤ
  source : String

def OnceInput.row (input : OnceInput) : CoinTransaction :=
  ⟨input.transactionId, input.userId, input.coins, input.source⟩

/-- The credit of `row` to `user`, with the progress that it leaves.  The duplicate key of a row that
exists aborts the transaction, so its commit is refused and nobody gets the answer that the row
exists. -/
def creditOf (s : Store) (user : User) (row : CoinTransaction) (progress : Progress) :
    Option Credit × CreditResult :=
  (some ⟨row, user, s.progressOf row.userId, progress⟩, ⟨false, row.coins, user.coins + row.coins⟩)

/-- The callback of `creditOnceTaskReward`, on the snapshot `s`. -/
def onceTask (input : OnceInput) (s : Store) : Except String (Option Credit × CreditResult) :=
  let progressKey := input.progressClaimKey.getD input.taskKey
  match s.user input.userId with
  | none => .error "User not found"
  | some user =>
    if user.role ≠ "user" then .error "Rewards only available for users"
    else
      let progress := (s.progressOf input.userId).getD (.fresh input.userId)
      if progressKey ∈ progress.claimed then .ok (none, ⟨true, 0, user.coins⟩)
      else if input.coins ≤ 0 then .error "Invalid reward amount"
      else .ok (creditOf s user input.row
        { progress with claimed := progress.claimed ++ [progressKey] })

def creditOnceTaskReward (input : OnceInput) (attempts : ℕ) : RewardFlow CreditResult := do
  let result ← Flow.withTransaction transactions (onceTask input) attempts
  let _ ← Flow.issue (.report input.row result)
  pure result

structure DailyInput where
  userId : String
  taskKey : DailyTask
  dateKey : String
  transactionId : String
  coins : ℤ
  source : String

def DailyInput.row (input : DailyInput) : CoinTransaction :=
  ⟨input.transactionId, input.userId, input.coins, input.source⟩

/-- The callback of `creditDailyTaskReward`, on the snapshot `s`. -/
def dailyTask (input : DailyInput) (s : Store) : Except String (Option Credit × CreditResult) :=
  match s.user input.userId with
  | none => .error "Rewards only available for users"
  | some user =>
    if user.role ≠ "user" then .error "Rewards only available for users"
    else
      let progress := (s.progressOf input.userId).getD (.fresh input.userId)
      if progress.daily.dateKey = input.dateKey ∧ progress.daily.claimed input.taskKey = true then
        .ok (none, ⟨true, 0, user.coins⟩)
      else
        let daily := if progress.daily.dateKey ≠ input.dateKey then Daily.fresh input.dateKey
          else progress.daily
        .ok (creditOf s user input.row { progress with daily := daily.claim input.taskKey })

def creditDailyTaskReward (input : DailyInput) (attempts : ℕ) : RewardFlow CreditResult := do
  let result ← Flow.withTransaction transactions (dailyTask input) attempts
  let _ ← Flow.issue (.report input.row result)
  pure result

/-! ### Daily counters -/

def ensureUserRewardProgress (userId : String) : RewardFlow Progress := do
  let (_, s) ← run (.findProgress userId)
  match s.progressOf userId with
  | some existing => pure existing
  | none => do
    let (_, s) ← run (.createProgress userId)
    match s.progressOf userId with
    | none => pure (.fresh userId)
    | some _ => do
      -- a duplicate key: another request has created the document
      let (_, s) ← run (.findProgress userId)
      match s.progressOf userId with
      | some raced => pure raced
      | none => throw "E11000"

def atomicAddDailyMomentId (userId : String) (task : DailyTask) (momentId todayKey : String) :
    RewardFlow (ℕ × Bool) := do
  let _ ← ensureUserRewardProgress userId
  let _ ← run (.resetDaily userId todayKey)
  let _ ← run (.addDaily userId todayKey task momentId)
  let (_, s) ← run (.findProgress userId)
  match s.progressOf userId with
  | none => pure (0, false)
  | some progress =>
    if progress.daily.dateKey ≠ todayKey then pure (0, false)
    else pure ((progress.daily.ids task).length, progress.daily.claimed task)

structure DailyConfig where
  enabled : Bool
  taskEnabled : Bool
  coins : ℤ
  targetCount : Option ℕ

def DailyConfig.target (cfg : DailyConfig) : DailyTask → ℕ
  | .watchFreeMoments => cfg.targetCount.getD 5
  | .likeMoments => cfg.targetCount.getD 10

def DailyTask.source : DailyTask → String
  | .watchFreeMoments => "moment_watch_daily_reward"
  | .likeMoments => "moment_like_daily_reward"

def dailyInput (cfg : DailyConfig) (userId : String) (task : DailyTask) (todayKey : String) :
    DailyInput :=
  { userId
    taskKey := task
    dateKey := todayKey
    transactionId := task.source ++ "_" ++ userId ++ "_" ++ todayKey
    coins := cfg.coins
    source := task.source }

def tryCreditWatchOrLikeDaily (cfg : DailyConfig) (userId : String) (task : DailyTask)
    (todayKey : String) (attempts : ℕ) : RewardFlow (Option CreditResult) :=
  if cfg.enabled = false then pure none
  else if cfg.taskEnabled = false ∨ cfg.coins < 1 then pure none
  else do
    let progress ← ensureUserRewardProgress userId
    if progress.daily.dateKey ≠ todayKey then pure none
    else if progress.daily.claimed task = true ∨
        (progress.daily.ids task).length < cfg.target task then pure none
    else do
      let result ← creditDailyTaskReward (dailyInput cfg userId task todayKey) attempts
      pure (some result)

/-- A moment that counts for a daily task.  `credit` is the configuration and the day when the credit
is tried. -/
def recordMoment (cfg : DailyConfig) (userId : String) (task : DailyTask)
    (momentId todayKey : String) (credit : DailyConfig × String) (attempts : ℕ) : RewardFlow Unit :=
  if cfg.enabled = false ∨ cfg.taskEnabled = false then pure ()
  else do
    let (_, s) ← run (.findUser userId)
    match s.user userId with
    | none => pure ()
    | some user =>
      if user.role ≠ "user" then pure ()
      else do
        let (count, claimed) ← atomicAddDailyMomentId userId task momentId todayKey
        if cfg.target task ≤ count ∧ claimed = false then do
          let _ ← tryCreditWatchOrLikeDaily credit.1 userId task credit.2 attempts
          pure ()
        else pure ()

def recordMomentViewForReward (cfg : DailyConfig) (userId momentId : String)
    (freeTierAccess : Bool) (todayKey : String) (credit : DailyConfig × String) (attempts : ℕ) :
    RewardFlow Unit :=
  if freeTierAccess = false then pure ()
  else recordMoment cfg userId .watchFreeMoments momentId todayKey credit attempts

def recordMomentLikeForReward (cfg : DailyConfig) (userId momentId todayKey : String)
    (credit : DailyConfig × String) (attempts : ℕ) : RewardFlow Unit :=
  recordMoment cfg userId .likeMoments momentId todayKey credit attempts

/-! ### What a credit returns -/

/-- A credit of `row` and its result, or no credit and the result for a claim that was made. -/
def CreditFor (row : CoinTransaction) : Option Credit → CreditResult → Prop
  | some c, result => c.row = row ∧ result.alreadyClaimed = false ∧ result.coinsCredited = row.coins
  | none, result => result.alreadyClaimed = true ∧ result.coinsCredited = 0

variable {w : Option Credit} {a : CreditResult}

theorem creditOf_spec {user : User} {row : CoinTransaction} {progress : Progress}
    (h : creditOf s user row progress = (w, a)) : CreditFor row w a := by
  cases h
  exact ⟨rfl, rfl, rfl⟩

theorem onceTask_spec {input : OnceInput} (h : onceTask input s = .ok (w, a)) :
    CreditFor input.row w a := by
  unfold onceTask at h
  dsimp only at h
  split at h
  · cases h
  split at h
  · cases h
  split at h
  · cases h
    exact ⟨rfl, rfl⟩
  split at h
  · cases h
  · exact creditOf_spec (Except.ok.inj h)

theorem dailyTask_spec {input : DailyInput} (h : dailyTask input s = .ok (w, a)) :
    CreditFor input.row w a := by
  unfold dailyTask at h
  dsimp only at h
  split at h
  · cases h
  split at h
  · cases h
  split at h
  · cases h
    exact ⟨rfl, rfl⟩
  · exact creditOf_spec (Except.ok.inj h)

end VibemeetBackend.Rewards
