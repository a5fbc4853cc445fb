import VibemeetBackend.Checkin.Service

/-!
# Weekly task rewards

`claimTaskReward` of `creator.controller.ts`, with `creator-tasks.config.ts`: the creator is read, the
paid coins of the week are summed, the progress of the week is marked as claimed, and the ledger row and
the wallet are written one after the other.

The sum over `CallHistory` is answered with anything.  Cache invalidation, the balance check, the socket
event and the logs are left out.
-/

namespace VibemeetBackend.CreatorTask

open Async
open Checkin (istDay istOffsetMs msPerDay)
open CreatorReferral (ObjectId)

/-! ### Tasks and weeks -/

structure CreatorTaskDefinition where
  key : String
  thresholdPaidCoins : ℕ
  rewardCoins : ℕ

def creatorTasks : List CreatorTaskDefinition :=
  [⟨"paid_coins_15000", 450000, 100⟩, ⟨"paid_coins_20000", 600000, 150⟩,
    ⟨"paid_coins_30000", 900000, 300⟩]

def getTaskByKey (key : String) : Option CreatorTaskDefinition :=
  creatorTasks.find? fun task => task.key == key

def istDaysSinceMonday (now : ℤ) : ℤ := (istDay now + 3) % 7

def getWeeklyPeriodBoundsForInstant (now : ℤ) : ℤ × ℤ :=
  let periodStart := (istDay now - istDaysSinceMonday now) * msPerDay - istOffsetMs
  (periodStart, periodStart + 7 * msPerDay)

/-! ### Documents -/

inductive Role where
  | creator | admin | superAdmin | other
  deriving DecidableEq

def isSuperAdminRole (role : Role) : Bool := role == .admin || role == .superAdmin

structure User where
  id : ObjectId
  firebaseUid : String
  role : Role
  coins : ℤ

structure ProgressKey where
  creatorUserId : ObjectId
  taskKey : String
  periodStart : ℤ
  deriving DecidableEq

structure CreatorTaskProgress where
  key : ProgressKey
  thresholdPaidCoins : ℕ
  rewardCoins : ℕ
  completedAt : Option ℤ
  claimedAt : Option ℤ

/-- A `CoinTransaction`: a completed credit of the source `creator_task`. -/
structure CoinTransaction where
  transactionId : String
  userId : ObjectId
  coins : ℕ
  description : String

structure Store where
  users : Mongo.Unique User.firebaseUid
  progress : Mongo.Unique CreatorTaskProgress.key
  ledger : Mongo.Unique CoinTransaction.transactionId

namespace Store

def claimed (s : Store) (key : ProgressKey) : Bool :=
  (s.progress.get key).any fun p => p.claimedAt.isSome

end Store

/-! ### Commands -/

inductive Cmd where
  | findUser (firebaseUid : String)
  | aggregatePaidCoins (creatorUserId : ObjectId) (periodStart periodEnd : ℤ)
  /-- `findOneAndUpdate` with `upsert`, on the progress that is not claimed. -/
  | mark (progress : CreatorTaskProgress)
  | findTransaction (transactionId : String)
  | insertTransaction (row : CoinTransaction)
  /-- `currentUser.save()`, of the coins that were computed. -/
  | saveUser (firebaseUid : String) (coins : ℤ)
  /-- `$inc` by another feature. -/
  | incCoins (firebaseUid : String) (amount : ℤ)

structure Reply where
  delivered : Bool
  answered : Bool
  /-- The sum of an `aggregate`. -/
  totalPaidCoins : ℚ

def Reply.ok (r : Reply) : Bool := r.delivered && r.answered

def User.withCoins (u : User) (coins : ℤ) : User := { u with coins }

def Store.setCoins (s : Store) (firebaseUid : String) (f : ℤ → ℤ) : Store :=
  match s.users.get firebaseUid with
  | some u => { s with users := s.users.put (u.withCoins (f u.coins)) }
  | none => s

/-- An upsert that finds a claimed progress inserts, and the unique index refuses it. -/
def Store.mark (s : Store) (progress : CreatorTaskProgress) : Store :=
  match s.progress.get progress.key with
  | none => { s with progress := s.progress.put progress }
  | some p =>
    if p.claimedAt.isSome = true then s
    else
      { s with
        progress := s.progress.put
          { p with completedAt := progress.completedAt, claimedAt := progress.claimedAt } }

def Cmd.exec (c : Cmd) (r : Reply) (s : Store) : Store :=
  if r.delivered = false then s
  else
    match c with
    | .findUser _ | .aggregatePaidCoins .. | .findTransaction _ => s
    | .mark progress => s.mark progress
    | .insertTransaction row => { s with ledger := s.ledger.insert row }
    | .saveUser firebaseUid coins => s.setCoins firebaseUid fun _ => coins
    | .incCoins firebaseUid amount => s.setCoins firebaseUid fun coins => coins + amount

/-! ### The claim -/

abbrev TaskFlow (α : Type) : Type := Flow Cmd Reply Store α

def run (c : Cmd) : TaskFlow (Reply × Store) := Flow.call Reply.ok "Internal server error" c

/-- A claim: its user, its task, when it begins, and when it makes its transaction id. -/
structure ClaimRequest where
  firebaseUid : String
  taskKey : String
  now : ℤ
  stamp : ℤ

structure ClaimResponse where
  coinsAdded : ℕ
  newCoinsBalance : ℤ
  message : Option String

def transactionId (taskKey : String) (userId : ObjectId) (stamp : ℤ) : String :=
  "creator_task_" ++ taskKey ++ "_" ++ userId.hex ++ "_" ++ toString stamp

def notCompleted (totalPaidCoins : ℚ) (thresholdPaidCoins : ℕ) : String :=
  "Target not completed. Current: " ++ toString ⌊totalPaidCoins + 1 / 2⌋ ++
    " paid coins, Required: " ++ toString thresholdPaidCoins ++ " paid coins"

/-- After the mark: the row and the wallet. -/
def pay (q : ClaimRequest) (task : CreatorTaskDefinition) (currentUser : User) :
    TaskFlow ClaimResponse := do
  let txnId := transactionId q.taskKey currentUser.id q.stamp
  let (_, s) ← run (.findTransaction txnId)
  match s.ledger.get txnId with
  | some existing =>
    pure ⟨existing.coins, currentUser.coins, some "Transaction already processed (idempotent)"⟩
  | none => do
    let row : CoinTransaction := ⟨txnId, currentUser.id, task.rewardCoins,
      "Bonus for completing " ++ toString task.thresholdPaidCoins ++ " paid coins weekly target"⟩
    let (_, s) ← run (.insertTransaction row)
    if (s.ledger.get txnId).isSome = true then throw "E11000 duplicate key error"
    else do
      let coins := currentUser.coins + task.rewardCoins
      let _ ← run (.saveUser currentUser.firebaseUid coins)
      pure ⟨task.rewardCoins, coins, none⟩

def claimTaskReward (q : ClaimRequest) : TaskFlow ClaimResponse :=
  match getTaskByKey q.taskKey with
  | none => throw "Invalid task key"
  | some task => do
    let (_, s) ← run (.findUser q.firebaseUid)
    match s.users.get q.firebaseUid with
    | none => throw "User not found"
    | some currentUser =>
      if (currentUser.role ≠ .creator && !isSuperAdminRole currentUser.role) = true then
        throw "Only creators can claim task rewards"
      else do
        let (periodStart, periodEnd) := getWeeklyPeriodBoundsForInstant q.now
        let (r, _) ← run (.aggregatePaidCoins currentUser.id periodStart periodEnd)
        if r.totalPaidCoins < task.thresholdPaidCoins then
          throw (notCompleted r.totalPaidCoins task.thresholdPaidCoins)
        else do
          let key : ProgressKey := ⟨currentUser.id, q.taskKey, periodStart⟩
          let (_, s) ← run (.mark
            ⟨key, task.thresholdPaidCoins, task.rewardCoins, some q.now, some q.now⟩)
          if s.claimed key = true then throw "E11000 duplicate key error"
          else pay q task currentUser

inductive Request where
  | claim (q : ClaimRequest)
  | income (firebaseUid : String) (amount : ℤ)

def program : Request → Prog Cmd Reply Store Unit
  | .claim q => (claimTaskReward q).run >>= fun _ => .ret ()
  | .income firebaseUid amount => .act (.incCoins firebaseUid amount) fun _ _ => .ret ()

end VibemeetBackend.CreatorTask
