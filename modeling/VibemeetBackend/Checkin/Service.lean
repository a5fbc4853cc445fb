import VibemeetBackend.CreatorReferral.Store
import VibemeetBackend.Mongo.Unique

/-!
# The daily check-in

`checkin.service.ts` with `checkin.config.ts` and the IST calendar of `utils/ist-time.ts`: the cycle of
seven days, the grid that is shown, the status and the claim.  A state document is also made by the
reminder job.

Socket events, the wallet check and the logs are left out, as is the date of the last reminder.
-/

namespace VibemeetBackend.Checkin

open Async
open CreatorReferral (ObjectId)

/-! ### The IST calendar -/

def istOffsetMs : ℤ := (5 * 60 + 30) * 60 * 1000

def msPerDay : ℤ := 24 * 60 * 60 * 1000

/-- The calendar day of an instant in IST, counted from the first of January 1970. -/
def istDay (now : ℤ) : ℤ := (now + istOffsetMs) / msPerDay

/-- Year, month and day of the month, by eras of 400 years that begin in March. -/
def civil (day : ℤ) : ℤ × ℤ × ℤ :=
  let z := day + 719468
  let era := z / 146097
  let doe := z - era * 146097
  let yoe := (doe - doe / 1460 + doe / 36524 - doe / 146096) / 365
  let doy := doe - (365 * yoe + yoe / 4 - yoe / 100)
  let mp := (5 * doy + 2) / 153
  let month := if mp < 10 then mp + 3 else mp - 9
  (yoe + era * 400 + (if month ≤ 2 then 1 else 0), month, doy - (153 * mp + 2) / 5 + 1)

def pad (width : ℕ) (n : ℤ) : String :=
  let digits := toString n.toNat
  "".pushn '0' (width - digits.length) ++ digits

/-- `YYYY-MM-DD`. -/
def istDateKey (now : ℤ) : String :=
  let (year, month, day) := civil (istDay now)
  pad 4 year ++ "-" ++ pad 2 month ++ "-" ++ pad 2 day

/-- `istDayBounds(istDateKey(now)).end`. -/
def istDayEnd (now : ℤ) : ℤ := (istDay now + 1) * msPerDay - istOffsetMs

example : istDateKey 1785608999999 = "2026-08-01" ∧ istDateKey 1785609000000 = "2026-08-02" := by
  decide +kernel

/-! ### Rewards -/

def checkinCycleDays : ℕ := 7

structure Rewards where
  coins : List ℕ
  size : coins.length = checkinCycleDays
  positive : ∀ n ∈ coins, 0 < n

def defaultRewards : Rewards := ⟨[50, 80, 50, 50, 50, 50, 100], rfl, by decide⟩

/-- The setting as the numbers between its commas, `none` for what is not an integer. -/
def parseRewards (raw : Option (List (Option ℤ))) : Rewards :=
  match raw with
  | none => defaultRewards
  | some parts =>
    if h : parts.length = checkinCycleDays ∧ ∀ n ∈ parts, ∃ m ∈ n, 0 < m then
      { coins := parts.map fun n => (n.getD 0).toNat
        size := by
          rw [List.length_map]
          exact h.1
        positive := by
          intro n hn
          obtain ⟨part, hpart, rfl⟩ := List.mem_map.1 hn
          obtain ⟨m, hm, hpos⟩ := h.2 part hpart
          rw [Option.mem_def.1 hm, Option.getD_some]
          omega }
    else defaultRewards

structure Config where
  dailyCheckInEnabled : Bool
  rewards : Rewards

/-- `none` for a day outside the cycle. -/
def getDailyCheckInRewardForDay (rewards : Rewards) (dayIndex : ℕ) : Option ℕ :=
  if dayIndex < 1 ∨ 7 < dayIndex then none else rewards.coins[dayIndex - 1]?

theorem reward_of_cycle (rewards : Rewards) (k : ℕ) :
    getDailyCheckInRewardForDay rewards (k % 7 + 1) = rewards.coins[k % 7]? := by
  have hk := Nat.mod_lt k (by decide : 0 < 7)
  rw [getDailyCheckInRewardForDay, if_neg (by omega), Nat.add_sub_cancel]

/-! ### Documents -/

structure User where
  id : ObjectId
  firebaseUid : String
  role : String
  coins : ℤ
  deriving DecidableEq

structure DailyCheckInState where
  userId : ObjectId
  nextDayIndex : ℕ
  lastClaimDateKey : Option String
  lastClaimedDayIndex : Option ℕ
  deriving DecidableEq

def DailyCheckInState.fresh (userId : ObjectId) : DailyCheckInState := ⟨userId, 1, none, none⟩

structure CoinTransaction where
  transactionId : String
  userId : ObjectId
  coins : ℕ
  source : String

structure Store where
  users : List User
  states : Mongo.Unique DailyCheckInState.userId
  ledger : Mongo.Unique CoinTransaction.transactionId

def dailyCheckInTransactionId (userId : ObjectId) (dateKey : String) : String :=
  "daily_checkin_" ++ userId.hex ++ "_" ++ dateKey

theorem joined_injective (front separator : String) {userId userId' : ObjectId}
    {dateKey dateKey' : String}
    (h : front ++ userId.hex ++ separator ++ dateKey =
      front ++ userId'.hex ++ separator ++ dateKey') : userId = userId' ∧ dateKey = dateKey' := by
  have hlist := congrArg String.toList h
  simp only [String.toList_append, List.append_assoc] at hlist
  obtain ⟨huser, htail⟩ :=
    List.append_inj (List.append_cancel_left hlist) (userId.size.trans userId'.size.symm)
  have hdate := List.append_cancel_left htail
  exact ⟨CreatorReferral.ObjectId.ext_hex (String.toList_inj.1 huser), String.toList_inj.1 hdate⟩

theorem transactionId_injective {userId userId' : ObjectId} {dateKey dateKey' : String}
    (h : dailyCheckInTransactionId userId dateKey = dailyCheckInTransactionId userId' dateKey') :
    userId = userId' ∧ dateKey = dateKey' := joined_injective _ _ h

namespace Store

variable (s : Store)

def userByFirebase (firebaseUid : String) : Option User :=
  s.users.find? fun u => u.firebaseUid == firebaseUid

def user (id : ObjectId) : Option User := s.users.find? fun u => u.id == id

def coins (id : ObjectId) : Option ℤ := (s.user id).map fun u => u.coins

def incCoins (id : ObjectId) (n : ℤ) : Store :=
  { s with users := s.users.map fun u => if u.id = id then { u with coins := u.coins + n } else u }

def paid (userId : ObjectId) (dateKey : String) : Bool :=
  (s.ledger.get (dailyCheckInTransactionId userId dateKey)).isSome

end Store

/-! ### What is shown -/

inductive RewardDayStatus where
  | claimed
  | today
  | upcoming
  deriving DecidableEq

structure CheckInRewardDay where
  day : ℕ
  coins : ℕ
  status : RewardDayStatus

def DailyCheckInState.currentDayIndex (st : DailyCheckInState) (todayKey : String) : ℕ :=
  if st.lastClaimDateKey = some todayKey then st.lastClaimedDayIndex.getD st.nextDayIndex
  else st.nextDayIndex

def buildRewardsGrid (st : DailyCheckInState) (todayKey : String) (rewards : Rewards) :
    List CheckInRewardDay :=
  let claimedToday := st.lastClaimDateKey = some todayKey
  let todayIndex := st.currentDayIndex todayKey
  rewards.coins.mapIdx fun i coins =>
    { day := i + 1
      coins := coins
      status :=
        if i + 1 < todayIndex then .claimed
        else if i + 1 = todayIndex then (if claimedToday then .claimed else .today)
        else .upcoming }

structure CheckInStatusPayload where
  rewards : List CheckInRewardDay
  canClaimToday : Bool
  claimedToday : Bool
  currentDayIndex : ℕ
  resetsAt : ℤ
  serverNow : ℤ
  coinsBalance : ℤ
  alreadyClaimed : Option Bool
  coinsCredited : Option ℕ

abbrev Extras : Type := Option Bool × Option ℕ

def toStatusPayload (rewards : Rewards) (st : DailyCheckInState) (coinsBalance now : ℤ)
    (extras : Extras) : CheckInStatusPayload :=
  let todayKey := istDateKey now
  let claimedToday := decide (st.lastClaimDateKey = some todayKey)
  { rewards := buildRewardsGrid st todayKey rewards
    canClaimToday := !claimedToday
    claimedToday := claimedToday
    currentDayIndex := st.currentDayIndex todayKey
    resetsAt := istDayEnd now
    serverNow := now
    coinsBalance := coinsBalance
    alreadyClaimed := extras.1
    coinsCredited := extras.2 }

theorem toStatusPayload_grid (rewards : Rewards) {st : DailyCheckInState} {now : ℤ} {dayIndex : ℕ}
    (coinsBalance : ℤ) (extras : Extras) (hdate : st.lastClaimDateKey = some (istDateKey now))
    (hday : st.lastClaimedDayIndex = some dayIndex) {i : ℕ} {day : CheckInRewardDay}
    (hi : (toStatusPayload rewards st coinsBalance now extras).rewards[i]? = some day) :
    day.day = i + 1 ∧ rewards.coins[i]? = some day.coins ∧
      (day.status = .claimed ↔ i + 1 ≤ dayIndex) := by
  have hindex : st.currentDayIndex (istDateKey now) = dayIndex := by
    rw [DailyCheckInState.currentDayIndex, if_pos hdate, hday, Option.getD_some]
  have hi : (buildRewardsGrid st (istDateKey now) rewards)[i]? = some day := hi
  rw [buildRewardsGrid, hindex, List.getElem?_mapIdx, Option.map_eq_some_iff] at hi
  obtain ⟨coins, hcoins, rfl⟩ := hi
  refine ⟨rfl, hcoins, ?_⟩
  rw [if_pos hdate]
  by_cases hlt : i + 1 < dayIndex
  · rw [if_pos hlt]
    exact ⟨fun _ => hlt.le, fun _ => rfl⟩
  · rw [if_neg hlt]
    by_cases heq : i + 1 = dayIndex
    · simp [heq]
    · rw [if_neg heq]
      constructor
      · intro h
        cases h
      · intro hle
        omega

/-! ### Commands -/

structure Claim where
  userId : ObjectId
  dateKey : String
  dayIndex : ℕ
  coins : ℕ

def Claim.row (c : Claim) : CoinTransaction :=
  ⟨dailyCheckInTransactionId c.userId c.dateKey, c.userId, c.coins, "daily_checkin"⟩

def Claim.nextDayIndex (c : Claim) : ℕ := if checkinCycleDays ≤ c.dayIndex then 1 else c.dayIndex + 1

def Claim.state (c : Claim) : DailyCheckInState :=
  ⟨c.userId, c.nextDayIndex, some c.dateKey, some c.dayIndex⟩

/-- The writes of a transaction, with what they were computed from: a claim, or only the new state
document. -/
structure ClaimWrite where
  userId : ObjectId
  user : User
  old : Option DailyCheckInState
  claim : Option Claim

def ClaimWrite.conflicts (w : ClaimWrite) (s : Store) : Bool :=
  s.states.get w.userId != w.old ||
    w.claim.any fun c => s.user w.userId != some w.user || s.paid w.userId c.dateKey

def Store.claim (s : Store) (c : Claim) : Store :=
  { s.incCoins c.userId c.coins with
    states := s.states.put c.state
    ledger := s.ledger.insert c.row }

def ClaimWrite.exec (w : ClaimWrite) (s : Store) : Store :=
  match w.claim with
  | none => { s with states := s.states.put (.fresh w.userId) }
  | some c => s.claim c

structure Reply where
  delivered : Bool
  answered : Bool
  transient : Bool

def Reply.ok (r : Reply) : Bool := r.delivered && r.answered

inductive Cmd where
  | findUser (firebaseUid : String)
  | findUserById (id : ObjectId)
  | findState (userId : ObjectId)
  | createState (userId : ObjectId)
  | snapshot (userId : ObjectId)
  | commit (w : Option ClaimWrite)
  | respond (userId : ObjectId) (now : ℤ) (payload : CheckInStatusPayload)
  /-- Any other change of a wallet. -/
  | incCoins (userId : ObjectId) (amount : ℤ)

def Cmd.exec (c : Cmd) (r : Reply) (s : Store) : Store :=
  if r.delivered = false then s
  else
    match c with
    | .findUser _ | .findUserById _ | .findState _ | .snapshot _ | .respond .. => s
    | .createState userId => { s with states := s.states.insert (.fresh userId) }
    | .commit none => s
    | .commit (some w) => if w.conflicts s = true then s else w.exec s
    | .incCoins userId amount => s.incCoins userId amount

def transactions (userId : ObjectId) : Transactions Cmd Reply Store ClaimWrite where
  snapshot := .snapshot userId
  commit := .commit
  delivered := Reply.delivered
  answered := Reply.answered
  transient := Reply.transient
  conflicts := ClaimWrite.conflicts

abbrev CheckinFlow (α : Type) : Type := Flow Cmd Reply Store α

def run (c : Cmd) : CheckinFlow (Reply × Store) := Flow.call Reply.ok "request failed" c

/-! ### Requests -/

def ensureState (userId : ObjectId) : CheckinFlow DailyCheckInState := do
  let (_, s) ← run (.findState userId)
  match s.states.get userId with
  | some existing => pure existing
  | none => do
    let (_, s) ← run (.createState userId)
    match s.states.get userId with
    | none => pure (.fresh userId)
    | some _ => do
      let (_, s) ← run (.findState userId)
      match s.states.get userId with
      | some raced => pure raced
      | none => throw "E11000"

def notForUsers : String := "Daily check-in is only available for users"

def getCheckInStatusForUser (cfg : Config) (firebaseUid : String) (now : ℤ) :
    CheckinFlow CheckInStatusPayload :=
  if cfg.dailyCheckInEnabled = false then throw "Daily check-in is disabled"
  else do
    let (_, s) ← run (.findUser firebaseUid)
    match s.userByFirebase firebaseUid with
    | none => throw "User not found"
    | some user =>
      if user.role ≠ "user" then throw notForUsers
      else do
        let state ← ensureState user.id
        let payload := toStatusPayload cfg.rewards state user.coins now (none, none)
        let _ ← run (.respond user.id now payload)
        pure payload

def alreadyClaimedToday : String := "Already claimed today"

/-- The duplicate key of a row that exists aborts the transaction, and its commit is refused. -/
def claimBody (cfg : Config) (userId : ObjectId) (now : ℤ) (s : Store) :
    Except String (Option ClaimWrite × CheckInStatusPayload) :=
  match s.user userId with
  | none => .error notForUsers
  | some freshUser =>
    if freshUser.role ≠ "user" then .error notForUsers
    else
      let todayKey := istDateKey now
      let old := s.states.get userId
      let state := old.getD (.fresh userId)
      let already := toStatusPayload cfg.rewards state freshUser.coins now (some true, some 0)
      -- a state document that was missing is made in the transaction
      let created : Option ClaimWrite := if old = none then some ⟨userId, freshUser, none, none⟩ else none
      if state.lastClaimDateKey = some todayKey then .ok (created, already)
      else
        match getDailyCheckInRewardForDay cfg.rewards state.nextDayIndex with
        | none => .error "Invalid check-in day index"
        | some coins =>
          let claim : Claim := ⟨userId, todayKey, state.nextDayIndex, coins⟩
          -- the filter of the update, on the state that was just read
          if ¬ (state.lastClaimDateKey ≠ some todayKey ∨ state.lastClaimDateKey = none) then
            .error alreadyClaimedToday
          else
            .ok (some ⟨userId, freshUser, old, some claim⟩,
              toStatusPayload cfg.rewards claim.state (freshUser.coins + coins) now
                (some false, some coins))

def rolledBack (cfg : Config) (user : User) (now : ℤ) : CheckinFlow CheckInStatusPayload := do
  let (_, s) ← run (.findState user.id)
  let state := (s.states.get user.id).getD ⟨user.id, 1, some (istDateKey now), some 1⟩
  let (_, s) ← run (.findUserById user.id)
  let coins := ((s.user user.id).getD user).coins
  pure (toStatusPayload cfg.rewards state coins now (some true, some 0))

def claimDailyCheckIn (cfg : Config) (firebaseUid : String) (now : ℤ) (attempts : ℕ) :
    CheckinFlow CheckInStatusPayload :=
  if cfg.dailyCheckInEnabled = false then throw "Daily check-in is disabled"
  else do
    let (_, s) ← run (.findUser firebaseUid)
    match s.userByFirebase firebaseUid with
    | none => throw "User not found"
    | some user =>
      if user.role ≠ "user" then throw notForUsers
      else do
        let payload ← tryCatch
          (Flow.withTransaction (transactions user.id) (claimBody cfg user.id now) attempts)
          fun e => if e = alreadyClaimedToday then rolledBack cfg user now else throw e
        let _ ← run (.respond user.id now payload)
        pure payload

inductive Request where
  | status (firebaseUid : String) (now : ℤ)
  | claim (firebaseUid : String) (now : ℤ) (attempts : ℕ)
  /-- The reminder job makes the state document of a user who has none. -/
  | reminder (userId : ObjectId)
  | income (userId : ObjectId) (amount : ℤ)

def program (cfg : Config) : Request → Prog Cmd Reply Store Unit
  | .status firebaseUid now => (getCheckInStatusForUser cfg firebaseUid now).run >>= fun _ => .ret ()
  | .claim firebaseUid now attempts =>
    (claimDailyCheckIn cfg firebaseUid now attempts).run >>= fun _ => .ret ()
  | .reminder userId => .act (.createState userId) fun _ _ => .ret ()
  | .income userId amount => .act (.incCoins userId amount) fun _ _ => .ret ()

end VibemeetBackend.Checkin
