import VibemeetBackend.Async.Watch
import VibemeetBackend.Checkin.Service

/-!
# Paying for a chat message

`preSendMessage` and `getMessageQuota` of `chat.controller.ts`, with
`chat-quota-period.util.ts`.

The servers share a clock, which is a part of the store.  The check of the wallet and the rewards of
a sent message are left out, and so is the random end of a transaction id.
-/

namespace VibemeetBackend.Chat

open Async

def freeMessagesPerCreator : ℕ := 10
def costPerMessage : ℕ := 5
def presendLockTtl : ℤ := 60
def channelCreatorTtl : ℤ := 3600

/-- `getDailyPeriodBounds().periodStart`. -/
def getDailyPeriodStart (now : ℤ) : ℤ := Checkin.istDay now * Checkin.msPerDay - Checkin.istOffsetMs

theorem getDailyPeriodStart_mono {now now' : ℤ} (h : now ≤ now') :
    getDailyPeriodStart now ≤ getDailyPeriodStart now' := by
  unfold getDailyPeriodStart Checkin.istDay Checkin.msPerDay Checkin.istOffsetMs
  omega

/-! ### Documents -/

structure User where
  firebaseUid : String
  role : String
  coins : ℤ
  deriving DecidableEq

/-- A `ChatMessageQuota` document. -/
structure Quota where
  userFirebaseUid : String
  creatorFirebaseUid : String
  channelId : String
  freeMessagesSent : ℕ
  paidMessagesSent : ℕ
  freeQuotaPeriodStart : Option ℤ
  deriving DecidableEq

def Quota.pair (q : Quota) : String × String := (q.userFirebaseUid, q.creatorFirebaseUid)

def Quota.created (pair : String × String) (channelId : String) (period : ℤ) : Quota where
  userFirebaseUid := pair.1
  creatorFirebaseUid := pair.2
  channelId := channelId
  freeMessagesSent := 0
  paidMessagesSent := 0
  freeQuotaPeriodStart := some period

/-- `normalizeQuotaForCurrentPeriod` on the document in memory. -/
def Quota.normalize (q : Quota) (period : ℤ) : Quota :=
  if q.freeQuotaPeriodStart = some period then q
  else { q with freeMessagesSent := 0, freeQuotaPeriodStart := some period }

theorem Quota.normalize_pair (q : Quota) (period : ℤ) : (q.normalize period).pair = q.pair := by
  unfold Quota.normalize
  split <;> rfl

theorem Quota.normalize_start (q : Quota) (period : ℤ) :
    (q.normalize period).freeQuotaPeriodStart = some period := by
  unfold Quota.normalize
  split
  · assumption
  · rfl

/-- A row of `CoinTransaction`: a completed debit for a chat message. -/
structure CoinTransaction where
  channelId : String
  userFirebaseUid : String
  coins : ℕ

/-- The data of an answer to `pre-send`. -/
structure Presend where
  canSend : Bool
  freeRemaining : ℕ
  coinsCharged : ℕ
  userCoins : ℤ
  error : Option String

inductive LockValue where
  | pending
  | result (data : Presend)

structure Entry (α : Type) where
  value : α
  expiresAt : ℤ

structure Store where
  now : ℤ
  users : Mongo.Unique User.firebaseUid
  quotas : Mongo.Unique Quota.pair
  ledger : List CoinTransaction
  /-- The keys that begin with `chat:presend:`. -/
  locks : String → Option (Entry LockValue)
  /-- The keys that begin with `chat:channel:creator:`. -/
  creators : String → Option (Entry String)

namespace Store

variable (s : Store)

def period : ℤ := getDailyPeriodStart s.now

def alive {α : Type} (entry : Option (Entry α)) : Option α :=
  (entry.filter fun e => s.now < e.expiresAt).map Entry.value

def presendLock (key : String) : Option LockValue := s.alive (s.locks key)

def channelCreator (channelId : String) : Option String :=
  (s.alive (s.creators channelId)).filter (· ≠ "")

/-- `set` and `setex` of an idempotency key. -/
def setLock (key : String) (value : LockValue) : Store :=
  let entry : Entry LockValue := ⟨value, s.now + presendLockTtl * 1000⟩
  { s with locks := Function.update s.locks key (some entry) }

def delLock (key : String) : Store := { s with locks := Function.update s.locks key none }

def cacheCreator (channelId creatorFirebaseUid : String) : Store :=
  let entry : Entry String := ⟨creatorFirebaseUid, s.now + channelCreatorTtl * 1000⟩
  { s with creators := Function.update s.creators channelId (some entry) }

def quotaByChannel (userFirebaseUid channelId : String) : Option Quota :=
  s.quotas.rows.find? fun q => q.userFirebaseUid == userFirebaseUid && q.channelId == channelId

end Store

/-! ### The writes of a message -/

/-- What a message that may be sent was decided on. -/
structure Payment where
  user : User
  quota : Option Quota
  channelId : String
  creatorFirebaseUid : String
  period : ℤ

namespace Payment

variable (w : Payment)

def pair : String × String := (w.user.firebaseUid, w.creatorFirebaseUid)

def current : Quota :=
  (w.quota.getD (.created w.pair w.channelId w.period)).normalize w.period

def takesSlot : Bool := decide (w.current.freeMessagesSent < freeMessagesPerCreator)

def affordable : Bool := decide ((costPerMessage : ℤ) ≤ w.user.coins)

def freeQuota : Quota := { w.current with freeMessagesSent := w.current.freeMessagesSent + 1 }

def paidQuota : Quota := { w.current with paidMessagesSent := w.current.paidMessagesSent + 1 }

def debited : User := { w.user with coins := w.user.coins - costPerMessage }

def row : CoinTransaction := ⟨w.channelId, w.user.firebaseUid, costPerMessage⟩

def conflicts (s : Store) : Bool :=
  s.users.get w.user.firebaseUid != some w.user || s.quotas.get w.pair != w.quota

def exec (s : Store) : Store :=
  if w.takesSlot = true then { s with quotas := s.quotas.put w.freeQuota }
  else
    { s with
      users := s.users.put w.debited
      quotas := s.quotas.put w.paidQuota
      ledger := s.ledger ++ [w.row] }

def answer : Presend :=
  if w.takesSlot = true then
    { canSend := true
      freeRemaining := freeMessagesPerCreator - w.freeQuota.freeMessagesSent
      coinsCharged := 0
      userCoins := w.user.coins
      error := none }
  else
    { canSend := true
      freeRemaining := 0
      coinsCharged := costPerMessage
      userCoins := w.debited.coins
      error := none }

/-- The answer to a user who has too few coins. -/
def refusal : Presend where
  canSend := false
  freeRemaining := 0
  coinsCharged := 0
  userCoins := w.user.coins
  error := some ("You need " ++ toString costPerMessage ++
    " coins to send a message. Please add coins.")

end Payment

/-! ### Commands -/

inductive Response where
  | nonBillable (userCoins : ℤ)
  | vipUnlimited (userCoins : ℤ)
  | presend (data : Presend)
  | quota (freeRemaining : Option ℕ) (costPerMessage : ℕ) (userCoins : ℤ)
  | failed (status : ℕ) (error : String)

inductive Cmd where
  | findUser (firebaseUid : String)
  | isVipActive (firebaseUid : String)
  | setLock (key : String)
  | getLock (key : String)
  | delLock (key : String)
  | cacheResult (key : String) (data : Presend)
  | getCreator (channelId : String)
  | watch (channelId : String)
  | cacheCreator (channelId creatorFirebaseUid : String)
  | findQuotaByChannel (firebaseUid channelId : String)
  | findQuota (firebaseUid creatorFirebaseUid : String)
  | saveQuota (loaded : Quota) (period : ℤ)
  | snapshot
  | commit (w : Option Payment)
  | respond (response : Response)
  | wait (ms : ℕ)
  /-- Any other change of a wallet. -/
  | incCoins (firebaseUid : String) (amount : ℤ)

/-- The answer of the stores, and of the API of the chat. -/
structure Reply where
  delivered : Bool
  answered : Bool
  transient : Bool
  vip : Bool
  members : List String

def Reply.ok (r : Reply) : Bool := r.delivered && r.answered

/-- The save sets what it changed in memory: a count that was zero is not sent. -/
def Quota.saved (d loaded : Quota) (period : ℤ) : Quota :=
  { d with
    freeMessagesSent := if loaded.freeMessagesSent = 0 then d.freeMessagesSent else 0
    freeQuotaPeriodStart := some period }

def Cmd.exec (c : Cmd) (r : Reply) (s : Store) : Store :=
  if r.delivered = false then s
  else
    match c with
    | .findUser _ | .isVipActive _ | .getLock _ | .getCreator _ | .watch _ | .findQuotaByChannel ..
    | .findQuota .. | .snapshot | .commit none | .respond _ => s
    | .setLock key => if s.presendLock key = none then s.setLock key .pending else s
    | .delLock key => s.delLock key
    | .cacheResult key data => s.setLock key (.result data)
    | .cacheCreator channelId creator => s.cacheCreator channelId creator
    | .saveQuota loaded period =>
      { s with quotas := s.quotas.update loaded.pair fun d => d.saved loaded period }
    | .commit (some w) => if w.conflicts s = true then s else w.exec s
    | .wait ms => { s with now := s.now + ms }
    | .incCoins firebaseUid amount =>
      { s with users := s.users.update firebaseUid fun d => { d with coins := d.coins + amount } }

def transactions : Transactions Cmd Reply Store Payment where
  snapshot := .snapshot
  commit := .commit
  delivered := Reply.delivered
  answered := Reply.answered
  transient := Reply.transient
  conflicts := Payment.conflicts

abbrev ChatFlow (α : Type) : Type := Flow Cmd Reply Store α

def run (c : Cmd) : ChatFlow (Reply × Store) := Flow.call Reply.ok "request failed" c

def respond (response : Response) : ChatFlow Unit := do
  let _ ← Flow.issue (.respond response)
  pure ()

/-! ### `preSendMessage` -/

def isBillableRole (role : String) : Bool := role == "user"

/-- The `catch` of the lookup of the members: the quota of the channel, if there is one, names the
creator. -/
def creatorByQuota (firebaseUid channelId : String) (found : Option String) :
    ChatFlow (Option String) := do
  let (_, s) ← run (.findQuotaByChannel firebaseUid channelId)
  match s.quotaByChannel firebaseUid channelId with
  | none => pure found
  | some quota =>
    if quota.creatorFirebaseUid = "" then pure none
    else do
      let _ ← run (.cacheCreator channelId quota.creatorFirebaseUid)
      pure (some quota.creatorFirebaseUid)

/-- The other member, cached for later requests. -/
def creatorByMembers (firebaseUid channelId : String) (members : List String) :
    ChatFlow (Option String) :=
  match (members.find? (· ≠ firebaseUid)).filter (· ≠ "") with
  | none => pure none
  | some creator => do
    let x ← Flow.attempt (run (.cacheCreator channelId creator))
    match x with
    | .ok _ => pure (some creator)
    | .error _ => creatorByQuota firebaseUid channelId (some creator)

def resolveCreator (firebaseUid channelId : String) : ChatFlow (Option String) := do
  let (_, s) ← run (.getCreator channelId)
  match s.channelCreator channelId with
  | some creator => pure (some creator)
  | none => do
    let x ← Flow.attempt (run (.watch channelId))
    match x with
    | .ok (r, _) => creatorByMembers firebaseUid channelId r.members
    | .error _ => creatorByQuota firebaseUid channelId none

def presendBody (firebaseUid channelId creatorFirebaseUid : String) (s : Store) :
    Except String (Option Payment × Presend) :=
  match s.users.get firebaseUid with
  | none => .error "User not found inside transaction"
  | some user =>
    let w : Payment := ⟨user, s.quotas.get (user.firebaseUid, creatorFirebaseUid), channelId,
      creatorFirebaseUid, s.period⟩
    if w.takesSlot = true ∨ w.affordable = true then .ok (some w, w.answer)
    else .ok (none, w.refusal)

def failedToValidate : Response := .failed 500 "Failed to validate message"

def presendLocked (firebaseUid channelId key : String) (attempts : ℕ) : ChatFlow Unit := do
  let creator ← resolveCreator firebaseUid channelId
  match creator with
  | none => do
    let _ ← run (.delLock key)
    respond (.failed 400 "Cannot determine channel creator")
  | some creator => do
    let data ← Flow.withTransaction transactions (presendBody firebaseUid channelId creator)
      attempts
    let _ ← run (.cacheResult key data)
    respond (.presend data)

/-- The answer to a request whose lock is taken; while there is no result, the message is let
through. -/
def duplicateAnswer (userCoins : ℤ) : Option LockValue → Presend
  | some (.result data) => data
  | some .pending | none =>
    { canSend := true, freeRemaining := 0, coinsCharged := 0, userCoins, error := none }

def duplicate (key : String) (userCoins : ℤ) : ChatFlow Unit := do
  let (_, s) ← run (.getLock key)
  respond (.presend (duplicateAnswer userCoins (s.presendLock key)))

def presendBillable (user : User) (channelId key : String) (attempts : ℕ) : ChatFlow Unit := do
  let (_, s) ← run (.setLock key)
  if s.presendLock key = none then presendLocked user.firebaseUid channelId key attempts
  else duplicate key user.coins

def tapKey (channelId firebaseUid : String) (now : ℤ) : String :=
  channelId ++ ":" ++ firebaseUid ++ ":" ++ toString now

def presend (firebaseUid channelId : String) (messageId : Option String) (attempts : ℕ) :
    ChatFlow Unit := do
  let (_, s) ← run (.findUser firebaseUid)
  match s.users.get firebaseUid with
  | none => respond (.failed 404 "User not found")
  | some user =>
    if isBillableRole user.role = false then respond (.nonBillable user.coins)
    else do
      let (r, s) ← run (.isVipActive firebaseUid)
      if r.vip = true then respond (.vipUnlimited user.coins)
      else
        match messageId with
        | some messageId => presendBillable user channelId messageId attempts
        | none =>
          presendBillable user channelId (tapKey channelId user.firebaseUid s.now) attempts

def preSendMessage (firebaseUid channelId : String) (messageId : Option String) (attempts : ℕ) :
    ChatFlow Unit :=
  if channelId = "" then respond (.failed 400 "channelId is required")
  else tryCatch (presend firebaseUid channelId messageId attempts) fun _ => respond failedToValidate

/-! ### `getMessageQuota` -/

def lookupQuota (firebaseUid channelId : String) : ChatFlow (Option Quota × ℤ) := do
  let (_, s) ← run (.getCreator channelId)
  match s.channelCreator channelId with
  | some creator => do
    let (_, s) ← run (.findQuota firebaseUid creator)
    pure (s.quotas.get (firebaseUid, creator), s.period)
  | none => do
    let (_, s) ← run (.findQuotaByChannel firebaseUid channelId)
    pure (s.quotaByChannel firebaseUid channelId, s.period)

def normalizeQuota (quota : Quota) (period : ℤ) : ChatFlow Unit :=
  if quota.freeQuotaPeriodStart = some period then pure ()
  else do
    let _ ← run (.saveQuota quota period)
    pure ()

def answerQuota (sent : ℕ) (userCoins : ℤ) : Response :=
  let freeRemaining := freeMessagesPerCreator - sent
  .quota (some freeRemaining) (if 0 < freeRemaining then 0 else costPerMessage) userCoins

def messageQuota (firebaseUid channelId : String) : ChatFlow Unit := do
  let (_, s) ← run (.findUser firebaseUid)
  match s.users.get firebaseUid with
  | none => respond (.failed 404 "User not found")
  | some user =>
    if isBillableRole user.role = false then respond (.quota (some 999) 0 user.coins)
    else do
      let (r, _) ← run (.isVipActive firebaseUid)
      if r.vip = true then respond (.quota none 0 user.coins)
      else do
        let (quota, period) ← lookupQuota firebaseUid channelId
        match quota with
        | none => respond (answerQuota 0 user.coins)
        | some quota => do
          normalizeQuota quota period
          respond (answerQuota (quota.normalize period).freeMessagesSent user.coins)

def getMessageQuota (firebaseUid channelId : String) : ChatFlow Unit :=
  if channelId = "" then respond (.failed 400 "channelId is required")
  else tryCatch (messageQuota firebaseUid channelId) fun _ =>
    respond (.failed 500 "Failed to get quota")

inductive Request where
  | preSend (firebaseUid channelId : String) (messageId : Option String) (attempts : ℕ)
  | getQuota (firebaseUid channelId : String)
  | wait (ms : ℕ)
  | incCoins (firebaseUid : String) (amount : ℤ)

def Request.prog : Request → Prog Cmd Reply Store Unit
  | .preSend firebaseUid channelId messageId attempts =>
    (preSendMessage firebaseUid channelId messageId attempts).run >>= fun _ => .ret ()
  | .getQuota firebaseUid channelId =>
    (getMessageQuota firebaseUid channelId).run >>= fun _ => .ret ()
  | .wait ms => (run (.wait ms)).run >>= fun _ => .ret ()
  | .incCoins firebaseUid amount => (run (.incCoins firebaseUid amount)).run >>= fun _ => .ret ()

end VibemeetBackend.Chat
