import VibemeetBackend.Billing.Session
import VibemeetBackend.CreatorReferral.Store
import VibemeetBackend.Mongo.Unique

/-!
# The Telegram join reward

`telegram-reward.service.ts` with the link payload of `telegram-link-token.ts`: the messages of the
bot, which link a Telegram account to a user, and the claim of the reward.

The base64 decoder and the HMAC of the runtime are parameters.  Socket events, metrics, the wallet
check, the stage of a creator referral and the dates of a link and a claim are left out.
-/

namespace VibemeetBackend.Telegram

open Async
open Billing (isTrimmed trim isBlank)
open CreatorReferral (ObjectId)

/-! ### Start payloads -/

/-- `Buffer.from(text, 'base64')`, and the SHA-256 HMAC of a body with a secret. -/
structure Crypto where
  decode : String → List UInt8
  hmac : List UInt8 → String → List UInt8

def objectIdBytes : ℕ := 12
def expBytes : ℕ := 4
def sigBytes : ℕ := 10
def payloadBytes : ℕ := objectIdBytes + expBytes + sigBytes

def base64UrlDecode (crypto : Crypto) (input : String) : List UInt8 :=
  let padded := input.map fun c => if c = '-' then '+' else if c = '_' then '/' else c
  let padLen := (4 - padded.length % 4) % 4
  crypto.decode (padded.pushn '=' padLen)

def hexDigit (n : ℕ) : Char := Char.ofNat (if n < 10 then 48 + n else 87 + n)

def hexByte (b : UInt8) : List Char := [hexDigit (b.toNat / 16), hexDigit (b.toNat % 16)]

theorem hexByte_length (bytes : List UInt8) : (bytes.flatMap hexByte).length = 2 * bytes.length := by
  induction bytes with
  | nil => rfl
  | cons b bytes ih =>
    rw [List.flatMap_cons, List.length_append, ih, List.length_cons]
    show 2 + 2 * bytes.length = 2 * (bytes.length + 1)
    omega

/-- `bytes.toString('hex')`, as an id. -/
def objectIdOfBytes (bytes : List UInt8) (h : bytes.length = objectIdBytes) : ObjectId where
  hex := String.ofList (bytes.flatMap hexByte)
  size := by
    rw [String.toList_ofList, hexByte_length, h]
    rfl

def readUInt32BE (bytes : List UInt8) (offset : ℕ) : ℕ :=
  ((bytes.drop offset).take 4).foldl (fun n b => n * 256 + b.toNat) 0

def verifyTelegramLinkPayload (crypto : Crypto) (secret startPayload : String) (now : ℤ) :
    Option ObjectId :=
  if secret = "" ∨ startPayload = "" then none
  else
    let buf := base64UrlDecode crypto (trim startPayload)
    if h : buf.length = payloadBytes then
      let body := buf.take (objectIdBytes + expBytes)
      let sig := buf.drop (objectIdBytes + expBytes)
      if sig ≠ (crypto.hmac body secret).take sigBytes then none
      else if (readUInt32BE body objectIdBytes : ℤ) * 1000 < now then none
      else
        some (objectIdOfBytes (body.take objectIdBytes) (by
          rw [List.length_take, List.length_take, h]
          rfl))
    else none

/-! ### Documents -/

structure User where
  id : ObjectId
  firebaseUid : String
  role : String
  coins : ℤ
  telegramUserId : Option String
  telegramRewardClaimed : Bool
  deriving DecidableEq

def User.linkedTo (user : User) : Option String := user.telegramUserId.filter (· ≠ "")

structure CoinTransaction where
  transactionId : String
  userId : ObjectId
  coins : ℕ
  source : String
  description : String

structure Store where
  users : Mongo.Unique User.id
  ledger : Mongo.Unique CoinTransaction.transactionId

def telegramJoinRewardTransactionId (userId : ObjectId) : String :=
  "telegram_join_reward_" ++ userId.hex

theorem appended_injective (front : String) {userId userId' : ObjectId}
    (h : front ++ userId.hex = front ++ userId'.hex) : userId = userId' := by
  have hlist := congrArg String.toList h
  simp only [String.toList_append] at hlist
  exact CreatorReferral.ObjectId.ext_hex (String.toList_inj.1 (List.append_cancel_left hlist))

theorem transactionId_injective {userId userId' : ObjectId}
    (h : telegramJoinRewardTransactionId userId = telegramJoinRewardTransactionId userId') :
    userId = userId' := appended_injective _ h

namespace Store

variable (s : Store)

def userByFirebase (firebaseUid : String) : Option User :=
  s.users.rows.find? fun u => u.firebaseUid == firebaseUid

def userByTelegram (telegramUserId : String) : Option User :=
  s.users.rows.find? fun u => u.telegramUserId == some telegramUserId

def coins (userId : ObjectId) : Option ℤ := (s.users.get userId).map User.coins

def telegramUserId (userId : ObjectId) : Option String :=
  (s.users.get userId).bind User.telegramUserId

def row (userId : ObjectId) : Option CoinTransaction :=
  s.ledger.get (telegramJoinRewardTransactionId userId)

end Store

/-! ### Commands -/

structure ClaimWrite where
  user : User
  coins : ℕ
  unclaimed : user.telegramRewardClaimed = false

namespace ClaimWrite

variable (w : ClaimWrite)

def row : CoinTransaction where
  transactionId := telegramJoinRewardTransactionId w.user.id
  userId := w.user.id
  coins := w.coins
  source := "telegram_join_reward"
  description := "Telegram Join Reward"

def claimed : User := { w.user with telegramRewardClaimed := true, coins := w.user.coins + w.coins }

def conflicts (s : Store) : Bool :=
  s.users.get w.user.id != some w.user || (s.row w.user.id).isSome

def exec (s : Store) : Store :=
  { users := s.users.put w.claimed, ledger := s.ledger.insert w.row }

end ClaimWrite

inductive MemberStatus where
  | creator | administrator | member | restricted | left | kicked
  deriving DecidableEq, Repr

def isActiveChannelMember : MemberStatus → Bool
  | .creator | .administrator | .member => true
  | .restricted | .left | .kicked => false

structure TelegramApiError where
  message : String
  notJoined : Bool

structure Reply where
  delivered : Bool
  answered : Bool
  transient : Bool
  member : Except TelegramApiError MemberStatus

def Reply.ok (r : Reply) : Bool := r.delivered && r.answered

inductive Cmd where
  | findByTelegram (telegramUserId : String)
  | findByFirebase (firebaseUid : String)
  | findById (userId : ObjectId)
  | link (userId : ObjectId) (telegramUserId : String)
  | sendMessage (chatId : ℤ) (text : String)
  | getChatMember (channelChatId telegramUserId : String)
  | snapshot
  | commit (w : Option ClaimWrite)
  /-- Any other change of a wallet. -/
  | incCoins (userId : ObjectId) (amount : ℤ)

/-- The document that the update of a link selects. -/
def Store.linkable (s : Store) (userId : ObjectId) : Option User :=
  (s.users.get userId).filter fun u => u.role == "user" && u.telegramUserId.isNone

/-- The unique index refuses the update. -/
def Store.taken (s : Store) (telegramUserId : String) : Bool :=
  (s.userByTelegram telegramUserId).isSome

def Store.link (s : Store) (userId : ObjectId) (telegramUserId : String) : Store :=
  match s.linkable userId with
  | none => s
  | some u =>
    if s.taken telegramUserId = true then s
    else { s with users := s.users.put { u with telegramUserId := some telegramUserId } }

def Store.incCoins (s : Store) (userId : ObjectId) (amount : ℤ) : Store :=
  match s.users.get userId with
  | none => s
  | some u => { s with users := s.users.put { u with coins := u.coins + amount } }

def Cmd.exec (c : Cmd) (r : Reply) (s : Store) : Store :=
  if r.delivered = false then s
  else
    match c with
    | .findByTelegram _ | .findByFirebase _ | .findById _ | .sendMessage .. | .getChatMember ..
    | .snapshot | .commit none => s
    | .link userId telegramUserId => s.link userId telegramUserId
    | .commit (some w) => if w.conflicts s = true then s else w.exec s
    | .incCoins userId amount => s.incCoins userId amount

def transactions : Transactions Cmd Reply Store ClaimWrite where
  snapshot := .snapshot
  commit := .commit
  delivered := Reply.delivered
  answered := Reply.answered
  transient := Reply.transient
  conflicts := ClaimWrite.conflicts

abbrev TelegramFlow (α : Type) : Type := Flow Cmd Reply Store α

def run (c : Cmd) : TelegramFlow (Reply × Store) := Flow.call Reply.ok "request failed" c

def sendTelegramMessage (chatId : ℤ) (text : String) : TelegramFlow Unit := do
  let _ ← Flow.issue (.sendMessage chatId text)
  pure ()

/-! ### The webhook of the bot -/

structure TelegramUpdate where
  text : Option String
  chatId : Option ℤ
  fromId : Option ℤ
  isBot : Bool

structure BotConfig where
  crypto : Crypto
  webhookSecret : String
  linkTokenSecret : String

def isWordChar (c : Char) : Bool := c.isAlphanum || c == '_'

/-- The suffix after `/^\/start(@\w+)?\s*/i`, of a text that begins with `/start`. -/
def afterStart (text : String) : List Char :=
  let rest := text.toList.drop 6
  let rest := match rest with
    | '@' :: name => if name.takeWhile isWordChar = [] then rest else name.dropWhile isWordChar
    | _ => rest
  rest.dropWhile isTrimmed

def startArg (text : String) : String := trim (String.ofList (afterStart text))

example : startArg "/start@vibe_bot  abc" = "abc" ∧ startArg "/start" = "" := by decide +kernel

inductive LinkOutcome where
  | linked | alreadyLinked | notLinked | duplicate | failed
  deriving DecidableEq, Repr

def linkedToOther : String :=
  "This Telegram account is already linked to another MatchVibe account."

def LinkOutcome.text : LinkOutcome → String
  | .linked =>
    "Linked! Join our official Telegram channel, then return to MatchVibe and tap Verify " ++
      "to claim your coins."
  | .alreadyLinked =>
    "Linked! Join our Telegram channel, then return to MatchVibe and tap Verify."
  | .notLinked => "Could not link this account. Please try again from MatchVibe."
  | .duplicate => linkedToOther
  | .failed => "Something went wrong. Please try again later."

def linkAnswer (s : Store) (userId : ObjectId) (telegramUserId : String) : Option LinkOutcome :=
  match s.linkable userId with
  | none => none
  | some _ => if s.taken telegramUserId = true then some .duplicate else some .linked

def updateLink (userId : ObjectId) (telegramUserId : String) : TelegramFlow LinkOutcome := do
  let (_, s) ← run (.link userId telegramUserId)
  match linkAnswer s userId telegramUserId with
  | some outcome => pure outcome
  | none => do
    let (_, s) ← run (.findById userId)
    if s.telegramUserId userId = some telegramUserId then pure .alreadyLinked else pure .notLinked

def linkUser (chatId : ℤ) (userId : ObjectId) (telegramUserId : String) : TelegramFlow Unit := do
  let (_, s) ← run (.findByTelegram telegramUserId)
  if (s.userByTelegram telegramUserId).any (fun u => u.id ≠ userId) = true then
    sendTelegramMessage chatId linkedToOther
  else do
    let (_, s) ← run (.findById userId)
    match s.users.get userId with
    | none => sendTelegramMessage chatId "Account not eligible for this reward."
    | some user =>
      if user.role ≠ "user" then sendTelegramMessage chatId "Account not eligible for this reward."
      else if user.linkedTo.any (fun linked => linked ≠ telegramUserId) = true then
        sendTelegramMessage chatId
          "This MatchVibe account is already linked to a different Telegram account."
      else if user.telegramUserId = some telegramUserId then
        sendTelegramMessage chatId
          "Already linked! Join our Telegram channel, then return to MatchVibe and tap Verify."
      else do
        let outcome ← tryCatch (updateLink userId telegramUserId) fun _ => pure .failed
        sendTelegramMessage chatId outcome.text

/-- A message that begins with `/start`. -/
def handleStart (cfg : BotConfig) (text : String) (chatId fromId now : ℤ) : TelegramFlow Unit :=
  let arg := startArg text
  if arg = "" then
    sendTelegramMessage chatId
      ("Missing link. Return to MatchVibe, tap Connect account (must open from the app so your " ++
        "account can be verified), then press Start here.")
  else
    match verifyTelegramLinkPayload cfg.crypto cfg.linkTokenSecret arg now with
    | none =>
      sendTelegramMessage chatId
        "This link expired or is invalid. Return to MatchVibe and tap Link Telegram again."
    | some userId => linkUser chatId userId (toString fromId)

def handleTelegramWebhook (cfg : BotConfig) (secret : String) (update : TelegramUpdate) (now : ℤ) :
    TelegramFlow Unit :=
  if cfg.webhookSecret = "" ∨ secret ≠ cfg.webhookSecret then throw "Invalid webhook secret"
  else
    match update.fromId, update.chatId with
    | some fromId, some chatId =>
      let text := trim (update.text.getD "")
      if text = "" ∨ update.isBot = true then pure ()
      else if "/start".toList.isPrefixOf text.toList = false then
        sendTelegramMessage chatId
          ("Open MatchVibe → FREE COINS → Join Channel, then tap Connect account so we can link " ++
            "your profile.")
      else handleStart cfg text chatId fromId now
    | _, _ => pure ()

/-! ### The claim -/

structure RewardConfig where
  enabled : Bool
  channelUrl : String
  channelChatId : String
  rewardCoins : ℕ

/-- The error that `assertConfigReady` throws. -/
def RewardConfig.notReady (cfg : RewardConfig) : Option String :=
  if cfg.enabled = false then some "Telegram reward is disabled"
  else if (isBlank cfg.channelUrl || isBlank cfg.channelChatId) = true then
    some "Telegram reward is misconfigured"
  else if cfg.rewardCoins < 1 then some "Telegram reward is misconfigured"
  else none

structure TelegramVerifyPayload where
  success : Bool
  alreadyClaimed : Bool
  coinsCredited : ℕ
  coins : ℕ
  balance : ℤ

def alreadyClaimed (balance : ℤ) : TelegramVerifyPayload := ⟨true, true, 0, 0, balance⟩

def onlyForUsers : String := "Telegram reward is only available for users"

def linkFirst : String := "Link your Telegram account first"

def joinFirst : String := "Join the Telegram channel first, then tap Verify"

def rewardAlreadyClaimed : String := "Reward already claimed"

/-- The duplicate key of a row that exists aborts the transaction, and its commit is refused. -/
def claimBody (rewardCoins : ℕ) (userId : ObjectId) (s : Store) :
    Except String (Option ClaimWrite × TelegramVerifyPayload) :=
  match s.users.get userId with
  | none => .error onlyForUsers
  | some freshUser =>
    if freshUser.role ≠ "user" then .error onlyForUsers
    else if freshUser.telegramRewardClaimed = true then .ok (none, alreadyClaimed freshUser.coins)
    else if freshUser.linkedTo = none then .error linkFirst
    -- the filter of the update, on the user that was just read
    else if h : freshUser.role = "user" ∧ freshUser.telegramRewardClaimed = false then
      .ok (some ⟨freshUser, rewardCoins, h.2⟩,
        ⟨true, false, rewardCoins, rewardCoins, freshUser.coins + rewardCoins⟩)
    else .error rewardAlreadyClaimed

def checkMember (channelChatId telegramUserId : String) : TelegramFlow Unit := do
  let (r, _) ← Flow.issue (.getChatMember channelChatId telegramUserId)
  match r.member with
  | .error e => if e.notJoined = true then throw joinFirst else throw e.message
  | .ok status => if isActiveChannelMember status = false then throw joinFirst else pure ()

def rolledBack (user : User) : TelegramFlow TelegramVerifyPayload := do
  let (_, s) ← run (.findById user.id)
  pure (alreadyClaimed ((s.coins user.id).getD user.coins))

def verifyAndClaimTelegramReward (cfg : RewardConfig) (firebaseUid : String) (attempts : ℕ) :
    TelegramFlow TelegramVerifyPayload :=
  match cfg.notReady with
  | some e => throw e
  | none => do
    let (_, s) ← run (.findByFirebase firebaseUid)
    match s.userByFirebase firebaseUid with
    | none => throw "User not found"
    | some user =>
      if user.role ≠ "user" then throw onlyForUsers
      else if user.telegramRewardClaimed = true then pure (alreadyClaimed user.coins)
      else
        match user.linkedTo with
        | none => throw linkFirst
        | some telegramUserId => do
          checkMember cfg.channelChatId telegramUserId
          tryCatch
            (Flow.withTransaction transactions (claimBody cfg.rewardCoins user.id) attempts)
            fun e => if e = rewardAlreadyClaimed then rolledBack user else throw e

inductive Request where
  | webhook (secret : String) (update : TelegramUpdate) (now : ℤ)
  | claim (cfg : RewardConfig) (firebaseUid : String) (attempts : ℕ)
  | income (userId : ObjectId) (amount : ℤ)

def program (cfg : BotConfig) : Request → Prog Cmd Reply Store Unit
  | .webhook secret update now =>
    (handleTelegramWebhook cfg secret update now).run >>= fun _ => .ret ()
  | .claim rewards firebaseUid attempts =>
    (verifyAndClaimTelegramReward rewards firebaseUid attempts).run >>= fun _ => .ret ()
  | .income userId amount => .act (.incCoins userId amount) fun _ _ => .ret ()

end VibemeetBackend.Telegram
