import VibemeetBackend.Async.Watch
import VibemeetBackend.Ledger.Books

/-!
# The reward for an uploaded moment

`creditMomentUploadReward` and `debitMomentUploadRewardClawback` of `moment-upload-reward.service.ts`,
as programs on the ledger and the wallets.  Other features move wallets by transactions of their
own.

The row, the wallet and the creator of a reward are written one after the other.  Those of a clawback
are one transaction of its only caller, which reads what it saves before the transaction begins; an
attempt that is aborted is run again as another request.  The log lines, the message to the
creator's socket and the checks of the balance are left out.
-/

namespace VibemeetBackend.UploadReward

open Async Ledger

inductive MomentType
  | photo | video
  deriving DecidableEq, Repr

structure MomentsConfig where
  photoUploadRewardCoins : ℤ
  videoUploadRewardCoins : ℤ

def MomentsConfig.resolveMomentUploadRewardCoins (cfg : MomentsConfig) (type : MomentType) : ℕ :=
  match type with
  | .photo => cfg.photoUploadRewardCoins.toNat
  | .video => cfg.videoUploadRewardCoins.toNat

def uploadRewardCreditTransactionId (momentId : String) : String :=
  "moment_upload_reward_" ++ momentId

def uploadRewardClawbackTransactionId (momentId : String) : String :=
  "moment_upload_reward_clawback_" ++ momentId

/-- The wallets, `Creator.earningsCoins` and the ledger. -/
structure Store where
  coins : Wallets
  earnings : Wallets
  rows : List CoinTransaction

def Store.findRow (s : Store) (transactionId : String) : Option CoinTransaction :=
  s.rows.find? fun row => row.transactionId == transactionId

def Store.has (s : Store) (transactionId : String) : Bool := (s.findRow transactionId).isSome

/-! ### Commands -/

inductive Cmd
  | findRow (transactionId : String)
  | findUser (userId : String)
  | findCreator (creatorId : String)
  | insertRow (row : CoinTransaction)
  /-- `user.save()` of a document that was loaded with `loaded` coins. -/
  | saveUser (userId : String) (loaded : ℕ) (change : ℤ)
  | saveCreator (creatorId : String) (loaded : ℕ) (change : ℤ)
  | clawback (row : CoinTransaction) (loaded : ℕ) (creatorId : String) (earnings : ℕ)
  /-- A transaction of another feature; a debit that is not covered is refused. -/
  | movement (transactionId userId : String) (type : TxType) (coins : ℕ) (source : String)

/-- `ok` when the command is answered; one that is not may have been executed all the same.
`validSource` when the deployed schema knows the source of the rewards. -/
structure Reply where
  ok : Bool
  executed : Bool
  validSource : Bool

def changed (loaded : ℕ) (change : ℤ) : ℕ := (loaded + change).toNat

def saved (wallets : Wallets) (id : String) (loaded : ℕ) (change : ℤ) : Wallets :=
  if changed loaded change = loaded then wallets else wallets.set id (changed loaded change)

def Cmd.effect (c : Cmd) (s : Store) : Store :=
  match c with
  | .insertRow row => if s.has row.transactionId then s else { s with rows := s.rows ++ [row] }
  | .saveUser userId loaded change => { s with coins := saved s.coins userId loaded change }
  | .saveCreator creatorId loaded change =>
    { s with earnings := saved s.earnings creatorId loaded change }
  | .clawback row loaded creatorId earnings =>
    if s.has row.transactionId then s
    else { s with
      rows := s.rows ++ [row]
      coins := saved s.coins row.userId loaded row.signed
      earnings := saved s.earnings creatorId earnings row.signed }
  | .movement transactionId userId type coins source =>
    let row : CoinTransaction := ⟨transactionId, userId, type, coins, source, "", .completed⟩
    match s.coins userId with
    | some wallet =>
      if s.has transactionId ∨ (wallet : ℤ) + row.signed < 0 then s
      else { s with
        rows := s.rows ++ [row], coins := s.coins.set userId (changed wallet row.signed) }
    | none => s
  | _ => s

def Cmd.sent (c : Cmd) (r : Reply) : Bool :=
  match c with
  | .insertRow row => r.validSource || row.source != "moment_upload_reward"
  | _ => true

def Cmd.exec (c : Cmd) (r : Reply) (s : Store) : Store :=
  if c.sent r && (r.ok || r.executed) then c.effect s else s

/-! ### The service -/

abbrev RewardFlow (α : Type) : Type := Flow Cmd Reply Store α

def run (c : Cmd) : RewardFlow (Reply × Store) := Flow.call Reply.ok "MongoError" c

inductive Inserted
  | created | duplicate

def uploadRewardRow (transactionId userId : String) (coins : ℕ) (type : MomentType)
    (source : String) : CoinTransaction where
  transactionId
  userId
  type := .credit
  coins
  source
  description :=
    match type with
    | .photo => "Reward for uploading a moment photo"
    | .video => "Reward for uploading a moment reel"
  status := .completed

def createUploadRewardTransaction (transactionId userId : String) (coins : ℕ) (type : MomentType) :
    RewardFlow Inserted := do
  let (r, s) ← run
    (.insertRow (uploadRewardRow transactionId userId coins type "moment_upload_reward"))
  if r.validSource then
    return if s.has transactionId then .duplicate else .created
  else do
    let (_, t) ← run (.insertRow (uploadRewardRow transactionId userId coins type "creator_task"))
    return if t.has transactionId then .duplicate else .created

structure Credited where
  coinsCredited : ℕ
  newBalance : ℕ

def creditMomentUploadReward (cfg : MomentsConfig) (userId creatorId momentId : String)
    (type : MomentType) : RewardFlow (Option Credited) := do
  let rewardCoins := cfg.resolveMomentUploadRewardCoins type
  if rewardCoins = 0 then return none
  else do
    let transactionId := uploadRewardCreditTransactionId momentId
    let (_, s) ← run (.findRow transactionId)
    match s.findRow transactionId with
    | some existing => do
      let (_, t) ← run (.findUser userId)
      return some ⟨existing.coins, (t.coins userId).getD 0⟩
    | none => do
      let (_, t) ← run (.findUser userId)
      let (_, u) ← run (.findCreator creatorId)
      match t.coins userId, u.earnings creatorId with
      | some coins, some earnings => do
        match ← createUploadRewardTransaction transactionId userId rewardCoins type with
        | .duplicate => do
          let (_, v) ← run (.findRow transactionId)
          let (_, w) ← run (.findUser userId)
          return some ⟨((v.findRow transactionId).map (·.coins)).getD rewardCoins,
            (w.coins userId).getD 0⟩
        | .created => do
          let _ ← run (.saveUser userId coins rewardCoins)
          let _ ← run (.saveCreator creatorId earnings rewardCoins)
          return some ⟨rewardCoins, coins + rewardCoins⟩
      | _, _ => throw "User or creator not found for moment upload reward"

structure ClawedBack where
  coinsClawedBack : ℕ
  newBalance : ℕ

def clawbackDescription (actorLabel : Option String) : String :=
  match actorLabel with
  | some label =>
    if label = "" then "Admin deleted moment — upload reward clawback"
    else "Admin deleted moment — upload reward clawback (" ++ label ++ ")"
  | none => "Admin deleted moment — upload reward clawback"

def debitMomentUploadRewardClawback (userId creatorId momentId : String)
    (actorLabel : Option String) : RewardFlow ClawedBack := do
  let creditTxnId := uploadRewardCreditTransactionId momentId
  let clawbackTxnId := uploadRewardClawbackTransactionId momentId
  let (_, s) ← run (.findRow creditTxnId)
  let balance : RewardFlow ℕ := do
    let (_, t) ← run (.findUser userId)
    return (t.coins userId).getD 0
  match (s.findRow creditTxnId).filter fun row => 0 < row.coins with
  | none => do
    let newBalance ← balance
    return ⟨0, newBalance⟩
  | some creditTx => do
    let (_, t) ← run (.findRow clawbackTxnId)
    match t.findRow clawbackTxnId with
    | some existingClawback => do
      let newBalance ← balance
      return ⟨existingClawback.coins, newBalance⟩
    | none => do
      let clawAmount := creditTx.coins
      let (_, u) ← run (.findUser userId)
      let (_, v) ← run (.findCreator creatorId)
      match u.coins userId, v.earnings creatorId with
      | some coins, some earnings => do
        let (_, w) ← run (.clawback ⟨clawbackTxnId, userId, .debit, clawAmount, "admin",
          clawbackDescription actorLabel, .completed⟩ coins creatorId earnings)
        if w.has clawbackTxnId then do
          let (_, x) ← run (.findRow clawbackTxnId)
          let newBalance ← balance
          return ⟨((x.findRow clawbackTxnId).map (·.coins)).getD 0, newBalance⟩
        else return ⟨clawAmount, changed coins (-(clawAmount : ℤ))⟩
      | _, _ => throw "User or creator not found for moment upload reward clawback"

inductive Request
  | credit (userId creatorId momentId : String) (type : MomentType)
  | clawback (userId creatorId momentId : String) (actorLabel : Option String)
  | movement (transactionId userId : String) (type : TxType) (coins : ℕ) (source : String)

def program (cfg : MomentsConfig) (q : Request) : Prog Cmd Reply Store Unit :=
  match q with
  | .credit userId creatorId momentId type =>
    (creditMomentUploadReward cfg userId creatorId momentId type).run >>= fun _ => .ret ()
  | .clawback userId creatorId momentId actorLabel =>
    (debitMomentUploadRewardClawback userId creatorId momentId actorLabel).run >>= fun _ =>
      .ret ()
  | .movement transactionId userId type coins source =>
    (run (.movement transactionId userId type coins source)).run >>= fun _ => .ret ()

end VibemeetBackend.UploadReward
