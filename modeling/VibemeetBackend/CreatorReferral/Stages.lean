import VibemeetBackend.CreatorReferral.Store

/-!
# The stages of a creator referral

`creator-referral-reward.service.ts`: the credit of a stage, the triggers that lead to it and the
repair of unpaid stages.  What a credit returns and what it emits are left out, as is the check of the
creator's balance that follows it.
-/

namespace VibemeetBackend.CreatorReferral

open Async Rewards

/-! ### Commands -/

inductive Query
  | config
  | user (id : ObjectId)
  | transaction (transactionId : String)
  /-- `referredUserHasQualifyingPurchase`. -/
  | purchase (referredUserId : ObjectId)
  | edgeById (referredUserId : ObjectId)
  | edgeOf (creatorUserId referredUserId : ObjectId)
  | edgeOfReferred (referredUserId : ObjectId)
  | unpaidEdges

inductive Cmd
  | find (query : Query)
  | snapshot
  | commit (credit : Option StageCredit)
  /-- The `updateOne` for a row that exists already. -/
  | adopt (stage : CreatorReferralStage) (referredUserId : ObjectId) (coins : ℤ)
  | createEdge (edge : CreatorReferralEdge)
  | joinTelegram (referredUserId : ObjectId)
  | setConfig (config : CreatorReferralConfig)
  | incCoins (userId : ObjectId) (amount : ℤ)
  | setCoins (userId : ObjectId) (coins : ℤ)
  | claimTelegram (userId : ObjectId)
  | purchase (userId : ObjectId)

def joinTelegramEdge (e : CreatorReferralEdge) : CreatorReferralEdge :=
  if e.telegramJoined then e else { e with telegramJoined := true }

theorem joinTelegramEdge_referredUserId (e : CreatorReferralEdge) :
    (joinTelegramEdge e).referredUserId = e.referredUserId := by
  unfold joinTelegramEdge
  split <;> rfl

def Cmd.exec (c : Cmd) (r : Reply) (s : Store) : Store :=
  if r.delivered = false then s
  else
    match c with
    | .find _ | .snapshot => s
    | .commit credit =>
      match credit with
      | some w => if w.conflicts s = true then s else s.credit w
      | none => s
    | .adopt stage referredUserId coins => s.adopt stage referredUserId coins
    | .createEdge edge => { s with edges := s.edges.insert edge }
    | .joinTelegram referredUserId =>
      { s with
        edges := s.edges.update referredUserId joinTelegramEdge joinTelegramEdge_referredUserId }
    | .setConfig config => { s with config := config }
    | .incCoins userId amount => s.updateUser userId fun u => { u with coins := u.coins + amount }
    | .setCoins userId coins => s.updateUser userId fun u => { u with coins := coins }
    | .claimTelegram userId => s.updateUser userId fun u => { u with telegramRewardClaimed := true }
    | .purchase userId => { s with purchases := s.purchases ++ [userId] }

theorem exec_of_not_delivered {c : Cmd} {r : Reply} {s : Store} (hr : r.delivered = false) :
    c.exec r s = s := if_pos hr

abbrev ReferralFlow (α : Type) : Type := Flow Cmd Reply Store α

/-- A command whose failure is thrown; the store that it finds is what it answers from. -/
def run (c : Cmd) : ReferralFlow (Reply × Store) := Flow.call Reply.ok "MongoServerError" c

def transactions : Transactions Cmd Reply Store StageCredit where
  snapshot := .snapshot
  commit := .commit
  delivered := Reply.delivered
  answered := Reply.answered
  transient := Reply.transient
  conflicts := StageCredit.conflicts

/-! ### The credit of a stage -/

structure StageInput where
  stage : CreatorReferralStage
  creatorUserId : ObjectId
  referredUserId : ObjectId

def StageInput.transactionId (input : StageInput) : String :=
  creatorReferralStageTransactionId input.stage input.creatorUserId input.referredUserId

/-- The callback of the transaction, on the snapshot `s`.  A duplicate key aborts it. -/
def creditOf (input : StageInput) (rewardCoins : ℤ) (s : Store) :
    Except String (Option StageCredit × Unit) :=
  match s.edges.find input.referredUserId with
  | none => .ok (none, ())
  | some edge =>
    if edge.creatorRewarded || (edge.reward input.stage).rewarded then .ok (none, ())
    else
      match s.ledger.row input.transactionId with
      | some _ => .ok (none, ())
      | none =>
        match s.user input.creatorUserId with
        | none => .error "Creator user not found for referral reward"
        | some user => .ok (some ⟨input.stage, edge, input.creatorUserId, rewardCoins, user⟩, ())

/-- The credit of an edge that was found unpaid. -/
def payStage (input : StageInput) (rewardCoins : ℤ) (attempts : ℕ) : ReferralFlow Unit := do
  let (_, s) ← run (.find (.transaction input.transactionId))
  match s.ledger.row input.transactionId with
  | some _ => do
    let _ ← run (.adopt input.stage input.referredUserId rewardCoins)
    pure ()
  | none => Flow.withTransaction transactions (creditOf input rewardCoins) attempts

def creditStage (input : StageInput) (attempts : ℕ) : ReferralFlow Unit := do
  let (_, s) ← run (.find .config)
  let rewardCoins := s.config.coins input.stage
  if s.config.enabled = false ∨ rewardCoins < 1 then pure ()
  else do
    let (_, s) ← run (.find (.edgeById input.referredUserId))
    match s.edges.find input.referredUserId with
    | none => pure ()
    | some edge =>
      if (edge.creatorRewarded || (edge.reward input.stage).rewarded) = true then pure ()
      else payStage input rewardCoins attempts

/-! ### Triggers -/

/-- `CreatorReferralEdge.findOne({ creatorUserId, referredUserId })`. -/
def Store.edgeOf (s : Store) (creatorUserId referredUserId : ObjectId) :
    Option CreatorReferralEdge :=
  (s.edges.find referredUserId).filter fun e => e.creatorUserId = creatorUserId

def tryCreditAttach (creatorUserId referredUserId : ObjectId) (attempts : ℕ) :
    ReferralFlow Unit := do
  let (_, s) ← run (.find (.edgeOf creatorUserId referredUserId))
  match s.edgeOf creatorUserId referredUserId with
  | none => pure ()
  | some _ => creditStage ⟨.attach, creatorUserId, referredUserId⟩ attempts

def tryCreditTelegram (creatorUserId referredUserId : ObjectId) (attempts : ℕ) :
    ReferralFlow Unit := do
  let (_, s) ← run (.find (.edgeOf creatorUserId referredUserId))
  match s.edgeOf creatorUserId referredUserId with
  | none => pure ()
  | some edge =>
    if edge.telegramJoined = true then
      creditStage ⟨.telegram, creatorUserId, referredUserId⟩ attempts
    else pure ()

def tryCreditPurchase (referredUserId : ObjectId) (attempts : ℕ) : ReferralFlow Unit := do
  let (_, s) ← run (.find (.edgeOfReferred referredUserId))
  match s.edges.find referredUserId with
  | none => pure ()
  | some edge => creditStage ⟨.purchase, edge.creatorUserId, referredUserId⟩ attempts

def creditQualifyingPurchase (referredUserId : ObjectId) (attempts : ℕ) : ReferralFlow Unit := do
  let (_, s) ← run (.find (.purchase referredUserId))
  if referredUserId ∈ s.purchases then tryCreditPurchase referredUserId attempts else pure ()

def creditTelegramIf (condition : Bool) (creatorUserId referredUserId : ObjectId) (attempts : ℕ) :
    ReferralFlow Unit :=
  if condition = true then tryCreditTelegram creatorUserId referredUserId attempts else pure ()

structure AttachInput where
  creatorUserId : ObjectId
  referredUserId : ObjectId
  referralCodeUsed : String
  telegramAlreadyClaimed : Bool

def AttachInput.edge (input : AttachInput) (telegramJoined : Bool) : CreatorReferralEdge where
  creatorUserId := input.creatorUserId
  referredUserId := input.referredUserId
  referralCodeUsed := input.referralCodeUsed
  telegramJoined := telegramJoined
  creatorRewarded := false
  attach := .unpaid
  telegram := .unpaid
  purchase := .unpaid

def telegramClaimed (input : AttachInput) : ReferralFlow Bool :=
  if input.telegramAlreadyClaimed = true then pure true
  else do
    let (_, s) ← run (.find (.user input.referredUserId))
    pure ((s.user input.referredUserId).any ReferralUser.telegramRewardClaimed)

def createCreatorReferralEdgeAfterAttach (input : AttachInput) (attempts : ℕ) :
    ReferralFlow Unit := do
  let telegramJoined ← telegramClaimed input
  -- a duplicate key is an answer like any other: the edge is there
  let _ ← run (.createEdge (input.edge telegramJoined))
  tryCreditAttach input.creatorUserId input.referredUserId attempts
  creditTelegramIf telegramJoined input.creatorUserId input.referredUserId attempts
  creditQualifyingPurchase input.referredUserId attempts

def markCreatorReferralTelegramJoined (referredUserId : ObjectId) (attempts : ℕ) :
    ReferralFlow Unit := do
  let (_, s) ← run (.joinTelegram referredUserId)
  match (s.edges.find referredUserId).filter fun e => !e.telegramJoined with
  | some edge => tryCreditTelegram edge.creatorUserId referredUserId attempts
  | none => do
    let (_, s) ← run (.find (.edgeOfReferred referredUserId))
    match s.edges.find referredUserId with
    | none => pure ()
    | some existing =>
      creditTelegramIf existing.telegramJoined existing.creatorUserId referredUserId attempts

/-! ### The repair -/

/-- The filter of `stageEdges`. -/
def CreatorReferralEdge.stageUnpaid (e : CreatorReferralEdge) : Bool :=
  !e.creatorRewarded && (!e.attach.rewarded || (e.telegramJoined && !e.telegram.rewarded))

/-- The filter of `purchaseEdges`. -/
def CreatorReferralEdge.purchaseUnpaid (e : CreatorReferralEdge) : Bool :=
  !e.creatorRewarded && !e.purchase.rewarded

def Store.oldestEdges (s : Store) (filter : CreatorReferralEdge → Bool) (limit : ℕ) :
    List CreatorReferralEdge :=
  (s.edges.docs.filter filter).take limit

/-- The rows of both lists, each edge once. -/
def mergeById (stageEdges purchaseEdges : List CreatorReferralEdge) : List CreatorReferralEdge :=
  stageEdges ++ purchaseEdges.filter fun e =>
    e.referredUserId ∉ stageEdges.map CreatorReferralEdge.referredUserId

def creditAttachIf (condition : Bool) (creatorUserId referredUserId : ObjectId) (attempts : ℕ) :
    ReferralFlow Unit :=
  if condition = true then tryCreditAttach creatorUserId referredUserId attempts else pure ()

def creditPurchaseIf (condition : Bool) (referredUserId : ObjectId) (attempts : ℕ) :
    ReferralFlow Unit :=
  if condition = true then creditQualifyingPurchase referredUserId attempts else pure ()

def reconcileRows (attempts : ℕ) : List CreatorReferralEdge → ReferralFlow Unit
  | [] => pure ()
  | row :: rows => do
    creditAttachIf (!row.attach.rewarded) row.creatorUserId row.referredUserId attempts
    creditTelegramIf (row.telegramJoined && !row.telegram.rewarded) row.creatorUserId
      row.referredUserId attempts
    creditPurchaseIf (!row.purchase.rewarded) row.referredUserId attempts
    reconcileRows attempts rows

def reconcileUnpaidCreatorReferrals (limit attempts : ℕ) : ReferralFlow Unit := do
  let (_, s) ← run (.find .config)
  if s.config.enabled = false then pure ()
  else do
    let (_, s₁) ← run (.find .unpaidEdges)
    let (_, s₂) ← run (.find .unpaidEdges)
    reconcileRows attempts (mergeById (s₁.oldestEdges CreatorReferralEdge.stageUnpaid limit)
      (s₂.oldestEdges CreatorReferralEdge.purchaseUnpaid limit))

/-- What may happen to the referrals: the triggers, the repair, and the writes of others.  The settled
call is a trigger that does nothing any more. -/
inductive Request
  | attached (input : AttachInput) (attempts : ℕ)
  | telegramClaimed (referredUserId : ObjectId) (attempts : ℕ)
  | callSettled (referredUserId : ObjectId)
  | purchased (referredUserId : ObjectId) (attempts : ℕ)
  | reconcile (limit attempts : ℕ)
  | setConfig (config : CreatorReferralConfig)
  | income (userId : ObjectId) (amount : ℤ)
  | repairBalance (userId : ObjectId) (coins : ℤ)
  | claimTelegram (userId : ObjectId)
  | purchase (userId : ObjectId)

/-- A request whose result nobody waits for. -/
def detached (p : ReferralFlow Unit) : Prog Cmd Reply Store Unit := p.run >>= fun _ => .ret ()

def program : Request → Prog Cmd Reply Store Unit
  | .attached input attempts => detached (createCreatorReferralEdgeAfterAttach input attempts)
  | .telegramClaimed referredUserId attempts =>
    detached (markCreatorReferralTelegramJoined referredUserId attempts)
  | .callSettled _ => .ret ()
  | .purchased referredUserId attempts => detached (tryCreditPurchase referredUserId attempts)
  | .reconcile limit attempts => detached (reconcileUnpaidCreatorReferrals limit attempts)
  | .setConfig config => .act (.setConfig config) fun _ _ => .ret ()
  | .income userId amount => .act (.incCoins userId amount) fun _ _ => .ret ()
  | .repairBalance userId coins => .act (.setCoins userId coins) fun _ _ => .ret ()
  | .claimTelegram userId => .act (.claimTelegram userId) fun _ _ => .ret ()
  | .purchase userId => .act (.purchase userId) fun _ _ => .ret ()

end VibemeetBackend.CreatorReferral
