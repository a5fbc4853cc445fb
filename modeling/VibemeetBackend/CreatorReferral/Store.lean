import VibemeetBackend.Rewards.Credit

/-!
# Creator referrals

`creator-referral-edge.model.ts`, `creator-referral-config.model.ts`: the edge between a creator and a
user whom the creator has referred, with one reward for each stage, and the amounts of the stages.

Dates are kept as whether they are set; the deprecated qualifier of a video call is left out.
-/

namespace VibemeetBackend.CreatorReferral

open Async Rewards

/-! ### Ids -/

structure ObjectId where
  hex : String
  size : hex.toList.length = 24
  deriving DecidableEq

inductive CreatorReferralStage
  | attach | telegram | purchase
  deriving DecidableEq, Repr

def CreatorReferralStage.text : CreatorReferralStage → String
  | .attach => "attach"
  | .telegram => "telegram"
  | .purchase => "purchase"

def CreatorReferralStage.source : CreatorReferralStage → String
  | .attach => "creator_referral_attach_reward"
  | .telegram => "creator_referral_telegram_reward"
  | .purchase => "creator_referral_purchase_reward"

def creatorReferralStageTransactionId (stage : CreatorReferralStage)
    (creatorUserId referredUserId : ObjectId) : String :=
  "creator_referral_" ++ stage.text ++ "_" ++ creatorUserId.hex ++ "_" ++ referredUserId.hex

def CreatorReferralStage.initial : CreatorReferralStage → Char
  | .attach => 'a'
  | .telegram => 't'
  | .purchase => 'p'

variable (stage : CreatorReferralStage)

theorem text_head : stage.text.toList.head? = some stage.initial := by
  cases stage <;> decide

theorem initial_injective {stage stage' : CreatorReferralStage}
    (h : stage.initial = stage'.initial) : stage = stage' := by
  revert h
  cases stage <;> cases stage' <;> decide

theorem ObjectId.ext_hex {a b : ObjectId} (h : a.hex = b.hex) : a = b := by
  cases a
  cases b
  obtain rfl := h
  rfl

theorem toList_joined (front text separator c r : String) :
    (front ++ text ++ separator ++ c ++ separator ++ r).toList =
      front.toList ++ (text.toList ++ (separator.toList ++ (c.toList ++
        (separator.toList ++ r.toList)))) := by
  simp only [String.toList_append, List.append_assoc]

theorem exists_toList_stageId : ∃ front separator : List Char,
    ∀ (stage : CreatorReferralStage) (c r : ObjectId),
      (creatorReferralStageTransactionId stage c r).toList =
        front ++ (stage.text.toList ++ (separator ++ (c.hex.toList ++
          (separator ++ r.hex.toList)))) :=
  ⟨_, _, fun _ _ _ => toList_joined _ _ _ _ _⟩

theorem stageId_injective {stage stage' : CreatorReferralStage} {c c' r r' : ObjectId}
    (h : creatorReferralStageTransactionId stage c r =
      creatorReferralStageTransactionId stage' c' r') : stage = stage' ∧ c = c' ∧ r = r' := by
  obtain ⟨front, separator, hid⟩ := exists_toList_stageId
  have hlist := hid stage c r
  rw [h, hid stage' c' r'] at hlist
  have hrest := List.append_cancel_left hlist
  have hhead := congrArg List.head? hrest
  simp only [List.head?_append, text_head, Option.some_or] at hhead
  obtain rfl := initial_injective (Option.some.inj hhead.symm)
  have hids := List.append_cancel_left (List.append_cancel_left hrest)
  obtain ⟨hc, htail⟩ := List.append_inj hids (c'.size.trans c.size.symm)
  have hr := List.append_cancel_left htail
  exact ⟨rfl, ObjectId.ext_hex (String.toList_inj.1 hc.symm),
    ObjectId.ext_hex (String.toList_inj.1 hr.symm)⟩

/-! ### Documents -/

/-- `…RewardedAt` and `…RewardCoins` of a stage. -/
structure StageReward where
  rewarded : Bool
  coins : Option ℤ
  deriving DecidableEq

def StageReward.unpaid : StageReward := ⟨false, none⟩

structure CreatorReferralEdge where
  creatorUserId : ObjectId
  referredUserId : ObjectId
  referralCodeUsed : String
  telegramJoined : Bool
  creatorRewarded : Bool
  attach : StageReward
  telegram : StageReward
  purchase : StageReward
  deriving DecidableEq

namespace CreatorReferralEdge

/-- `edge[meta.rewardedAtField]` and `edge[meta.rewardCoinsField]`. -/
def reward (e : CreatorReferralEdge) : CreatorReferralStage → StageReward
  | .attach => e.attach
  | .telegram => e.telegram
  | .purchase => e.purchase

def setReward (e : CreatorReferralEdge) (stage : CreatorReferralStage) (reward : StageReward) :
    CreatorReferralEdge :=
  match stage with
  | .attach => { e with attach := reward }
  | .telegram => { e with telegram := reward }
  | .purchase => { e with purchase := reward }

variable (e : CreatorReferralEdge) (stage : CreatorReferralStage) (reward : StageReward)

@[simp] theorem setReward_referredUserId :
    (e.setReward stage reward).referredUserId = e.referredUserId := by
  cases stage <;> rfl

@[simp] theorem setReward_creatorUserId :
    (e.setReward stage reward).creatorUserId = e.creatorUserId := by
  cases stage <;> rfl

theorem reward_setReward (stage' : CreatorReferralStage) :
    (e.setReward stage reward).reward stage' =
      if stage' = stage then reward else e.reward stage' := by
  cases stage <;> cases stage' <;> rfl

end CreatorReferralEdge

/-- The edges, with the unique index on the referred user.  They are never deleted, so the referred
user stands for the `_id`. -/
structure Edges where
  docs : List CreatorReferralEdge
  unique : (docs.map CreatorReferralEdge.referredUserId).Nodup

namespace Edges

def find (es : Edges) (referredUserId : ObjectId) : Option CreatorReferralEdge :=
  es.docs.find? fun e => e.referredUserId == referredUserId

/-- `CreatorReferralEdge.create`: a duplicate key leaves the collection as it was. -/
def insert (es : Edges) (e : CreatorReferralEdge) : Edges :=
  if h : e.referredUserId ∈ es.docs.map CreatorReferralEdge.referredUserId then es
  else
    { docs := es.docs ++ [e]
      unique := by
        rw [List.map_append, List.map_singleton, List.nodup_append]
        refine ⟨es.unique, List.nodup_singleton _, ?_⟩
        intro a ha b hb hab
        rw [List.mem_singleton.1 hb] at hab
        exact h (hab ▸ ha) }

def update (es : Edges) (referredUserId : ObjectId)
    (f : CreatorReferralEdge → CreatorReferralEdge)
    (hf : ∀ e, (f e).referredUserId = e.referredUserId) : Edges where
  docs := es.docs.map fun e => if e.referredUserId = referredUserId then f e else e
  unique := by
    have hkeys : CreatorReferralEdge.referredUserId ∘
        (fun e => if e.referredUserId = referredUserId then f e else e) =
          CreatorReferralEdge.referredUserId := by
      funext e
      show (if e.referredUserId = referredUserId then f e else e).referredUserId = _
      split
      · exact hf e
      · rfl
    rw [List.map_map, hkeys]
    exact es.unique

variable {es : Edges} {e : CreatorReferralEdge} {referredUserId : ObjectId}

theorem mem_of_find (h : es.find referredUserId = some e) :
    e ∈ es.docs ∧ e.referredUserId = referredUserId := by
  have hid := List.find?_some h
  exact ⟨List.mem_of_find?_eq_some h, beq_iff_eq.1 hid⟩

theorem find_of_mem (h : e ∈ es.docs) : es.find e.referredUserId = some e := by
  have hsome : (es.find e.referredUserId).isSome := by
    rw [find, List.find?_isSome]
    exact ⟨e, h, beq_self_eq_true _⟩
  obtain ⟨e', he'⟩ := Option.isSome_iff_exists.1 hsome
  obtain ⟨hmem, hid⟩ := mem_of_find he'
  rw [he', List.inj_on_of_nodup_map es.unique hmem h hid]

theorem mem_insert {e' : CreatorReferralEdge} (h : e' ∈ (es.insert e).docs) :
    e' ∈ es.docs ∨ (e' = e ∧ es.find e.referredUserId = none) := by
  unfold insert at h
  split at h
  · exact Or.inl h
  · rename_i hnew
    rcases List.mem_append.1 h with h | h
    · exact Or.inl h
    · refine Or.inr ⟨List.mem_singleton.1 h, ?_⟩
      grind [find]

theorem subset_insert (h : e ∈ es.docs) (e' : CreatorReferralEdge) : e ∈ (es.insert e').docs := by
  unfold insert
  split
  · exact h
  · exact List.mem_append_left _ h

theorem find_update {f : CreatorReferralEdge → CreatorReferralEdge}
    (hf : ∀ e, (f e).referredUserId = e.referredUserId) (k k' : ObjectId) :
    (es.update k f hf).find k' = if k = k' then (es.find k').map f else es.find k' :=
  Mongo.find?_update hf k k' es.docs

end Edges

structure CreatorReferralConfig where
  enabled : Bool
  attachCoins : ℤ
  telegramCoins : ℤ
  purchaseCoins : ℤ

/-- `cfg[meta.configKey]`. -/
def CreatorReferralConfig.coins (cfg : CreatorReferralConfig) : CreatorReferralStage → ℤ
  | .attach => cfg.attachCoins
  | .telegram => cfg.telegramCoins
  | .purchase => cfg.purchaseCoins

structure ReferralUser where
  id : ObjectId
  coins : ℤ
  telegramRewardClaimed : Bool
  deriving DecidableEq

/-- The collections.  Of `CoinTransaction` the ledger has the rows of the stages; `purchases` are the
users with a completed purchase. -/
structure Store where
  config : CreatorReferralConfig
  users : List ReferralUser
  edges : Edges
  ledger : Ledger
  purchases : List ObjectId

namespace Store

def user (s : Store) (id : ObjectId) : Option ReferralUser := s.users.find? fun u => u.id == id

def coins (s : Store) (id : ObjectId) : Option ℤ := (s.user id).map ReferralUser.coins

def updateUser (s : Store) (id : ObjectId) (f : ReferralUser → ReferralUser) : Store :=
  { s with users := s.users.map fun u => if u.id = id then f u else u }

def start (config : CreatorReferralConfig) (users : List ReferralUser)
    (purchases : List ObjectId) : Store :=
  ⟨config, users, ⟨[], List.nodup_nil⟩, ⟨[], List.nodup_nil⟩, purchases⟩

end Store

/-! ### A credit -/

structure StageCredit where
  stage : CreatorReferralStage
  edge : CreatorReferralEdge
  creatorUserId : ObjectId
  coins : ℤ
  user : ReferralUser

def stageRow (stage : CreatorReferralStage) (creatorUserId referredUserId : ObjectId)
    (coins : ℤ) : CoinTransaction where
  transactionId := creatorReferralStageTransactionId stage creatorUserId referredUserId
  userId := creatorUserId.hex
  coins := coins
  source := stage.source

def StageCredit.row (w : StageCredit) : CoinTransaction :=
  stageRow w.stage w.creatorUserId w.edge.referredUserId w.coins

def StageCredit.conflicts (w : StageCredit) (s : Store) : Bool :=
  !(s.edges.find w.edge.referredUserId == some w.edge && s.user w.creatorUserId == some w.user &&
    (s.ledger.row w.row.transactionId).isNone)

/-- The edge is marked, the row created, the wallet incremented. -/
def Store.credit (s : Store) (w : StageCredit) : Store :=
  { s.updateUser w.creatorUserId (fun u => { u with coins := u.coins + w.coins }) with
    edges := s.edges.update w.edge.referredUserId
      (fun e => e.setReward w.stage ⟨true, some w.coins⟩)
      (fun e => e.setReward_referredUserId w.stage ⟨true, some w.coins⟩)
    ledger := s.ledger.insert w.row }

def adoptEdge (stage : CreatorReferralStage) (coins : ℤ) (e : CreatorReferralEdge) :
    CreatorReferralEdge :=
  if (e.reward stage).rewarded then e else e.setReward stage ⟨true, some coins⟩

theorem adoptEdge_referredUserId (coins : ℤ) (e : CreatorReferralEdge) :
    (adoptEdge stage coins e).referredUserId = e.referredUserId := by
  unfold adoptEdge
  split
  · rfl
  · exact e.setReward_referredUserId stage _

theorem adoptEdge_creatorUserId (coins : ℤ) (e : CreatorReferralEdge) :
    (adoptEdge stage coins e).creatorUserId = e.creatorUserId := by
  unfold adoptEdge
  split
  · rfl
  · exact e.setReward_creatorUserId stage _

def Store.adopt (s : Store) (stage : CreatorReferralStage) (referredUserId : ObjectId)
    (coins : ℤ) : Store :=
  { s with
    edges := s.edges.update referredUserId (adoptEdge stage coins)
      (adoptEdge_referredUserId stage coins) }

end VibemeetBackend.CreatorReferral
