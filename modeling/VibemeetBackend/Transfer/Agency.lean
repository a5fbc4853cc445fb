import VibemeetBackend.Ledger.Books
import VibemeetBackend.Referral.Apply
import VibemeetBackend.Telegram.Reward

/-!
# Moving a creator to another agency

`transferCreatorToAgency` of `creator-transfer.service.ts`: one transaction that links the creator and
the creator's user to the new agency and may move a referral reward that was granted.

An id that is stored is the hex string of an `ObjectId`.  A save that assigns the value that is there
changes nothing.  In a transaction of its own the edge that was not found cannot be there when it is
created.
-/

namespace VibemeetBackend.Transfer

open Ledger Mongo
open Moments (Text)
open Referral (UserRole isAgencyRole upperChar)
open Billing (trim)

/-! ### Documents -/

structure ReferralEntry where
  user : String
  rewardGranted : Bool
  createdAt : ℤ

structure User where
  id : String
  role : UserRole
  agencyDisabled : Bool := false
  referralCode : Option Text := none
  referredBy : Option String := none
  referrals : List ReferralEntry := []
  coins : ℕ := 0

structure Creator where
  id : String
  userId : Option String
  assignedAgencyId : Option String

structure ReferralEdge where
  referrerId : String
  referredUserId : String
  referralCodeUsed : Text
  rewardGranted : Bool

structure Withdrawal where
  creatorUserId : String
  pending : Bool
  assignedAgencyId : Option String

structure Store where
  users : Unique User.id
  creators : Unique Creator.id
  edges : Unique ReferralEdge.referredUserId
  withdrawals : List Withdrawal
  rows : List CoinTransaction

namespace Store

variable (s : Store)

def coins : Wallets := fun id => (s.users.get id).map (·.coins)

def isAgency (id : String) : Bool := (s.users.get id).any fun u => isAgencyRole u.role

def agencyCoins : ℕ := (s.users.rows.map fun u => if isAgencyRole u.role then u.coins else 0).sum

def has (transactionId : String) : Bool := s.rows.any fun row => row.transactionId == transactionId

end Store

/-! ### Requests -/

structure Config where
  /-- The hex string of `new mongoose.Types.ObjectId(text)`, when `isValid(text)`. -/
  objectId : String → Option String
  /-- What `parseInt` makes of `REFERRAL_REWARD_COINS`, when it is set and a number. -/
  envRewardCoins : Option ℤ

def Config.getReferralRewardCoins (cfg : Config) : ℕ :=
  match cfg.envRewardCoins with
  | some n => if 0 < n then n.toNat else 60
  | none => 60

theorem Config.rewardCoins_pos (cfg : Config) : 0 < cfg.getReferralRewardCoins := by
  unfold getReferralRewardCoins
  split
  · split <;> omega
  · omega

/-- A call, with the clock when its transaction begins and when it writes.  `failure` is an error of
the database in its writes, which aborts the transaction. -/
structure Request where
  creatorIdRaw : String
  targetAgencyIdRaw : String
  idempotencyKey : Option String
  moveGrantedReferralRewards : Bool
  /-- `some none` is not a date. -/
  assignmentEffectiveFrom : Option (Option ℤ)
  now : ℤ
  pushedAt : ℤ
  failure : Option String

def Request.idem (req : Request) : String := trim (req.idempotencyKey.getD "")

structure Refusal where
  status : ℕ
  error : String

structure TransferData where
  creatorId : String
  creatorUserId : String
  oldAssignedAgencyId : Option String
  newAssignedAgencyId : String
  oldReferredByUserId : Option String
  newReferredByUserId : String
  oldReferralCodeUsed : Option Text
  newReferralCodeUsed : Text
  rewardMoved : Bool
  assignmentEffectiveFrom : ℤ
  moveGrantedReferralRewardsAttempted : Bool
  pendingWithdrawalsReassigned : ℕ

abbrev TransferCreatorToAgencyResult : Type := Except Refusal TransferData

/-! ### Checks -/

/-- How the checks end without a transfer: the callback returns with a result, or throws. -/
inductive Stop
  | returned (r : Refusal)
  | thrown (error : String)

structure Admitted where
  creator : Creator
  user : User
  target : User
  code : Text
  edge : Option ReferralEdge
  effectiveFrom : ℤ

def Admitted.rewardGranted (k : Admitted) : Bool := k.edge.any (·.rewardGranted)

def Admitted.oldReferrer (k : Admitted) : Option String := k.user.referredBy.filter (· ≠ k.target.id)

def effectiveFrom (req : Request) : Except Stop ℤ :=
  match req.assignmentEffectiveFrom with
  | none => .ok req.now
  | some none => .error (.thrown "RangeError: Invalid time value")
  | some (some at') => .ok at'

def require {α : Type} (a : Option α) (status : ℕ) (error : String) : Except Stop α :=
  match a with
  | some a => .ok a
  | none => .error (.returned ⟨status, error⟩)

def findAgency (s : Store) (id : String) : Option User :=
  (s.users.get id).filter fun u => isAgencyRole u.role && !u.agencyDisabled

/-- All checks but those of the previous referrer. -/
def checkTransfer (cfg : Config) (req : Request) (s : Store) : Except Stop Admitted := do
  let creatorId ← require (cfg.objectId (trim req.creatorIdRaw)) 400 "Invalid creator id"
  let targetAgencyId ← require (cfg.objectId (trim req.targetAgencyIdRaw)) 400
    "Invalid targetAgencyId"
  let effectiveFrom ← effectiveFrom req
  let creator ← require (s.creators.get creatorId) 404 "Creator not found"
  let creatorUserId ← require creator.userId 409 "Creator is missing linked userId"
  let target ← require (findAgency s targetAgencyId) 404 "Target agency not found or disabled"
  let code := (target.referralCode.getD []).flatMap upperChar
  let _ ← require (if code = [] then none else some ()) 409
    "Target agency has no referralCode. Run backfill-referral-codes or recreate agency."
  let user ← require (s.users.get creatorUserId) 404 "Creator linked user not found"
  return ⟨creator, user, target, code, s.edges.get creatorUserId, effectiveFrom⟩

def movesFrom (req : Request) (k : Admitted) : Option String :=
  if req.moveGrantedReferralRewards && k.rewardGranted then k.oldReferrer else none

/-- The checks of the previous referrer; a refusal is assigned to the result before the callback
throws. -/
def rewardMoveEligible (cfg : Config) (s : Store) (old : String) : Except Refusal Bool :=
  match s.users.get old with
  | none => .error ⟨404, "Previous referrer not found"⟩
  | some oldRef =>
    if isAgencyRole oldRef.role then
      if oldRef.coins < cfg.getReferralRewardCoins then
        .error ⟨409, "Previous agency has insufficient coin balance to move an already-granted " ++
          "referral reward. Top up or handle manually, then retry."⟩
      else .ok true
    else .ok false

/-! ### Writes -/

def Admitted.newEdge (k : Admitted) : ReferralEdge :=
  match k.edge with
  | some edge => { edge with referrerId := k.target.id, referralCodeUsed := k.code }
  | none => ⟨k.target.id, k.user.id, k.code, false⟩

def Creator.assign (target : String) (c : Creator) : Creator :=
  { c with assignedAgencyId := some target }

theorem Creator.assign_id (target : String) (c : Creator) : (c.assign target).id = c.id := rfl

namespace User

def refer (target : String) (u : User) : User := { u with referredBy := some target }

/-- `$pull` of a user from the referrals. -/
def pull (userId : String) (u : User) : User :=
  { u with referrals := u.referrals.filter fun entry => entry.user ≠ userId }

def push (entry : ReferralEntry) (u : User) : User := { u with referrals := u.referrals ++ [entry] }

def addCoins (coins : ℤ) (u : User) : User := { u with coins := (u.coins + coins).toNat }

theorem refer_id (target : String) (u : User) : (refer target u).id = u.id := rfl

theorem pull_id (userId : String) (u : User) : (pull userId u).id = u.id := rfl

theorem push_id (entry : ReferralEntry) (u : User) : (push entry u).id = u.id := rfl

theorem addCoins_id (coins : ℤ) (u : User) : (addCoins coins u).id = u.id := rfl

end User

def relinkUsers (k : Admitted) (pushedAt : ℤ) (users : Unique User.id) : Unique User.id :=
  let referred := users.update k.user.id (User.refer k.target.id)
  let pulled := match k.user.referredBy with
    | some old => referred.update old (User.pull k.user.id)
    | none => referred
  (pulled.update k.target.id (User.pull k.user.id)).update k.target.id
    (User.push ⟨k.user.id, k.rewardGranted, pushedAt⟩)

/-- All writes but those of the reward. -/
def relink (k : Admitted) (pushedAt : ℤ) (s : Store) : Store where
  users := relinkUsers k pushedAt s.users
  creators := s.creators.update k.creator.id (Creator.assign k.target.id)
  edges := s.edges.put k.newEdge
  withdrawals := s.withdrawals.map fun w =>
    if w.creatorUserId = k.user.id ∧ w.pending then { w with assignedAgencyId := some k.target.id }
    else w
  rows := s.rows

def transferSuffix (req : Request) (creatorUserId old target : String) : String :=
  creatorUserId ++ "_" ++ old ++ "_" ++ target ++ if req.idem = "" then "" else "_" ++ req.idem

def debitTxnId (req : Request) (creatorUserId old target : String) : String :=
  "referral_reward_transfer_out_" ++ transferSuffix req creatorUserId old target

def creditTxnId (req : Request) (creatorUserId old target : String) : String :=
  "referral_reward_transfer_in_" ++ transferSuffix req creatorUserId old target

def movedOut (creatorUserId : String) : String :=
  "Referral reward moved out due to creator transfer (" ++ creatorUserId ++ ")"

def movedIn (creatorUserId : String) : String :=
  "Referral reward moved in due to creator transfer (" ++ creatorUserId ++ ")"

/-- No transfer of the pair has written its rows before. -/
def unwritten (req : Request) (s : Store) (creatorUserId old target : String) : Bool :=
  !s.has (debitTxnId req creatorUserId old target) &&
    !s.has (creditTxnId req creatorUserId old target)

def debitRow (cfg : Config) (req : Request) (creatorUserId old target : String) :
    CoinTransaction where
  transactionId := debitTxnId req creatorUserId old target
  userId := old
  type := .debit
  coins := cfg.getReferralRewardCoins
  source := "referral_reward"
  description := movedOut creatorUserId
  status := .completed

def creditRow (cfg : Config) (req : Request) (creatorUserId old target : String) :
    CoinTransaction where
  transactionId := creditTxnId req creatorUserId old target
  userId := target
  type := .credit
  coins := cfg.getReferralRewardCoins
  source := "referral_reward"
  description := movedIn creatorUserId
  status := .completed

def moveReward (cfg : Config) (req : Request) (creatorUserId old target : String) (s : Store) :
    Store :=
  { s with
    rows := s.rows ++ [debitRow cfg req creatorUserId old target,
      creditRow cfg req creatorUserId old target]
    users := (s.users.update old (User.addCoins (-cfg.getReferralRewardCoins))).update target
      (User.addCoins cfg.getReferralRewardCoins) }

def movingFrom (cfg : Config) (req : Request) (k : Admitted) (s : Store) :
    Except Refusal (Option String) :=
  match movesFrom req k with
  | none => .ok none
  | some old => do
    let eligible ← rewardMoveEligible cfg s old
    return if eligible && unwritten req s k.user.id old k.target.id then some old else none

def transferData (req : Request) (k : Admitted) (rewardMoved : Bool) (s : Store) : TransferData where
  creatorId := k.creator.id
  creatorUserId := k.user.id
  oldAssignedAgencyId := k.creator.assignedAgencyId
  newAssignedAgencyId := k.target.id
  oldReferredByUserId := k.user.referredBy
  newReferredByUserId := k.target.id
  oldReferralCodeUsed := k.edge.map (·.referralCodeUsed)
  newReferralCodeUsed := k.code
  rewardMoved
  assignmentEffectiveFrom := k.effectiveFrom
  moveGrantedReferralRewardsAttempted := req.moveGrantedReferralRewards
  -- the update sets `updatedAt` of each
  pendingWithdrawalsReassigned := s.withdrawals.countP fun w =>
    w.creatorUserId == k.user.id && w.pending

def write (cfg : Config) (req : Request) (k : Admitted) (moved : Option String) (s : Store) : Store :=
  match moved with
  | some old => moveReward cfg req k.user.id old k.target.id (relink k req.pushedAt s)
  | none => relink k req.pushedAt s

def transferCreatorToAgency (cfg : Config) (req : Request) (s : Store) :
    Except String TransferCreatorToAgencyResult × Store :=
  match checkTransfer cfg req s with
  | .error (.returned r) => (.ok (.error r), s)
  | .error (.thrown error) => (.error error, s)
  | .ok k =>
    match req.failure with
    | some error => (.error error, s)
    | none =>
      match movingFrom cfg req k s with
      | .error _ => (.error "ABORT_TX", s)
      | .ok moved =>
        (.ok (.ok (transferData req k moved.isSome s)), write cfg req k moved s)

end VibemeetBackend.Transfer
