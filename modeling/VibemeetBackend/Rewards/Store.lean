import VibemeetBackend.Async.Transaction
import VibemeetBackend.Mongo.Collection

/-!
# Reward documents

The documents behind the rewards of a user: wallets with the referrals in them, the coin ledger with
its unique index, the progress of the tasks, and the referral edges.  A claim of a once task is kept
as its key; dates, descriptions and counters of followed creators are left out.
-/

namespace VibemeetBackend.Rewards

open Async

/-! ### Documents -/

/-- An entry of `User.referrals`. -/
structure Referral where
  user : String
  rewardGranted : Bool
  deriving DecidableEq

structure User where
  id : String
  role : String
  coins : ℤ
  referredBy : Option String
  referrals : List Referral
  deriving DecidableEq

structure CoinTransaction where
  transactionId : String
  userId : String
  coins : ℤ
  source : String

/-- The rows of `CoinTransaction`, with the unique index on their ids. -/
structure Ledger where
  rows : List CoinTransaction
  unique : (rows.map CoinTransaction.transactionId).Nodup

inductive DailyTask where
  | watchFreeMoments
  | likeMoments

/-- `UserRewardProgress.daily`. -/
structure Daily where
  dateKey : String
  viewedMomentIds : List String
  likedMomentIds : List String
  watchClaimed : Bool
  likeClaimed : Bool
  deriving DecidableEq

def Daily.fresh (dateKey : String) : Daily := ⟨dateKey, [], [], false, false⟩

/-- `daily[dailyFlag]`. -/
def Daily.claimed (d : Daily) : DailyTask → Bool
  | .watchFreeMoments => d.watchClaimed
  | .likeMoments => d.likeClaimed

def Daily.claim (d : Daily) : DailyTask → Daily
  | .watchFreeMoments => { d with watchClaimed := true }
  | .likeMoments => { d with likeClaimed := true }

def Daily.ids (d : Daily) : DailyTask → List String
  | .watchFreeMoments => d.viewedMomentIds
  | .likeMoments => d.likedMomentIds

def Daily.setIds (d : Daily) (ids : List String) : DailyTask → Daily
  | .watchFreeMoments => { d with viewedMomentIds := ids }
  | .likeMoments => { d with likedMomentIds := ids }

/-- A `UserRewardProgress` document; `userId` is unique. -/
structure Progress where
  userId : String
  claimed : List String
  daily : Daily
  deriving DecidableEq

def Progress.fresh (userId : String) : Progress := ⟨userId, [], .fresh ""⟩

structure ReferralEdge where
  referrerId : String
  referredUserId : String
  rewardGranted : Bool

structure Store where
  users : List User
  ledger : Ledger
  progress : List Progress
  edges : List ReferralEdge

namespace Store

variable (s : Store)

def user (id : String) : Option User := s.users.find? fun u => u.id == id

def progressOf (userId : String) : Option Progress := s.progress.find? fun p => p.userId == userId

def edge (referredUserId : String) : Option ReferralEdge :=
  s.edges.find? fun e => e.referredUserId == referredUserId

def coins (userId : String) : Option ℤ := (s.user userId).map fun u => u.coins

end Store

/-! ### The ledger -/

namespace Ledger

def row (l : Ledger) (transactionId : String) : Option CoinTransaction :=
  l.rows.find? fun t => t.transactionId == transactionId

variable {l : Ledger}

theorem row_eq_none {id : String} :
    l.row id = none ↔ id ∉ l.rows.map CoinTransaction.transactionId := by
  simp_all [row]

/-- `CoinTransaction.create`: a duplicate key leaves the collection as it was. -/
def insert (l : Ledger) (t : CoinTransaction) : Ledger :=
  if h : t.transactionId ∈ l.rows.map CoinTransaction.transactionId then l
  else
    { rows := l.rows ++ [t]
      unique := by
        rw [List.map_append, List.map_singleton, List.nodup_append]
        refine ⟨l.unique, List.nodup_singleton _, fun a ha b hb => ?_⟩
        rw [List.mem_singleton] at hb
        rintro rfl
        exact h (hb ▸ ha) }

variable {t : CoinTransaction}

theorem insert_rows (h : l.row t.transactionId = none) : (l.insert t).rows = l.rows ++ [t] := by
  rw [insert, dif_neg (row_eq_none.1 h)]

theorem row_insert (h : l.row t.transactionId = none) (id : String) :
    (l.insert t).row id = if t.transactionId = id then some t else l.row id := by
  rw [row, insert_rows h, List.find?_append, List.find?_singleton]
  by_cases hid : t.transactionId = id
  · subst hid
    have hnone : l.rows.find? (fun t' => t'.transactionId == t.transactionId) = none := h
    simp [hnone]
  · rw [if_neg hid, if_neg (mt beq_iff_eq.1 hid), Option.or_none]
    rfl

theorem mem_of_row {id : String} (h : l.row id = some t) : t ∈ l.rows ∧ t.transactionId = id := by
  have hid := List.find?_some h
  exact ⟨List.mem_of_find?_eq_some h, beq_iff_eq.1 hid⟩

theorem countP_le_one (l : Ledger) (id : String) :
    l.rows.countP (fun t => t.transactionId == id) ≤ 1 := by
  have h := List.nodup_iff_count_le_one.1 l.unique id
  rw [List.count, List.countP_map] at h
  exact h

end Ledger

/-! ### Referrals -/

def User.grantable (u : User) (referredUserId : String) : Bool :=
  u.referrals.any fun r => r.user == referredUserId && !r.rewardGranted

def User.granted (u : User) (referredUserId : String) : Bool :=
  u.referrals.any fun r => r.user == referredUserId && r.rewardGranted

def User.grant (u : User) (referredUserId : String) (inc : ℤ) : User :=
  if u.grantable referredUserId = true then
    { u with
      coins := u.coins + inc
      referrals := u.referrals.map fun r =>
        if r.user = referredUserId then { r with rewardGranted := true } else r }
  else u

theorem grantable_grant (u : User) (referredUserId : String) (inc : ℤ) :
    (u.grant referredUserId inc).grantable referredUserId = false := by
  unfold User.grant
  split
  · rw [User.grantable, List.any_map, List.any_eq_false]
    intro r _
    show ¬ ((if r.user = referredUserId then { r with rewardGranted := true } else r).user ==
      referredUserId && !(if r.user = referredUserId then { r with rewardGranted := true }
        else r).rewardGranted) = true
    split <;> simp_all
  · rename_i hnot
    exact Bool.eq_false_iff.2 hnot

theorem granted_grant {u : User} {referredUserId : String} (inc : ℤ)
    (h : u.grantable referredUserId = true) :
    (u.grant referredUserId inc).granted referredUserId = true := by
  rw [User.grant, if_pos h, User.granted, List.any_map, List.any_eq_true]
  rw [User.grantable, List.any_eq_true] at h
  obtain ⟨r, hr, hgrantable⟩ := h
  rw [Bool.and_eq_true, beq_iff_eq] at hgrantable
  refine ⟨r, hr, ?_⟩
  show ((if r.user = referredUserId then { r with rewardGranted := true } else r).user ==
    referredUserId && (if r.user = referredUserId then { r with rewardGranted := true }
      else r).rewardGranted) = true
  simp [hgrantable.1]

/-! ### A credit -/

structure Credit where
  row : CoinTransaction
  user : User
  oldProgress : Option Progress
  progress : Progress

def Credit.conflicts (c : Credit) (s : Store) : Bool :=
  !(s.user c.row.userId == some c.user && s.progressOf c.row.userId == c.oldProgress &&
    (s.ledger.row c.row.transactionId).isNone)

def Store.updateUser (s : Store) (id : String) (f : User → User) : Store :=
  { s with users := s.users.map fun u => if u.id = id then f u else u }

def Store.updateProgress (s : Store) (userId : String) (f : Progress → Progress) : Store :=
  { s with progress := s.progress.map fun p => if p.userId = userId then f p else p }

def Store.putProgress (s : Store) (p : Progress) : Store :=
  match s.progressOf p.userId with
  | some _ => s.updateProgress p.userId fun _ => p
  | none => { s with progress := s.progress ++ [p] }

def Store.credit (s : Store) (c : Credit) : Store :=
  ({ s.updateUser c.row.userId (fun u => { u with coins := u.coins + c.row.coins }) with
    ledger := s.ledger.insert c.row }).putProgress c.progress

theorem coins_updateUser {s : Store} {f : User → User} (hf : ∀ u, (f u).id = u.id)
    (id userId : String) :
    (s.updateUser id f).coins userId =
      if id = userId then (s.user userId).map fun u => (f u).coins else s.coins userId := by
  rw [Store.coins, Store.user, Store.updateUser, Mongo.find?_update hf, Store.coins, Store.user]
  split
  · rw [Option.map_map]
    rfl
  · rfl

theorem coins_inc (s : Store) (id userId : String) (n : ℤ) :
    (s.updateUser id fun u => { u with coins := u.coins + n }).coins userId =
      (s.coins userId).map fun v => v + if id = userId then n else 0 := by
  have hkeeps : ∀ u : User, User.id { u with coins := u.coins + n } = u.id := fun _ => rfl
  rw [coins_updateUser hkeeps]
  split
  · rw [Store.coins, Option.map_map]
    rfl
  · cases s.coins userId with
    | none => rfl
    | some v => rw [Option.map_some, add_zero]

@[simp] theorem putProgress_users (s : Store) (p : Progress) : (s.putProgress p).users = s.users := by
  unfold Store.putProgress
  split <;> rfl

@[simp] theorem putProgress_ledger (s : Store) (p : Progress) :
    (s.putProgress p).ledger = s.ledger := by
  unfold Store.putProgress
  split <;> rfl

theorem coins_credit (t : Store) (credit : Credit) (userId : String) :
    (t.credit credit).coins userId = (t.coins userId).map fun v =>
      v + if credit.row.userId = userId then credit.row.coins else 0 := by
  have husers : (t.credit credit).users =
      (t.updateUser credit.row.userId fun u => { u with coins := u.coins + credit.row.coins }).users := by
    rw [Store.credit, putProgress_users]
  have hcoins : (t.credit credit).coins userId = (t.updateUser credit.row.userId
      fun u => { u with coins := u.coins + credit.row.coins }).coins userId := by
    rw [Store.coins, Store.user, husers]
    rfl
  rw [hcoins, coins_inc]

end VibemeetBackend.Rewards
