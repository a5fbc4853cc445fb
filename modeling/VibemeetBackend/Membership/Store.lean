import VibemeetBackend.Async.Transaction

/-!
# Memberships of a user

What VIP and moments premium keep about one user, and the commands on it: the membership document,
the denormalized expiry of the `User` document, the purchases in `CoinTransaction`, the Redis key that
caches an active membership, and the time.

The two products have the same code over collections of their own, with other texts.  Dates are
milliseconds; the document ids, the referral hooks and the feed caches are left out.
-/

namespace VibemeetBackend.Membership

open Async

/-! ### Documents -/

/-- `VipMembershipStatus`, `MomentsPremiumMembershipStatus`. -/
inductive Status where
  | active
  | expired
  | cancelled
  deriving DecidableEq

/-- `VipMembership`, `MomentsPremiumMembership`; `userId` is unique. -/
structure MembershipDoc where
  status : Status
  planId : String
  startedAt : ℤ
  expiresAt : ℤ
  lastPurchaseTxnId : String
  razorpayOrderId : String
  razorpayPaymentId : String
  deriving DecidableEq

/-- `membership.status === 'active' && membership.expiresAt.getTime() > now`. -/
def MembershipDoc.activeAt (m : MembershipDoc) (now : ℤ) : Bool :=
  m.status == .active && decide (now < m.expiresAt)

def MembershipDoc.lapsedAt (m : MembershipDoc) (now : ℤ) : Bool :=
  m.status == .active && decide (m.expiresAt ≤ now)

/-- `CoinTransaction.status`. -/
inductive TransactionStatus where
  | completed
  | pending
  | failed
  deriving DecidableEq

/-- A purchase in `CoinTransaction`: a credit of no coins; `transactionId` is unique. -/
structure PurchaseRow where
  transactionId : String
  source : String
  description : String
  paymentGatewayTransactionId : Option String
  paymentGatewayOrderId : String
  status : TransactionStatus

/-- What a query returns: a document, or with `lean()` a plain object. -/
inductive Queried (α : Type) where
  | document (a : α)
  | plain (a : α)

def Queried.fields {α : Type} : Queried α → α
  | .document a => a
  | .plain a => a

/-- `doc.save()` of a document with new fields: a plain object has no methods. -/
def Queried.save {α : Type} (updated : α) : Queried α → Except String α
  | .document _ => .ok updated
  | .plain _ => .error "TypeError: existingTxn.save is not a function"

inductive Product where
  | vip
  | momentsPremium

namespace Product

def txnPrefix : Product → String
  | .vip => "vip_"
  | .momentsPremium => "moments_premium_"

def source : Product → String
  | .vip => "vip_membership"
  | .momentsPremium => "moments_premium_membership"

def paidTitle : Product → String
  | .vip => "VIP membership"
  | .momentsPremium => "Moments Premium"

def pendingTitle : Product → String
  | .vip => "VIP membership purchase"
  | .momentsPremium => "Moments Premium purchase"

def missing : Product → String
  | .vip => "VIP_MEMBERSHIP_MISSING_AFTER_COMPLETED_TXN"
  | .momentsPremium => "MOMENTS_PREMIUM_MEMBERSHIP_MISSING_AFTER_COMPLETED_TXN"

/-- `buildVipTxnId`, `buildTxnId`. -/
def txnId (p : Product) (orderId : String) : String := p.txnPrefix ++ orderId

end Product

structure Store where
  now : ℤ
  /-- The `User` document, as its `vipExpiresAt` or `momentsPremiumExpiresAt`. -/
  user : Option (Option ℤ)
  membership : Option MembershipDoc
  rows : List PurchaseRow
  /-- When the key of the active membership ends. -/
  cache : Option ℤ

namespace Store

variable (s : Store)

def row (transactionId : String) : Option PurchaseRow :=
  s.rows.find? fun t => t.transactionId == transactionId

/-- `redis.get(key) === '1'`. -/
def cached : Bool := s.cache.any fun ends => decide (s.now < ends)

/-- An insert of a row; a duplicate key changes nothing. -/
def insertRow (t : PurchaseRow) : Store :=
  match s.row t.transactionId with
  | some _ => s
  | none => { s with rows := s.rows ++ [t] }

end Store

/-! ### Purchases -/

/-- What a purchase writes to `CoinTransaction`. -/
inductive RowWrite where
  | create (row : PurchaseRow)
  | save (row : PurchaseRow)

structure Purchase where
  membership : MembershipDoc
  row : Option RowWrite
  readUser : Option ℤ
  readMembership : Option MembershipDoc

def RowWrite.duplicate (s : Store) : RowWrite → Bool
  | .create row => (s.row row.transactionId).isSome
  | .save _ => false

def Purchase.conflicts (w : Purchase) (s : Store) : Bool :=
  !(s.user == some w.readUser && s.membership == w.readMembership) ||
    w.row.any (RowWrite.duplicate s)

def RowWrite.apply (rows : List PurchaseRow) : RowWrite → List PurchaseRow
  | .create row => rows ++ [row]
  | .save row => rows.map fun t => if t.transactionId = row.transactionId then row else t

def Store.purchase (s : Store) (w : Purchase) : Store :=
  { s with
    user := some (some w.membership.expiresAt)
    membership := some w.membership
    rows := (w.row.map (RowWrite.apply s.rows)).getD s.rows }

/-! ### Commands -/

structure Perks where
  planId : String
  freeMomentsPerDay : ℕ
  rechargeDiscountBps : ℕ
  momentDiscountBps : ℕ

structure Reply where
  delivered : Bool
  answered : Bool
  /-- A failure with the label `TransientTransactionError`. -/
  transient : Bool
  /-- The `durationDays` of the plan that is asked for, when there is one. -/
  planDays : Option ℕ
  perks : Perks
  /-- `VipDailyMomentUsage.redeemedCount` of today. -/
  redeemed : ℕ

def Reply.ok (r : Reply) : Bool := r.delivered && r.answered

inductive ClockUse where
  | purchase
  | expiry
  /-- Whether it is active. -/
  | active
  /-- How long the cache may say so. -/
  | ttl

inductive Cmd where
  | clock (use : ClockUse)
  /-- `CoinTransaction.findOne`, of a purchase that is to be created. -/
  | findTransaction (transactionId : String)
  /-- `CoinTransaction.findOne(…).lean()`, of a purchase that is to be finalized. -/
  | findPlainTransaction (transactionId : String)
  | findMembership
  | getPlan (planId : String)
  | getPerks
  | getUsage
  | createTransaction (row : PurchaseRow)
  | snapshot
  | commit (w : Option Purchase)
  /-- `updateOne({ _id }, { $set: { status: 'expired' } })`. -/
  | expireMembership
  /-- `User.updateOne` of the denormalized expiry to `null`. -/
  | clearExpiry
  | getCache
  | setCache (ttlSec : ℤ)
  | delCache
  | pass (ms : ℕ)

def Cmd.effect (c : Cmd) (s : Store) : Store :=
  match c with
  | .createTransaction row => s.insertRow row
  | .commit (some w) => if w.conflicts s = true then s else s.purchase w
  | .expireMembership =>
    { s with membership := s.membership.map fun m => { m with status := .expired } }
  | .clearExpiry => { s with user := s.user.map fun _ => none }
  | .setCache ttlSec => { s with cache := some (s.now + ttlSec * 1000) }
  | .delCache => { s with cache := none }
  | _ => s

def Cmd.exec (c : Cmd) (r : Reply) (s : Store) : Store :=
  match c with
  | .pass ms => { s with now := s.now + ms }
  | c => if r.delivered = true then c.effect s else s

abbrev MemberFlow (α : Type) : Type := Flow Cmd Reply Store α

def run (c : Cmd) : MemberFlow (Reply × Store) := Flow.call Reply.ok "MongoServerError" c

/-- A command whose failure is caught and dropped. -/
def tell (c : Cmd) : MemberFlow Unit := do
  let _ ← Flow.issue c
  pure ()

/-- `Date.now()`. -/
def clock (use : ClockUse) : MemberFlow ℤ := do
  let (_, s) ← Flow.issue (.clock use)
  pure s.now

def transactions : Transactions Cmd Reply Store Purchase where
  snapshot := .snapshot
  commit := .commit
  delivered := Reply.delivered
  answered := Reply.answered
  transient := Reply.transient
  conflicts := Purchase.conflicts

/-! ### What a command leaves alone -/

variable {s : Store} {c : Cmd} {r : Reply}

theorem exec_cases (c : Cmd) (r : Reply) (s : Store) :
    (∃ ms, c = .pass ms ∧ c.exec r s = { s with now := s.now + ms }) ∨
      c.exec r s = s ∨ c.exec r s = c.effect s := by
  unfold Cmd.exec
  split
  · exact .inl ⟨_, rfl, rfl⟩
  · split
    · exact .inr (.inr rfl)
    · exact .inr (.inl rfl)

variable (t : PurchaseRow)

@[simp] theorem insertRow_membership : (s.insertRow t).membership = s.membership := by
  unfold Store.insertRow
  split <;> rfl

@[simp] theorem insertRow_user : (s.insertRow t).user = s.user := by
  unfold Store.insertRow
  split <;> rfl

@[simp] theorem insertRow_cache : (s.insertRow t).cache = s.cache := by
  unfold Store.insertRow
  split <;> rfl

@[simp] theorem insertRow_now : (s.insertRow t).now = s.now := by
  unfold Store.insertRow
  split <;> rfl

theorem conflicts_eq_false {w : Purchase} (h : w.conflicts s = false) :
    s.user = some w.readUser ∧ s.membership = w.readMembership := by
  rw [Purchase.conflicts, Bool.or_eq_false_iff, Bool.not_eq_false', Bool.and_eq_true, beq_iff_eq,
    beq_iff_eq] at h
  exact h.1

end VibemeetBackend.Membership
