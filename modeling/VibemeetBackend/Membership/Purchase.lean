import VibemeetBackend.Membership.Store

/-!
# Purchases of a membership

`vip-purchase-finalization.service.ts` and `moments-premium-purchase-finalization.service.ts`: the
pending row of an order, and its finalization by a verified payment or a webhook.

Both finalizers are `finalizePurchaseAtomically`; the feed caches that the second one clears after its
transaction are left out.
-/

namespace VibemeetBackend.Membership

open Async

structure FinalizeInput where
  orderId : String
  paymentId : String
  priceInr : ℕ
  planId : String
  durationDays : Option ℕ

structure FinalizeResult where
  alreadyProcessed : Bool
  expiresAt : ℤ

def dayMs : ℤ := 24 * 60 * 60 * 1000

def baseExpiry (existing : Option MembershipDoc) (now : ℤ) : ℤ :=
  match existing with
  | some m => if m.activeAt now = true then m.expiresAt else now
  | none => now

def purchasedMembership (p : Product) (input : FinalizeInput) (durationDays : ℕ) (now : ℤ)
    (existing : Option MembershipDoc) : MembershipDoc where
  status := .active
  planId := input.planId
  startedAt := (existing.map MembershipDoc.startedAt).getD now
  expiresAt := baseExpiry existing now + durationDays * dayMs
  lastPurchaseTxnId := p.txnId input.orderId
  razorpayOrderId := input.orderId
  razorpayPaymentId := input.paymentId

def completedRow (p : Product) (input : FinalizeInput) (durationDays : ℕ) : PurchaseRow where
  transactionId := p.txnId input.orderId
  source := p.source
  description := p.paidTitle ++ " (" ++ toString durationDays ++ " days) for ₹" ++
    toString input.priceInr
  paymentGatewayTransactionId := some input.paymentId
  paymentGatewayOrderId := input.orderId
  status := .completed

def settleRow (p : Product) (input : FinalizeInput) (durationDays : ℕ)
    (existingTxn : Option (Queried PurchaseRow)) : Except String (Option RowWrite) :=
  match existingTxn with
  | none => .ok (some (.create (completedRow p input durationDays)))
  | some doc =>
    if doc.fields.status = .pending then
      let updated := { doc.fields with
        status := .completed
        paymentGatewayTransactionId := some input.paymentId }
      match doc.save updated with
      | .ok row => .ok (some (.save row))
      | .error e => .error e
    else .ok none

/-- The callback of the transaction, on the snapshot `s`. -/
def purchase (p : Product) (input : FinalizeInput) (durationDays : ℕ) (now : ℤ)
    (existingTxn : Option (Queried PurchaseRow)) (s : Store) :
    Except String (Option Purchase × FinalizeResult) :=
  match s.user with
  | none => .error "User not found"
  | some user =>
    let membership := purchasedMembership p input durationDays now s.membership
    match settleRow p input durationDays existingTxn with
    | .error e => .error e
    | .ok row => .ok (some ⟨membership, row, user, s.membership⟩, ⟨false, membership.expiresAt⟩)

/-- `finalizeVipPurchaseAtomically` and `finalizeMomentsPremiumPurchaseAtomically`. -/
def finalizePurchaseAtomically (p : Product) (input : FinalizeInput) (attempts : ℕ) :
    MemberFlow FinalizeResult := do
  let (_, s) ← run (.findPlainTransaction (p.txnId input.orderId))
  let existingTxn := (s.row (p.txnId input.orderId)).map Queried.plain
  if existingTxn.any fun doc => decide (doc.fields.status = .completed) then do
    let (_, s) ← run .findMembership
    match s.membership with
    | none => throw p.missing
    | some membership => pure ⟨true, membership.expiresAt⟩
  else do
    let (r, _) ← run (.getPlan input.planId)
    let durationDays := (input.durationDays <|> r.planDays).getD 30
    let now ← clock .purchase
    let result ← Flow.withTransaction transactions (purchase p input durationDays now existingTxn)
      attempts
    tell .delCache
    pure result

def finalizeVipPurchaseAtomically : FinalizeInput → ℕ → MemberFlow FinalizeResult :=
  finalizePurchaseAtomically .vip

def finalizeMomentsPremiumPurchaseAtomically : FinalizeInput → ℕ → MemberFlow FinalizeResult :=
  finalizePurchaseAtomically .momentsPremium

/-- The row that `createPendingVipTransaction` and `createPendingMomentsPremiumTransaction` insert. -/
def pendingRow (p : Product) (orderId : String) (priceInr : ℕ) (planId : String) :
    PurchaseRow where
  transactionId := p.txnId orderId
  source := p.source
  description := p.pendingTitle ++ " (" ++ planId ++ ") for ₹" ++ toString priceInr
  paymentGatewayTransactionId := none
  paymentGatewayOrderId := orderId
  status := .pending

/-- `createPendingVipTransaction` and `createPendingMomentsPremiumTransaction`. -/
def createPendingTransaction (p : Product) (orderId : String) (priceInr : ℕ) (planId : String) :
    MemberFlow Unit := do
  let (_, s) ← run (.findTransaction (p.txnId orderId))
  match s.row (p.txnId orderId) with
  | some _ => pure ()
  | none => do
    let _ ← run (.createTransaction (pendingRow p orderId priceInr planId))
    pure ()

def createPendingVipTransaction : String → ℕ → String → MemberFlow Unit :=
  createPendingTransaction .vip

def createPendingMomentsPremiumTransaction : String → ℕ → String → MemberFlow Unit :=
  createPendingTransaction .momentsPremium

/-! ### What a purchase writes -/

variable {p : Product} {input : FinalizeInput} {durationDays : ℕ} {now : ℤ}
  {existingTxn : Option (Queried PurchaseRow)} {s : Store} {w : Option Purchase}
  {a : FinalizeResult}

/-- **The transaction**: it writes the membership that it computes from the one it reads. -/
theorem purchase_ok (h : purchase p input durationDays now existingTxn s = .ok (w, a)) :
    ∃ user row, s.user = some user ∧ settleRow p input durationDays existingTxn = .ok row ∧
      w = some ⟨purchasedMembership p input durationDays now s.membership, row, user,
        s.membership⟩ := by
  grind [purchase]

theorem settleRow_plain {row : PurchaseRow} (hrow : row.status = .pending) :
    settleRow p input durationDays (some (.plain row)) =
      .error "TypeError: existingTxn.save is not a function" := by
  exact if_pos hrow

theorem purchase_pending {row : PurchaseRow} (hrow : row.status = .pending) :
    purchase p input durationDays now (some (.plain row)) s ≠ .ok (w, a) := by
  intro h
  obtain ⟨user, row', -, hsettle, -⟩ := purchase_ok h
  simp [settleRow_plain hrow] at hsettle

end VibemeetBackend.Membership
