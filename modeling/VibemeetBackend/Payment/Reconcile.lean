import VibemeetBackend.Async.Flow
import VibemeetBackend.Async.Pool
import VibemeetBackend.Billing.Session
import VibemeetBackend.Payment.Finalization

/-!
# Payment commands and `reconcileCapturedWalletPayment`

The commands a payment request issues to its stores and to the payment provider, what each of them
does to the stores (`exec`), and the self-healing credit of
`payment/wallet-payment-reconcile.service.ts`.

A `Reply` is the environment's answer.  A command that was not `delivered` did nothing; one that
was delivered but not `answered` took effect and still looks failed to its caller.
-/

namespace VibemeetBackend.Payment

open Async Flow
open Billing (trim)

/-! ### Provider answers -/

/-- Notes of a payment or order after `noteStr`: absent, null and blank notes are `none`.  A numeric
note is the whole number `Number` reads, or `some none` when it reads no finite number. -/
structure RazorpayNotes where
  productType : Option String
  packageId : Option String
  userId : Option String
  firebaseUid : Option String
  coins : Option (Option ℤ)
  bonusCoins : Option (Option ℤ)
  priceInr : Option (Option ℚ)

def RazorpayNotes.empty : RazorpayNotes := ⟨none, none, none, none, none, none, none⟩

/-- `{ ...order, ...payment }`: a note of the payment wins. -/
def RazorpayNotes.merge (order payment : RazorpayNotes) : RazorpayNotes where
  productType := payment.productType <|> order.productType
  packageId := payment.packageId <|> order.packageId
  userId := payment.userId <|> order.userId
  firebaseUid := payment.firebaseUid <|> order.firebaseUid
  coins := payment.coins <|> order.coins
  bonusCoins := payment.bonusCoins <|> order.bonusCoins
  priceInr := payment.priceInr <|> order.priceInr

structure RazorpayPayment where
  orderId : String
  status : String
  notes : RazorpayNotes
  contact : Option String
  email : Option String

structure RazorpayOrder where
  notes : RazorpayNotes
  receipt : Option String
  amount : Option ℤ

structure Reply where
  delivered : Bool
  answered : Bool
  pick : ℕ
  payment : Option RazorpayPayment
  order : RazorpayOrder

/-- A caller sees a failed call unless the command was delivered and its answer came back. -/
def Reply.ok (r : Reply) : Bool := r.delivered && r.answered

/-! ### Commands -/

inductive Cmd where
  | query
  /-- Fetch the payment and the order from the provider. -/
  | fetchProvider (orderId paymentId : String)
  | recordCheckoutResult (checkoutId : Option String) (status : CheckoutStatus)
  /-- The update of the invalid-signature branch. -/
  | markFailed (orderId : String)
  /-- `CoinTransaction.create`. -/
  | createTransaction (t : CoinTx)
  | finalize (orderId paymentId : String) (expectedUserId : Option String)
  | claimEvent (eventDocId : String) (now : ℤ)
  | updateEvent (eventDocId : String) (status : WebhookStatus) (failureReason : Option String)
    (nextRetryAt : Option ℤ)

/-- `findOneAndUpdate({ $or: selectors }, { status: 'failed' })`. -/
def markFailed (pick : ℕ) (orderId : String) (l : Ledger) : Ledger :=
  match findOne pick (orderSelectors orderId) l.txs with
  | none => l
  | some t => l.setRow t.transactionId (fun t => { t with status := .failed }) fun _ => rfl

def PaymentWebhookEvent.claimable (now : ℤ) (e : PaymentWebhookEvent) : Bool :=
  (e.status == .received || e.status == .failed) &&
    match e.nextRetryAt with
    | none => true
    | some t => t ≤ now

def claimEvent (eventDocId : String) (now : ℤ) (events : List PaymentWebhookEvent) :
    List PaymentWebhookEvent :=
  events.map fun e =>
    if e.id = eventDocId ∧ e.claimable now = true then
      { e with status := .processing, attemptCount := e.attemptCount + 1 }
    else e

def updateEvent (eventDocId : String) (status : WebhookStatus) (failureReason : Option String)
    (nextRetryAt : Option ℤ) (events : List PaymentWebhookEvent) : List PaymentWebhookEvent :=
  events.map fun e =>
    if e.id = eventDocId then { e with status, failureReason, nextRetryAt } else e

def exec (c : Cmd) (r : Reply) (s : Store) : Store :=
  if r.delivered = false then s
  else
    match c with
    | .query => s
    | .fetchProvider _ _ => s
    | .recordCheckoutResult none _ => s
    | .recordCheckoutResult (some id) status =>
      { s with checkouts :=
          s.checkouts.map fun x => if x.checkoutId = id then { x with status } else x }
    | .markFailed orderId => { s with ledger := markFailed r.pick orderId s.ledger }
    | .createTransaction t => { s with ledger := s.ledger.insert t }
    | .finalize orderId paymentId expectedUserId =>
      match finalizePaymentAtomically r.pick orderId paymentId expectedUserId s with
      | .ok (_, s') => s'
      | .error _ => s
    | .claimEvent id now => { s with events := claimEvent id now s.events }
    | .updateEvent id status reason next =>
      { s with events := updateEvent id status reason next s.events }

abbrev PaymentFlow (α : Type) : Type := Flow Cmd Reply Store α

def run (c : Cmd) : PaymentFlow (Reply × Store) := call Reply.ok "NETWORK_ERROR" c

/-- `await finalizePaymentAtomically(…)`. -/
def finalize (orderId paymentId : String) (expectedUserId : Option String) :
    PaymentFlow FinalizePaymentResult := do
  let (r, s) ← run (.finalize orderId paymentId expectedUserId)
  match finalizePaymentAtomically r.pick orderId paymentId expectedUserId s with
  | .ok (result, _) => pure result
  | .error e => throw e

/-- The environment of the controller. -/
structure PaymentConfig where
  mockPaymentProvider : Bool := false
  paymentWebhookMaxRetries : ℕ := 6
  paymentWebhookRetryBaseMs : ℤ := 2000
  maxRetries_pos : 1 ≤ paymentWebhookMaxRetries := by decide
  retryBaseMs_ge : 500 ≤ paymentWebhookRetryBaseMs := by decide

/-- `verifyProviderPaymentCaptured` and `fetchCapturedPaymentAndOrder`; the mock provider returns no
order and no notes. -/
def fetchCaptured (cfg : PaymentConfig) (orderId paymentId : String) :
    PaymentFlow (RazorpayPayment × Option RazorpayOrder) := do
  if cfg.mockPaymentProvider then
    pure ({ orderId, status := "captured", notes := .empty, contact := none, email := none }, none)
  else
    let (r, _) ← run (.fetchProvider orderId paymentId)
    match r.payment with
    | none => throw "PAYMENT_ORDER_MISMATCH"
    | some payment =>
      if payment.orderId ≠ orderId then throw "PAYMENT_ORDER_MISMATCH"
      else if payment.status ≠ "captured" then throw ("PAYMENT_NOT_CAPTURED:" ++ payment.status)
      else pure (payment, some r.order)

/-! ### `wallet-payment-reconcile.service.ts` -/

def isWalletProductNotes (notes : RazorpayNotes) (receipt : Option String) : Bool :=
  if notes.productType = some "vip_membership" ∨
      notes.productType = some "moments_premium_membership" then false
  else if notes.coins.isSome ∨ notes.packageId.isSome then true
  else
    match receipt with
    | some r => r.startsWith "web_c_" || r.startsWith "coins_"
    | none => false

def phoneVariants (phone : String) : List String :=
  let digits := phone.toList.filter Char.isDigit
  let last10 := digits.drop (digits.length - 10)
  let out := [phone, String.ofList digits, "+" ++ String.ofList digits, String.ofList last10]
  let out := if last10.length = 10 then
    out ++ ["+91" ++ String.ofList last10, "91" ++ String.ofList last10] else out
  out.filter (· ≠ "")

/-- `s.includes(sub)`. -/
def includes (s sub : String) : Bool := s.toList.tails.any fun t => sub.toList.isPrefixOf t

/-- `find(…).limit(2)` accepted only when it finds exactly one user. -/
def soleUser (p : User → Bool) (users : List User) : Option User :=
  match users.filter p with
  | [user] => some user
  | _ => none

def resolveWalletUser (notes : RazorpayNotes) (contact email : Option String) (users : List User) :
    Option User :=
  (notes.userId.bind fun id => users.find? fun u => u.id == id) <|>
  (notes.firebaseUid.bind fun uid => users.find? fun u => u.firebaseUid == uid) <|>
  (contact.bind fun c =>
    soleUser (fun u => u.phone.any fun p => (phoneVariants c).contains p) users) <|>
  (email.bind fun e =>
    if includes e.toLower "void@razorpay" then none
    else soleUser (fun u => u.email == some (trim e).toLower) users)

/-- `ensurePendingCoinTransaction`; a duplicate key means that another request created the row. -/
def ensurePendingCoinTransaction (userId orderId : String) (coins : ℕ) : PaymentFlow Unit := do
  let (r, s) ← run .query
  match findOne r.pick (orderSelectors orderId) s.ledger.txs with
  | some _ => pure ()
  | none => do
    let _ ← run (.createTransaction
      { transactionId := buildPendingTransactionId orderId
        userId, coins
        source := .paymentGateway
        paymentGatewayTransactionId := some orderId
        paymentGatewayOrderId := some orderId
        status := .pending })
    pure ()

def createPendingBonusCoinTransaction (userId orderId : String) (bonusCoins : ℕ) :
    PaymentFlow Unit := do
  if bonusCoins = 0 then pure ()
  else
    let (_, s) ← run .query
    let transactionId := buildPendingBonusTransactionId orderId
    if (s.ledger.row transactionId).isSome then pure ()
    else
      let (_, s') ← run (.createTransaction
        { transactionId
          userId
          coins := bonusCoins
          source := .rechargeBonus
          paymentGatewayTransactionId := none
          paymentGatewayOrderId := some orderId
          status := .pending })
      if (s'.ledger.row transactionId).isSome then throw "E11000" else pure ()

inductive WalletReconcileOutcome where
  | credited
  | alreadyCompleted
  | skipped
  | failed
  deriving DecidableEq

structure WalletReconcileResult where
  outcome : WalletReconcileOutcome
  reason : Option String
  coinsAdded : Option ℕ
  updatedUserCoins : Option ℤ
  finalizeStatus : Option FinalizeStatus

def WalletReconcileResult.of (outcome : WalletReconcileOutcome) (reason : String) :
    WalletReconcileResult :=
  ⟨outcome, some reason, none, none, none⟩

def mainExisting (orderId paymentId : String) : PaymentFlow (Option CoinTx) := do
  let (_, s) ← run .query
  let existingTx := s.ledger.txs.find? fun t =>
    (t.paymentGatewayTransactionId == some paymentId || orderSelectors orderId t) &&
      (t.source == .paymentGateway || t.source == .rechargeBonus)
  match existingTx with
  | none => pure none
  | some t =>
    if t.source = .paymentGateway then pure (some t)
    else
      let (r, s') ← run .query
      pure (findOne r.pick (fun t => orderSelectors orderId t && t.source == .paymentGateway)
        s'.ledger.txs)

/-- The bonus row of the notes, when they name a positive finite bonus. -/
def ensureNotedBonus (userId orderId : String) (bonusCoins : Option (Option ℤ)) :
    PaymentFlow Unit :=
  match bonusCoins.join with
  | some b => createPendingBonusCoinTransaction userId orderId b.toNat
  | none => pure ()

/-- The credit of a reconcile once the user is known: pending row, bonus row, finalization. -/
def creditResolvedUser (orderId paymentId : String) (user : User) (coins : ℕ)
    (bonusCoins : Option (Option ℤ)) : PaymentFlow WalletReconcileResult := do
  ensurePendingCoinTransaction user.id orderId coins
  ensureNotedBonus user.id orderId bonusCoins
  let result ← finalize orderId paymentId (some user.id)
  pure
    { outcome := if result.status = .completed then .credited else .alreadyCompleted
      reason := none
      coinsAdded := some result.coinsAdded
      updatedUserCoins := some result.updatedUserCoins
      finalizeStatus := some result.status }

def reconcileChecked (orderId paymentId : String) (expectedUserId : Option String)
    (payment : RazorpayPayment) (notes : RazorpayNotes) (coins : ℕ) :
    PaymentFlow WalletReconcileResult := do
  let main ← mainExisting orderId paymentId
  if (main.map CoinTx.status) = some .completed then
    pure (.of .alreadyCompleted "already_completed")
  else
    let (_, s) ← run .query
    match resolveWalletUser notes payment.contact payment.email s.users with
    | none => do
      let (_, s') ← run .query
      if s'.checkouts.any fun x => x.orderId == some orderId && x.status == .success then
        pure (.of .skipped "user_deleted_after_credit")
      else pure (.of .skipped "user_not_found")
    | some user =>
      if ∃ e, expectedUserId = some e ∧ e ≠ "" ∧ user.id ≠ e then
        pure (.of .failed "TRANSACTION_USER_MISMATCH")
      else creditResolvedUser orderId paymentId user coins notes.bonusCoins

def reconcileCapturedWalletPayment (cfg : PaymentConfig) (orderId paymentId : String)
    (expectedUserId : Option String) : PaymentFlow WalletReconcileResult :=
  tryCatch
    (do
      let (payment, order) ← fetchCaptured cfg orderId paymentId
      let notes := (order.elim .empty RazorpayOrder.notes).merge payment.notes
      let amount := order.bind RazorpayOrder.amount
      if isWalletProductNotes notes (order.bind RazorpayOrder.receipt) = false then
        pure (.of .skipped "not_wallet_product")
      else
        match notes.coins.join with
        | none => pure (.of .skipped "notes_missing_coins")
        | some coins =>
          if coins ≤ 0 then pure (.of .skipped "notes_missing_coins")
          else
            let priceInr : Option ℚ := match notes.priceInr with
              | some p => p
              | none => amount.map fun a => (a : ℚ) / 100
            match priceInr with
            | none => pure (.of .skipped "notes_missing_price")
            | some priceInr =>
              if priceInr ≤ 0 then pure (.of .skipped "notes_missing_price")
              else if amount.any fun a => mathRound (priceInr * 100) ≠ a then
                pure (.of .skipped "amount_mismatch")
              else reconcileChecked orderId paymentId expectedUserId payment notes coins.toNat)
    fun reason => pure (.of .failed reason)

/-! ### What a reconcile can issue -/

/-- The commands that requests for the order `o` issue: whatever they write belongs to `o`. -/
def OfOrder (o : String) : Cmd → Prop
  | .markFailed orderId => orderId = o
  | .finalize orderId _ _ => orderId = o
  | .createTransaction t =>
    t.transactionId = buildPendingTransactionId o ∨
      t.transactionId = buildPendingBonusTransactionId o
  | _ => True

/-- The commands of a payment of the order `o`: those that are about no stored event. -/
def OfPayment (o : String) : Cmd → Prop
  | .claimEvent .. | .updateEvent .. => False
  | c => OfOrder o c

theorem OfPayment.ofOrder {o : String} {c : Cmd} (h : OfPayment o c) : OfOrder o c := by
  cases c with
  | claimEvent | updateEvent => trivial
  | _ => exact h

variable {I : Store → Prop} {o : String}

variable (paymentId : String)

theorem finalize_issues (e : Option String) : (finalize o paymentId e).Issues I (OfPayment o) := by
  refine issues_call_bind rfl fun r s _ => ?_
  dsimp only
  split <;> simp

theorem fetchCaptured_issues (cfg : PaymentConfig) (orderId paymentId : String) :
    (fetchCaptured cfg orderId paymentId).Issues I (OfPayment o) := by
  unfold fetchCaptured
  split
  · exact issues_pure _
  · refine issues_call_bind trivial fun r s _ => ?_
    dsimp only
    split <;> simp

theorem ensurePending_issues (userId : String) (coins : ℕ) :
    (ensurePendingCoinTransaction userId o coins).Issues I (OfPayment o) := by
  refine issues_call_bind trivial fun r s _ => ?_
  dsimp only
  split <;> simp [OfPayment, run, OfOrder]

theorem createPendingBonus_issues (userId : String) (bonusCoins : ℕ) :
    (createPendingBonusCoinTransaction userId o bonusCoins).Issues I (OfPayment o) := by
  simp [createPendingBonusCoinTransaction, OfPayment, OfOrder, run]

theorem creditResolvedUser_issues (user : User) (coins : ℕ) (bonus : Option (Option ℤ)) :
    (creditResolvedUser o paymentId user coins bonus).Issues I (OfPayment o) := by
  refine issues_bind (ensurePending_issues _ _) fun _ => ?_
  refine issues_bind ?_ fun _ => ?_
  · unfold ensureNotedBonus
    split
    · exact createPendingBonus_issues _ _
    · exact issues_pure _
  · exact issues_bind (finalize_issues _ _) fun _ => issues_pure _

theorem mainExisting_issues (orderId paymentId : String) :
    (mainExisting orderId paymentId).Issues I (OfPayment o) := by
  refine issues_call_bind trivial fun r s _ => ?_
  dsimp only
  split <;> simp [OfPayment, run, OfOrder]

theorem reconcileChecked_issues (e : Option String) (payment : RazorpayPayment)
    (notes : RazorpayNotes) (coins : ℕ) :
    (reconcileChecked o paymentId e payment notes coins).Issues I (OfPayment o) := by
  refine issues_bind (mainExisting_issues _ _) fun main => ?_
  split
  · exact issues_pure _
  · refine issues_call_bind trivial fun r s _ => ?_
    dsimp only
    split
    · refine issues_call_bind trivial fun _ _ _ => ?_
      split
      · exact issues_pure _
      · exact issues_pure _
    · split
      · exact issues_pure _
      · exact creditResolvedUser_issues _ _ _ _

theorem reconcile_issues (cfg : PaymentConfig) (paymentId : String) (e : Option String) :
    (reconcileCapturedWalletPayment cfg o paymentId e).Issues I (OfPayment o) := by
  refine issues_tryCatch ?_ fun _ => issues_pure _
  refine issues_bind (fetchCaptured_issues _ _ _) fun a => ?_
  obtain ⟨payment, order⟩ := a
  dsimp only
  split
  · exact issues_pure _
  · split
    · exact issues_pure _
    · split
      · exact issues_pure _
      · split
        · exact issues_pure _
        · split
          · exact issues_pure _
          · split
            · exact issues_pure _
            · exact reconcileChecked_issues _ _ _ _ _

end VibemeetBackend.Payment
