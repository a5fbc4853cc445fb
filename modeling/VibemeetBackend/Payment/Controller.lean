import VibemeetBackend.Payment.Reconcile

/-!
# `payment.controller.ts`: verification and webhook processing

The two entry points of a captured payment besides the reconcile.  `verifyWebPayment` returns the
HTTP status it answers with; its signature check and its checkout token are inputs of the request,
since any holder of a checkout token may call it with any order and signature.
-/

namespace VibemeetBackend.Payment

open Async Flow

/-! ### `verifyWebPayment` -/

structure CheckoutSession where
  firebaseUid : String
  userId : String
  checkoutId : Option String

/-- A verify request for an order.  `session` is what the checkout token decodes to, `signatureOk`
what `verifyClientSignature` returns, `none` when it throws. -/
structure VerifyRequest where
  hasCheckoutToken : Bool
  hasRequiredFields : Bool
  paymentId : String
  session : Option CheckoutSession
  signatureOk : Option Bool

def verified (session : CheckoutSession) : PaymentFlow ℕ := do
  let _ ← run (.recordCheckoutResult session.checkoutId .success)
  pure 200

def healed (r : WalletReconcileResult) : Bool :=
  r.outcome == .credited || r.outcome == .alreadyCompleted

def verifyTransaction (cfg : PaymentConfig) (orderId paymentId : String) (session : CheckoutSession)
    (user : User) (order : Option RazorpayOrder) (transaction : CoinTx) : PaymentFlow ℕ := do
  if transaction.userId ≠ user.id then pure 403
  else if (order.bind fun x => x.notes.coins).any fun c => c ≠ some (transaction.coins : ℤ) then
    pure 400
  else
    match ← attempt (finalize orderId paymentId (some user.id)) with
    | .ok _ => verified session
    | .error message =>
      if message = "TRANSACTION_NOT_FOUND" then do
        let r ← reconcileCapturedWalletPayment cfg orderId paymentId (some user.id)
        if healed r then verified session else pure 404
      else if message = "TRANSACTION_USER_MISMATCH" then pure 403
      else pure 500

def verifyCaptured (cfg : PaymentConfig) (orderId paymentId : String) (session : CheckoutSession)
    (user : User) : PaymentFlow ℕ := do
  match ← attempt (fetchCaptured cfg orderId paymentId) with
  | .error message => pure (if message = "PAYMENT_ORDER_MISMATCH" then 400 else 202)
  | .ok (_, order) =>
    if (order.bind fun x => x.notes.userId).any fun id => id ≠ user.id then pure 403
    else do
      let (r, s) ← run .query
      match findOne r.pick (orderSelectors orderId) s.ledger.txs with
      | some transaction => verifyTransaction cfg orderId paymentId session user order transaction
      | none => do
        let result ← reconcileCapturedWalletPayment cfg orderId paymentId (some user.id)
        if healed result = false then pure 404
        else do
          let (r', s') ← run .query
          match findOne r'.pick (orderSelectors orderId) s'.ledger.txs with
          | none => pure 404
          | some transaction =>
            verifyTransaction cfg orderId paymentId session user order transaction

/-- The invalid-signature branch: the update names the order only, neither its owner nor the status
it may change. -/
def rejectSignature (orderId : String) (session : CheckoutSession) : PaymentFlow ℕ := do
  let _ ← run (.recordCheckoutResult session.checkoutId .failed)
  let _ ← run (.markFailed orderId)
  pure 400

def verifyBody (cfg : PaymentConfig) (orderId : String) (q : VerifyRequest) : PaymentFlow ℕ := do
  if q.hasCheckoutToken = false then pure 400
  else if q.hasRequiredFields = false then pure 400
  else
    match q.session with
    | none => pure 401
    | some session => do
      let (_, s) ← run .query
      match s.users.find? fun u => u.firebaseUid == session.firebaseUid with
      | none => pure 403
      | some user =>
        if user.id ≠ session.userId ∨ user.role ≠ "user" then pure 403
        else
          match q.signatureOk with
          | none => pure 500
          | some false => rejectSignature orderId session
          | some true => verifyCaptured cfg orderId q.paymentId session user

/-- `POST /payment/web/verify`. -/
def verifyWebPayment (cfg : PaymentConfig) (orderId : String) (q : VerifyRequest) : PaymentFlow ℕ :=
  tryCatch (verifyBody cfg orderId q) fun _ => pure 500

/-! ### `processStoredRazorpayWebhookEvent` -/

def isRetriableWebhookFailure (message : String) : Bool :=
  if message = "" then true
  else if message.startsWith "PAYMENT_ORDER_MISMATCH" then false
  else if message.startsWith "TRANSACTION_USER_MISMATCH" then false
  else if message = "user_not_found" ∨ message = "user_deleted_after_credit" then false
  else if message = "notes_missing_coins" ∨ message = "notes_missing_price" then false
  else if message = "not_wallet_product" ∨ message = "amount_mismatch" then false
  else true

def computeNextRetryAt (cfg : PaymentConfig) (now : ℤ) (attemptCount : ℕ) : ℤ :=
  now + min 60000 (cfg.paymentWebhookRetryBaseMs * 2 ^ (attemptCount - 1))

inductive WebhookOutcome where
  | processed
  | ignored
  | alreadyProcessed
  | failed
  | retryableFailed
  deriving DecidableEq

def webhookCredit (cfg : PaymentConfig) (orderId paymentId : String) : PaymentFlow Unit := do
  let _ ← fetchCaptured cfg orderId paymentId
  match ← attempt (finalize orderId paymentId none) with
  | .ok _ => pure ()
  | .error message =>
    if message.startsWith "TRANSACTION_NOT_FOUND" then do
      let r ← reconcileCapturedWalletPayment cfg orderId paymentId none
      -- a user deleted after the credit ends the retries as well
      if healed r || r.reason == some "user_deleted_after_credit" then pure ()
      else throw (r.reason.getD "TRANSACTION_NOT_FOUND")
    else throw message

/-- The event as it was before the claim, which adds one to `attemptCount`. -/
def processClaimed (cfg : PaymentConfig) (now : ℤ) (claimed : PaymentWebhookEvent) :
    PaymentFlow WebhookOutcome := do
  let orderId := claimed.orderId.getD ""
  let paymentId := claimed.paymentId.getD ""
  if paymentId = "" ∨ orderId = "" then do
    let _ ← run (.updateEvent claimed.id .failed (some "missing_payment_or_order_id") none)
    pure .failed
  else if claimed.eventType ≠ "payment.captured" ∧ claimed.eventType ≠ "order.paid" then do
    let _ ← run (.updateEvent claimed.id .processed none none)
    pure .ignored
  else
    tryCatch
      (do
        webhookCredit cfg orderId paymentId
        let _ ← run (.updateEvent claimed.id .processed none none)
        pure .processed)
      fun failureReason => do
        let retriable := decide (claimed.attemptCount + 1 < cfg.paymentWebhookMaxRetries) &&
          isRetriableWebhookFailure failureReason
        let next := if retriable then some (computeNextRetryAt cfg now (claimed.attemptCount + 1))
          else none
        let _ ← run (.updateEvent claimed.id .failed (some failureReason) next)
        pure (if retriable then .retryableFailed else .failed)

def processStoredRazorpayWebhookEvent (cfg : PaymentConfig) (eventDocId : String) (now : ℤ) :
    PaymentFlow WebhookOutcome := do
  let (_, s) ← run (.claimEvent eventDocId now)
  match s.events.find? fun e => e.id == eventDocId && e.claimable now with
  | none => do
    let (_, s') ← run .query
    if (s'.events.find? fun e => e.id == eventDocId).any fun e => e.status == .processed then
      pure .alreadyProcessed
    else pure .ignored
  | some claimed => processClaimed cfg now claimed

/-! ### The requests for one order -/

/-- What may happen to an order: the verify requests of any checkout session, the processing of
stored webhook events and reconciles from the webhook, the sweep or the command line. -/
inductive Request where
  | verify (q : VerifyRequest)
  | webhook (eventDocId : String) (now : ℤ)
  | reconcile (paymentId : String) (expectedUserId : Option String)

/-- A request as a process: its answer goes to the client. -/
def spawned {α : Type} (p : PaymentFlow α) : Prog Cmd Reply Store Unit :=
  p.run >>= fun _ => .ret ()

def program (cfg : PaymentConfig) (o : String) : Request → Prog Cmd Reply Store Unit
  | .verify q => spawned (verifyWebPayment cfg o q)
  | .webhook eventDocId now => spawned (processStoredRazorpayWebhookEvent cfg eventDocId now)
  | .reconcile paymentId expectedUserId =>
    spawned (reconcileCapturedWalletPayment cfg o paymentId expectedUserId)

/-! ### What the requests can issue -/

/-- Every stored webhook event that names an order names `o`. -/
def EventsOf (o : String) (s : Store) : Prop :=
  ∀ e ∈ s.events, e.orderId.getD "" = "" ∨ e.orderId.getD "" = o

variable {o : String} {I : Store → Prop}

theorem verified_issues (session : CheckoutSession) :
    (verified session).Issues I (OfPayment o) :=
  issues_call_bind trivial fun _ _ _ => issues_pure _

variable (cfg : PaymentConfig)

theorem verifyTransaction_issues (paymentId : String) (session : CheckoutSession) (user : User)
    (order : Option RazorpayOrder) (t : CoinTx) :
    (verifyTransaction cfg o paymentId session user order t).Issues I (OfPayment o) := by
  unfold verifyTransaction
  split
  · exact issues_pure _
  · split
    · exact issues_pure _
    · refine issues_bind (issues_attempt (finalize_issues _ _)) fun x => ?_
      split
      · exact verified_issues session
      · split
        · refine issues_bind (reconcile_issues _ _ _) fun r => ?_
          split
          · exact verified_issues session
          · exact issues_pure _
        · split
          · exact issues_pure _
          · exact issues_pure _

theorem verifyCaptured_issues (paymentId : String) (session : CheckoutSession) (user : User) :
    (verifyCaptured cfg o paymentId session user).Issues I (OfPayment o) := by
  refine issues_bind (issues_attempt (fetchCaptured_issues _ _ _)) fun x => ?_
  split
  · exact issues_pure _
  · split
    · exact issues_pure _
    · refine issues_call_bind trivial fun r s _ => ?_
      dsimp only
      split
      · exact verifyTransaction_issues _ _ _ _ _ _
      · refine issues_bind (reconcile_issues _ _ _) fun result => ?_
        split
        · exact issues_pure _
        · refine issues_call_bind trivial fun r' s' _ => ?_
          split
          · exact issues_pure _
          · exact verifyTransaction_issues _ _ _ _ _ _

theorem rejectSignature_issues (session : CheckoutSession) :
    (rejectSignature o session).Issues I (OfPayment o) := by
  simp [OfPayment, OfOrder, run, rejectSignature]

theorem verify_issues (q : VerifyRequest) : (verifyWebPayment cfg o q).Issues I (OfPayment o) := by
  refine issues_tryCatch ?_ fun _ => issues_pure _
  unfold verifyBody
  split
  · exact issues_pure _
  · split
    · exact issues_pure _
    · split
      · exact issues_pure _
      · refine issues_call_bind trivial fun r s _ => ?_
        dsimp only
        split
        · exact issues_pure _
        · split
          · exact issues_pure _
          · split
            · exact issues_pure _
            · exact rejectSignature_issues _
            · exact verifyCaptured_issues _ _ _ _

theorem webhookCredit_issues (paymentId : String) :
    (webhookCredit cfg o paymentId).Issues I (OfPayment o) := by
  refine issues_bind (fetchCaptured_issues _ _ _) fun _ => ?_
  refine issues_bind (issues_attempt (finalize_issues _ _)) fun x => ?_
  split
  · exact issues_pure _
  · split
    · refine issues_bind (reconcile_issues _ _ _) fun r => ?_
      split
      · exact issues_pure _
      · exact issues_throw _
    · exact issues_throw _

theorem ofOrder_issues {α : Type} {p : PaymentFlow α} (hp : p.Issues I (OfPayment o)) :
    p.Issues I (OfOrder o) := Issues.mono hp fun _ => OfPayment.ofOrder

theorem processClaimed_issues (now : ℤ) {e : PaymentWebhookEvent}
    (he : e.orderId.getD "" = "" ∨ e.orderId.getD "" = o) :
    (processClaimed cfg now e).Issues I (OfOrder o) := by
  unfold processClaimed
  dsimp only
  split
  · exact issues_call_bind trivial fun _ _ _ => issues_pure _
  · rename_i hids
    have ho : e.orderId.getD "" = o := he.resolve_left fun h => hids (.inr h)
    split
    · exact issues_call_bind trivial fun _ _ _ => issues_pure _
    · refine issues_tryCatch ?_ fun _ => ?_
      · rw [ho]
        refine issues_bind (ofOrder_issues (webhookCredit_issues _ _)) fun _ => ?_
        exact issues_call_bind trivial fun _ _ _ => issues_pure _
      · exact issues_call_bind trivial fun _ _ _ => issues_pure _

theorem processStored_issues (eventDocId : String) (now : ℤ) :
    (processStoredRazorpayWebhookEvent cfg eventDocId now).Issues (EventsOf o) (OfOrder o) := by
  refine issues_call_bind trivial fun r s hs => ?_
  dsimp only
  split
  · refine issues_call_bind trivial fun _ s' _ => ?_
    split
    · exact issues_pure _
    · exact issues_pure _
  · rename_i claimed hfind
    exact processClaimed_issues cfg now (hs claimed (List.mem_of_find?_eq_some hfind))

/-- **Every request for `o` writes rows of `o` only**, as long as the stored events are `o`'s. -/
theorem program_issues (o : String) (q : Request) :
    (program cfg o q).Issues (EventsOf o) (OfOrder o) := by
  cases q with
  | verify q => exact Prog.issues_bind (ofOrder_issues (verify_issues cfg q)) fun _ => trivial
  | webhook id now => exact Prog.issues_bind (processStored_issues cfg id now) fun _ => trivial
  | reconcile p e =>
    exact Prog.issues_bind (ofOrder_issues (reconcile_issues cfg p e)) fun _ => trivial

theorem exec_eventsOf (c : Cmd) (r : Reply) (s : Store) (h : EventsOf o s) :
    EventsOf o (exec c r s) := by
  unfold exec
  split
  · exact h
  · cases c with
    | query => exact h
    | fetchProvider _ _ => exact h
    | recordCheckoutResult id status =>
      cases id with
      | _ => exact h
    | markFailed _ => exact h
    | createTransaction _ => exact h
    | finalize o' p e =>
      dsimp only
      split
      · rename_i s' hf
        obtain ⟨_, hfin⟩ := finalize_spec hf
        intro x hx
        exact h x (hfin.events ▸ hx)
      · exact h
    | claimEvent id now =>
      intro x hx
      obtain ⟨y, hy, rfl⟩ := List.mem_map.1 hx
      split
      · exact h y hy
      · exact h y hy
    | updateEvent id status reason next =>
      intro x hx
      obtain ⟨y, hy, rfl⟩ := List.mem_map.1 hx
      split
      · exact h y hy
      · exact h y hy

end VibemeetBackend.Payment
