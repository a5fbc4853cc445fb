import VibemeetBackend.Async.Protocol
import VibemeetBackend.Payment.Controller

/-!
# Checkout contexts

`checkout-return.service.ts`: the attachment of an order to a checkout, the poll of its status and the
result that the hosted page reports, next to `verifyWebPayment`, which records its result in the
checkout that the token names.  Other writers of the ledger, the users and the webhook events may do
anything to them.

The store keeps two records of the past beside the collections: the rows that were ever completed, and
the payments that were presented with the provider's signature.  What a checkout is for, the path that
it returns to, its result and its expiry are left out.
-/

namespace VibemeetBackend.Payment

open Async

/-! ### Store and commands -/

abbrev SignedPayment : Type := String × String

structure CheckoutStore where
  pay : Store
  /-- `CheckoutContext.userId`, by checkout. -/
  owners : List (String × String)
  everCompleted : List CoinTx
  signed : List SignedPayment

inductive CheckoutCmd where
  | createContext (checkoutId userId : String)
  | attachOrder (checkoutId orderId : String)
  | hostedResult (checkoutId : String) (status : CheckoutStatus)
  | findUser
  | findContext (checkoutId userId : String)
  | findTransaction (userId orderId : String)
  /-- The update of a poll, by `_id`. -/
  | writeStatus (checkoutId : String) (status : CheckoutStatus)
  /-- A command of a verification, with the payment whose signature it has verified. -/
  | pay (signed : Option SignedPayment) (c : Cmd)
  | writePayments (ledger : Ledger) (users : List User) (events : List PaymentWebhookEvent)

def Store.updateContexts (filter : CheckoutContext → Bool) (f : CheckoutContext → CheckoutContext)
    (s : Store) : Store :=
  { s with checkouts := s.checkouts.map fun x => if filter x = true then f x else x }

def CheckoutCmd.effect (c : CheckoutCmd) (r : Reply) (s : Store) : Store :=
  match c with
  | .createContext id _ =>
    if s.checkouts.any fun x => x.checkoutId == id then s
    else { s with checkouts := s.checkouts ++ [⟨id, none, .created⟩] }
  | .attachOrder id orderId =>
    s.updateContexts (fun x => x.checkoutId == id && x.status == .created) fun x =>
      { x with orderId := some orderId, status := .pending }
  | .hostedResult id status =>
    s.updateContexts (fun x => x.checkoutId == id && (x.status == .created || x.status == .pending))
      fun x => { x with status }
  | .writeStatus id status => s.updateContexts (fun x => x.checkoutId == id) fun x => { x with status }
  | .pay _ c => Payment.exec c r s
  | .writePayments ledger users events => { s with ledger, users, events }
  | _ => s

def CheckoutCmd.newOwner (c : CheckoutCmd) (s : Store) : List (String × String) :=
  match c with
  | .createContext id userId =>
    if s.checkouts.any fun x => x.checkoutId == id then [] else [(id, userId)]
  | _ => []

def CheckoutCmd.signedPayment : CheckoutCmd → Option SignedPayment
  | .pay signed _ => signed
  | _ => none

def Ledger.completedRows (l : Ledger) : List CoinTx := l.txs.filter fun t => t.status == .completed

def CheckoutCmd.exec (c : CheckoutCmd) (r : Reply) (s : CheckoutStore) : CheckoutStore :=
  let pay := if r.delivered = false then s.pay else c.effect r s.pay
  { pay
    owners := s.owners ++ if r.delivered = false then [] else c.newOwner s.pay
    everCompleted := s.everCompleted ++ s.pay.ledger.completedRows ++ pay.ledger.completedRows
    signed := s.signed ++ c.signedPayment.toList }

abbrev CheckoutFlow (α : Type) : Type := Flow CheckoutCmd Reply CheckoutStore α

def ask (c : CheckoutCmd) : CheckoutFlow (Reply × CheckoutStore) :=
  Flow.call Reply.ok "MongoServerError" c

/-! ### Requests -/

/-- `if (!checkoutId) return`. -/
def attachCheckoutOrder (checkoutId : Option String) (orderId : String) : CheckoutFlow Unit :=
  match checkoutId with
  | none => pure ()
  | some id =>
    if id = "" then pure ()
    else do
      let _ ← ask (.attachOrder id orderId)
      return ()

def checkoutSelectors (orderId : String) (t : CoinTx) : Bool :=
  t.paymentGatewayOrderId == some orderId || t.paymentGatewayTransactionId == some orderId ||
    ["pay_" ++ orderId, "razorpay_" ++ orderId, "vip_" ++ orderId,
      "moments_premium_" ++ orderId].contains t.transactionId

/-- `/^[A-Za-z0-9_-]{32}$/`. -/
def isCheckoutId (checkoutId : String) : Bool :=
  checkoutId.length = 32 ∧ checkoutId.toList.all fun c => c.isAlphanum || c == '_' || c == '-'

def CheckoutStore.context (s : CheckoutStore) (checkoutId userId : String) :
    Option CheckoutContext :=
  if (checkoutId, userId) ∈ s.owners then s.pay.checkouts.find? fun x => x.checkoutId == checkoutId
  else none

def polledStatus (status : CheckoutStatus) (transaction : Option CoinTx) : CheckoutStatus :=
  match transaction.map CoinTx.status with
  | some .completed => .success
  | some .failed => .failed
  | _ => status

/-- The row of the order that a query without a sort finds. -/
def CheckoutStore.transaction (s : CheckoutStore) (pick : ℕ) (userId orderId : String) :
    Option CoinTx :=
  findOne pick (fun t => t.userId == userId && checkoutSelectors orderId t) s.pay.ledger.txs

def pollOrder (userId : String) (context : CheckoutContext) (orderId : String) :
    CheckoutFlow (ℕ × Option CheckoutStatus) := do
  let (r, s) ← ask (.findTransaction userId orderId)
  let status := polledStatus context.status (s.transaction r.pick userId orderId)
  if status = context.status then return (200, some status)
  else do
    let _ ← ask (.writeStatus context.checkoutId status)
    return (200, some status)

/-- `GET /checkout/:checkoutId/status`: the answer with the status that it shows. -/
def getCheckoutStatus (auth : Option String) (checkoutId : String) :
    CheckoutFlow (ℕ × Option CheckoutStatus) :=
  match auth with
  | none => pure (401, none)
  | some firebaseUid =>
    if isCheckoutId checkoutId = false then pure (400, none)
    else do
      let (_, s) ← ask .findUser
      match s.pay.users.find? fun u => u.firebaseUid == firebaseUid with
      | none => return (404, none)
      | some user => do
        let (_, s) ← ask (.findContext checkoutId user.id)
        match s.context checkoutId user.id with
        | none => return (404, none)
        | some context =>
          match context.orderId with
          | none => return (200, some context.status)
          | some orderId =>
            if orderId = "" ∨ context.status = .success then return (200, some context.status)
            else pollOrder user.id context orderId

/-- `POST /payment/web/result`; `decoded` is the checkout of a valid token. -/
def recordHostedCheckoutResult (status : Option CheckoutStatus) (decoded : Option String) :
    CheckoutFlow ℕ :=
  if status ≠ some .cancelled ∧ status ≠ some .failed then pure 400
  else
    match decoded with
    | none => pure 401
    | some checkoutId =>
      tryCatch
        (do
          let _ ← ask (.hostedResult checkoutId (status.getD .failed))
          return 200)
        fun _ => pure 401

def signedBy (orderId : String) (q : VerifyRequest) : Option SignedPayment :=
  if q.signatureOk = some true then some (orderId, q.paymentId) else none

inductive CheckoutRequest where
  | create (checkoutId userId : String)
  | attach (checkoutId : Option String) (orderId : String)
  | verify (orderId : String) (q : VerifyRequest)
  | hosted (status : Option CheckoutStatus) (decoded : Option String)
  | poll (auth : Option String) (checkoutId : String)
  | write (ledger : Ledger) (users : List User) (events : List PaymentWebhookEvent)

def verifyCheckout (cfg : PaymentConfig) (orderId : String) (q : VerifyRequest) : CheckoutFlow ℕ :=
  ExceptT.mk ((verifyWebPayment cfg orderId q).run.focus (.pay (signedBy orderId q)) (fun r => r)
    (·.pay))

def spawnedCheckout {α : Type} (p : CheckoutFlow α) : Prog CheckoutCmd Reply CheckoutStore Unit :=
  p.run >>= fun _ => .ret ()

def checkoutProgram (cfg : PaymentConfig) :
    CheckoutRequest → Prog CheckoutCmd Reply CheckoutStore Unit
  | .create checkoutId userId => spawnedCheckout (ask (.createContext checkoutId userId))
  | .attach checkoutId orderId => spawnedCheckout (attachCheckoutOrder checkoutId orderId)
  | .verify orderId q => spawnedCheckout (verifyCheckout cfg orderId q)
  | .hosted status decoded => spawnedCheckout (recordHostedCheckoutResult status decoded)
  | .poll auth checkoutId => spawnedCheckout (getCheckoutStatus auth checkoutId)
  | .write ledger users events => spawnedCheckout (ask (.writePayments ledger users events))

end VibemeetBackend.Payment
