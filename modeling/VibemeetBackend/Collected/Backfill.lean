import VibemeetBackend.Async.Transaction
import VibemeetBackend.Collected.Observation
import VibemeetBackend.Mongo.Unique

/-!
# The backfill of captured payments

`runRazorpayCapturedPaymentBackfill` of `razorpay-captured-payment-backfill.service.ts` and
`observeCapturedPaymentBestEffort` of `razorpay-captured-payment-projection.service.ts`, next to a
provider whose list of payments grows at its front and whose captured payments do not change.

The store also keeps what the provider listed when the document of the backfill was inserted, which
no function reads.  The Razorpay keys are set.  An owner is the number of its `randomUUID`.  Left out
is what is read nowhere: times of observation, mode and sources of a row, and `startedAt`,
`completedAt` and `lastError` of the document.
-/

namespace VibemeetBackend.Collected

open Async
open Moments (Text)
open Mongo (Unique)
open Paging

/-! ### Stores -/

inductive BackfillStatus where
  | pending
  | running
  | failed
  | complete
  deriving DecidableEq

structure RazorpayProjectionBackfill where
  status : BackfillStatus
  asOf : ℤ
  nextSkip : ℕ
  pagesProcessed : ℕ
  paymentsObserved : ℕ
  leaseOwner : Option ℕ
  leaseUntil : Option ℤ
  deriving DecidableEq

structure Store where
  provider : List ProviderPayment
  /-- The document of the mode. -/
  backfill : Option RazorpayProjectionBackfill
  payments : Unique RazorpayCapturedPayment.paymentId
  owners : ℕ
  /-- What the provider listed when the document was inserted. -/
  begun : List ProviderPayment

def leaseMs : ℤ := 60000

/-- `Math.ceil(asOf / 1000) + 1`. -/
def lastSecond (asOf : ℤ) : ℤ := -(-asOf / 1000) + 1

namespace Store

variable (s : Store)

def empty : Store := ⟨[], none, Unique.empty, 0, []⟩

def pageAt (skip : ℕ) (toSecond : ℤ) : List ProviderPayment :=
  page (s.provider.filter (inSeconds none toSecond)) skip pageSize

def entity (id : Text) : Option ProviderPayment := s.provider.find? fun p => p.id == id

def completed : Option RazorpayProjectionBackfill :=
  s.backfill.filter fun d => decide (d.status = .complete)

def claimable (now : ℤ) : Option RazorpayProjectionBackfill :=
  s.backfill.filter fun d =>
    decide (d.status ≠ .complete) && d.leaseUntil.all fun until_ => decide (until_ ≤ now)

def owned (owner : ℕ) : Option RazorpayProjectionBackfill :=
  s.backfill.filter fun d => decide (d.leaseOwner = some owner)

def setBackfill (found : Option RazorpayProjectionBackfill)
    (f : RazorpayProjectionBackfill → RazorpayProjectionBackfill) : Store :=
  match found with
  | some d => { s with backfill := some (f d) }
  | none => s

def arrive (p : ProviderPayment) : Store :=
  if p.id ∈ s.provider.map (·.id) then s else { s with provider := p :: s.provider }

def amend (p : ProviderPayment) : Store :=
  { s with
    provider := s.provider.map fun q =>
      if q.id = p.id ∧ q.isCaptured = false then { p with id := q.id, created_at := q.created_at }
      else q }

end Store

/-! ### Commands -/

inductive Cmd where
  | insertBackfill (asOf : ℤ)
  | findBackfill
  | randomUUID
  | claim (owner : ℕ) (now : ℤ)
  | fetchPage (skip : ℕ) (toSecond : ℤ)
  | upsertPayment (observation : CapturedPaymentObservation)
  | checkpoint (owner : ℕ) (isComplete : Bool) (nextSkip pagesProcessed paymentsObserved : ℕ)
  | fail (owner : ℕ)
  | entity (id : Text)
  | arrive (p : ProviderPayment)
  | amend (p : ProviderPayment)

structure Reply where
  delivered : Bool
  answered : Bool
  now : ℤ

def Reply.ok (r : Reply) : Bool := r.delivered && r.answered

def RazorpayProjectionBackfill.checkpointed (isComplete : Bool)
    (nextSkip pagesProcessed paymentsObserved : ℕ) (now : ℤ) (d : RazorpayProjectionBackfill) :
    RazorpayProjectionBackfill :=
  { d with
    status := if isComplete then .complete else .running
    nextSkip := nextSkip
    pagesProcessed := pagesProcessed
    paymentsObserved := paymentsObserved
    leaseOwner := if isComplete then none else d.leaseOwner
    leaseUntil := if isComplete then none else some (now + leaseMs) }

def Cmd.exec (c : Cmd) (r : Reply) (s : Store) : Store :=
  if r.delivered = false then s
  else
    match c with
    | .findBackfill | .fetchPage .. | .entity _ => s
    | .insertBackfill asOf =>
      match s.backfill with
      | none =>
        { s with
          backfill := some ⟨.pending, asOf, 0, 0, 0, none, none⟩
          begun := s.provider }
      | some _ => s
    | .randomUUID => { s with owners := s.owners + 1 }
    | .claim owner now =>
      s.setBackfill (s.claimable now) fun d =>
        { d with status := .running, leaseOwner := some owner, leaseUntil := some (now + leaseMs) }
    | .upsertPayment o => { s with payments := s.payments.put o.row }
    | .checkpoint owner isComplete nextSkip pagesProcessed paymentsObserved =>
      s.setBackfill (s.owned owner)
        (·.checkpointed isComplete nextSkip pagesProcessed paymentsObserved r.now)
    | .fail owner =>
      s.setBackfill (s.owned owner) fun d =>
        { d with status := .failed, leaseOwner := none, leaseUntil := none }
    | .arrive p => s.arrive p
    | .amend p => s.amend p

/-! ### Operations -/

abbrev BackfillFlow (α : Type) : Type := Flow Cmd Reply Store α

def run (c : Cmd) : BackfillFlow (Reply × Store) := Flow.call Reply.ok "command failed" c

structure RazorpayBackfillResult where
  alreadyComplete : Bool
  asOf : ℤ
  pagesProcessed : ℕ
  paymentsObserved : ℕ

section Operations

variable (upper : UpperCase)

def upsertCapturedPaymentObservation (raw : JsValue) : BackfillFlow Bool :=
  match normalizeCapturedPaymentObservation upper.text raw with
  | none => pure false
  | some o => do
    let _ ← run (.upsertPayment o)
    pure true

def observeCapturedPaymentBestEffort (id : Text) : BackfillFlow Unit := do
  let (_, s) ← run (.entity id)
  match s.entity id with
  | none => pure ()
  | some p =>
    let _ ← Flow.attempt (upsertCapturedPaymentObservation upper p.entry)
    pure ()

/-- The loop over the items of a page: how many are observed. -/
def processItems (asOf : ℤ) : List RazorpayPaymentForCollected → BackfillFlow ℕ
  | [] => pure 0
  | item :: items =>
    if asOf ≤ item.created_at * 1000 then processItems asOf items
    else do
      let observed ← upsertCapturedPaymentObservation upper item.value
      let rest ← processItems asOf items
      pure (rest + observed.toNat)

/-- The loop over the pages.  It is followed for so many pages: a process that stops there has
returned nothing. -/
def processPages (owner : ℕ) (asOf : ℤ) :
    (pages skip pagesProcessed paymentsObserved : ℕ) → BackfillFlow (Option RazorpayBackfillResult)
  | 0, _, _, _ => pure none
  | pages + 1, skip, pagesProcessed, paymentsObserved => do
    let (_, s) ← run (.fetchPage skip (lastSecond asOf))
    match parseRazorpayPaymentPage upper.text (response (s.pageAt skip (lastSecond asOf))) with
    | .error e => throw e.message
    | .ok items => do
      let observedOnPage ← processItems upper asOf items
      let isComplete := decide (items.length < pageSize)
      let (_, s) ← run (.checkpoint owner isComplete (skip + pageSize) (pagesProcessed + 1)
        (paymentsObserved + observedOnPage))
      if (s.owned owner).isNone then throw "Razorpay projection backfill lease was lost"
      else if isComplete then
        pure (some ⟨false, asOf, pagesProcessed + 1, paymentsObserved + observedOnPage⟩)
      else
        processPages owner asOf pages (skip + pageSize) (pagesProcessed + 1)
          (paymentsObserved + observedOnPage)

def runRazorpayCapturedPaymentBackfill (now : ℤ) (pages : ℕ) :
    BackfillFlow (Option RazorpayBackfillResult) := do
  let _ ← run (.insertBackfill now)
  let (_, s) ← run .findBackfill
  match s.completed with
  | some existing =>
    pure (some ⟨true, existing.asOf, existing.pagesProcessed, existing.paymentsObserved⟩)
  | none => do
    let (_, s) ← run .randomUUID
    let owner := s.owners
    let (_, s) ← run (.claim owner now)
    match s.claimable now with
    | none => throw "Razorpay projection backfill is already running"
    | some claimed =>
      tryCatch
        (processPages upper owner claimed.asOf pages claimed.nextSkip claimed.pagesProcessed
          claimed.paymentsObserved)
        fun e => do
          let _ ← run (.fail owner)
          throw e

end Operations

inductive Request where
  | backfill (now : ℤ) (pages : ℕ)
  | observe (id : Text)
  | arrive (p : ProviderPayment)
  | amend (p : ProviderPayment)

def program (upper : UpperCase) (q : Request) : Prog Cmd Reply Store Unit :=
  match q with
  | .backfill now pages =>
    (runRazorpayCapturedPaymentBackfill upper now pages).run >>= fun _ => .ret ()
  | .observe id => (observeCapturedPaymentBestEffort upper id).run >>= fun _ => .ret ()
  | .arrive p => (run (.arrive p)).run >>= fun _ => .ret ()
  | .amend p => (run (.amend p)).run >>= fun _ => .ret ()

abbrev runBackfills (upper : UpperCase) (ms : List (Move Request Reply)) : Pool Cmd Reply Store :=
  (Pool.start Store.empty).play Cmd.exec (program upper) ms

end VibemeetBackend.Collected
