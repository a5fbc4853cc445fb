import VibemeetBackend.Async.Environment
import VibemeetBackend.Payment.Reconcile

/-!
# The reconcile sweep of wallet payments

`runPaymentErrorCheck` (`admin-payment-error-check.service.ts`), which lists the captured wallet
payments of a range against the ledger, and `runWalletPaymentReconcileSweep`
(`wallet-payment-reconcile-sweep.service.ts`), which reconciles the first of those without coins.

The error check only reads, so its answers are a function of the store; what its rows show besides the
ids and the issue is left out, as are metrics and logs.
-/

namespace VibemeetBackend.Payment

open Async

/-! ### The provider -/

structure ListedPayment where
  id : String
  status : String
  captured : Bool
  orderId : Option String
  notes : RazorpayNotes

/-- `payment.order_id || null`. -/
def ListedPayment.order (p : ListedPayment) : Option String := p.orderId.filter fun o => o ≠ ""

def ListedPayment.isCaptured (p : ListedPayment) : Bool := p.captured || p.status == "captured"

def pageSize : ℕ := 100

def maxRangeMs : ℤ := 7 * 24 * 60 * 60 * 1000

structure SweepConfig where
  razorpayConfigured : Bool
  payment : PaymentConfig
  maxPages : ℕ
  lookbackMs : ℤ
  maxPerTick : ℕ
  pages_pos : 1 ≤ maxPages
  lookback_min : 60000 ≤ lookbackMs
  perTick_pos : 1 ≤ maxPerTick

/-- What a sweep is told: the time, the pages of the provider for a range (none is an error), the order
of a payment (none is an error), and the answers to the commands of each reconcile. -/
structure SweepEnv where
  now : ℤ
  page : (fromUnix toUnix : ℤ) → (skip : ℕ) → Option (List ListedPayment)
  fetchOrder : String → Option RazorpayOrder
  answers : ℕ → ℕ → Cmd → Reply

def fetchPages (page : ℕ → Option (List ListedPayment)) : ℕ → ℕ → Option (List ListedPayment)
  | 0, _ => some []
  | left + 1, k =>
    match page (k * pageSize) with
    | none => none
    | some items =>
      if items.length < pageSize then some items
      else (fetchPages page left (k + 1)).map fun rest => items ++ rest

def fetchPaymentsForRange (cfg : SweepConfig) (env : SweepEnv) (fromUnix toUnix : ℤ) :
    Option (List ListedPayment) :=
  fetchPages (env.page fromUnix toUnix) cfg.maxPages 0

/-! ### The error check -/

inductive Issue where
  | okCredited
  | paidButPending
  | paidButFailed
  | noCoinTransaction
  | creditedUserDeleted
  deriving DecidableEq

structure PaymentErrorCheckRow where
  paymentId : String
  orderId : Option String
  issue : Issue

def enrichNotesAndReceipt (env : SweepEnv) (p : ListedPayment) : RazorpayNotes × Option String :=
  match p.order.bind env.fetchOrder with
  | none => (p.notes, none)
  | some order => (order.notes.merge p.notes, order.receipt)

def mainTx (p : ListedPayment) (l : Ledger) : Option CoinTx :=
  let txs := l.txs.filter fun t =>
    (t.paymentGatewayTransactionId == some p.id || p.order.any fun o => orderSelectors o t) &&
      (t.source == .paymentGateway || t.source == .rechargeBonus)
  (txs.find? fun t => t.source == .paymentGateway) <|> txs.head?

def issueOf (p : ListedPayment) (s : Store) : Issue :=
  match mainTx p s.ledger with
  | none =>
    if p.order.any fun o => s.checkouts.any fun x => x.orderId == some o && x.status == .success then
      .creditedUserDeleted
    else .noCoinTransaction
  | some t =>
    match t.status with
    | .completed => .okCredited
    | .pending => .paidButPending
    | .failed => .paidButFailed

def Issue.gotCoins (issue : Issue) : Bool := issue = .okCredited ∨ issue = .creditedUserDeleted

def ListedPayment.isWallet (env : SweepEnv) (p : ListedPayment) : Bool :=
  p.isCaptured && isWalletProductNotes (enrichNotesAndReceipt env p).1 (enrichNotesAndReceipt env p).2

def checkRow (s : Store) (p : ListedPayment) : PaymentErrorCheckRow := ⟨p.id, p.order, issueOf p s⟩

structure PaymentErrorCheckResult where
  gotCoins : List PaymentErrorCheckRow
  paidNoCoins : List PaymentErrorCheckRow

def runPaymentErrorCheck (cfg : SweepConfig) (env : SweepEnv) (s : Store) (start stop : ℤ) :
    Except String PaymentErrorCheckResult :=
  if ¬start < stop then .error "INVALID_RANGE"
  else if maxRangeMs < stop - start then .error "RANGE_TOO_WIDE"
  else if cfg.razorpayConfigured = false then .ok ⟨[], []⟩
  else
    match fetchPaymentsForRange cfg env (start / 1000) ((stop - 1) / 1000) with
    | none => .error "PROVIDER_ERROR"
    | some payments =>
      let rows := (payments.filter (ListedPayment.isWallet env)).map (checkRow s)
      .ok ⟨rows.filter fun row => row.issue.gotCoins, rows.filter fun row => !row.issue.gotCoins⟩

/-! ### The sweep -/

structure SweepResult where
  scanned : ℕ
  attempted : ℕ
  credited : ℕ
  alreadyCompleted : ℕ
  skipped : ℕ
  failed : ℕ

def SweepResult.count (r : SweepResult) : WalletReconcileOutcome → SweepResult
  | .credited => { r with attempted := r.attempted + 1, credited := r.credited + 1 }
  | .alreadyCompleted =>
    { r with attempted := r.attempted + 1, alreadyCompleted := r.alreadyCompleted + 1 }
  | .skipped => { r with attempted := r.attempted + 1, skipped := r.skipped + 1 }
  | .failed => { r with attempted := r.attempted + 1, failed := r.failed + 1 }

/-- The collections, and the payments that were passed to `reconcileCapturedWalletPayment`. -/
structure SweepState where
  store : Store
  passed : List String

def PaymentErrorCheckRow.isCandidate (row : PaymentErrorCheckRow) : Bool :=
  row.orderId.isSome &&
    (row.issue == .noCoinTransaction || row.issue == .paidButPending || row.issue == .paidButFailed)

def reconciled (cfg : SweepConfig) (answers : ℕ → Cmd → Reply) (orderId paymentId : String)
    (s : Store) : WalletReconcileOutcome × Store :=
  match (reconcileCapturedWalletPayment cfg.payment orderId paymentId none).run.under answers exec 0
      s with
  | (.ok result, s') => (result.outcome, s')
  | (.error _, s') => (.failed, s')

/-- The loop over the batch; `i` counts its rows. -/
def reconcileRows (cfg : SweepConfig) (env : SweepEnv) :
    List PaymentErrorCheckRow → ℕ → SweepResult → SweepState → SweepResult × SweepState
  | [], _, result, s => (result, s)
  | row :: rows, i, result, s =>
    match row.orderId with
    | none => reconcileRows cfg env rows (i + 1) result s
    | some orderId =>
      let (outcome, store) := reconciled cfg (env.answers i) orderId row.paymentId s.store
      reconcileRows cfg env rows (i + 1) (result.count outcome)
        ⟨store, s.passed ++ [row.paymentId]⟩

def sweepCheck (cfg : SweepConfig) (env : SweepEnv) (s : Store) :
    Except String PaymentErrorCheckResult :=
  runPaymentErrorCheck cfg env s (env.now - cfg.lookbackMs) env.now

/-- `candidates.slice(0, MAX_PER_TICK)`. -/
def sweepBatch (cfg : SweepConfig) (check : PaymentErrorCheckResult) : List PaymentErrorCheckRow :=
  (check.paidNoCoins.filter PaymentErrorCheckRow.isCandidate).take cfg.maxPerTick

def runWalletPaymentReconcileSweep (cfg : SweepConfig) (env : SweepEnv) (s : SweepState) :
    Except String SweepResult × SweepState :=
  match sweepCheck cfg env s.store with
  | .error e => (.error e, s)
  | .ok check =>
    let scanned := check.gotCoins.length + check.paidNoCoins.length
    let (result, s) := reconcileRows cfg env (sweepBatch cfg check) 0 ⟨scanned, 0, 0, 0, 0, 0⟩ s
    (.ok result, s)

inductive SweepMove where
  | sweep (env : SweepEnv)
  | write (store : Store)

def SweepMove.next (cfg : SweepConfig) (s : SweepState) : SweepMove → SweepState
  | .sweep env => (runWalletPaymentReconcileSweep cfg env s).2
  | .write store => { s with store }

end VibemeetBackend.Payment
