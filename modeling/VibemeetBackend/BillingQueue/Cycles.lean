import VibemeetBackend.Async.Transaction
import VibemeetBackend.Async.Watch
import VibemeetBackend.Billing.Lifecycle

/-!
# The billing cycles of one call

`billing.queue.ts` on one call, with `recoverBillingScheduleForCall` and the part of
`verifyStartupRecovery` in `billing-recovery.ts` that is about one call.

The processes share a clock, which is a part of the store.  Metrics, logs and the back-pressure
stage are left out.  A tick is one command that returns a result or throws, and so is the finalizer;
what they do to the session is a request of its own, and so is `cancelBillingCycleJob`, which they
call for a call that has ended.  BullMQ hands a job that is due to a worker, takes a job whose worker
has returned, puts one whose worker has stopped back, and gives it up the second time.
-/

namespace VibemeetBackend.BillingQueue

open Async
open Billing (Lifecycle isNonTerminalLifecycle)

/-- The settings of the queue.  The factor is an exact number. -/
structure Setup where
  /-- `BILLING_PROCESS_INTERVAL_MS`. -/
  intervalMs : ℕ
  cycleLockDeferMs : ℕ
  chainHealStallMs : ℤ
  cycleHealthWindowMs : ℤ
  heartbeatTtlSeconds : ℕ
  adaptiveLagPolicyEnabled : Bool
  lagThresholdMs : ℕ
  delayFactor : ℚ
  delayCapMs : ℕ

/-- `Math.floor(queueLagMs / thresholdMs)`, at most 4; a lag divided by zero is infinite. -/
def lagBoostSteps (queueLagMs thresholdMs : ℕ) : ℕ :=
  if thresholdMs = 0 then 4 else min 4 (queueLagMs / thresholdMs)

def computeNextCycleDelayMs (o : Setup) (queueLagMs baseMs : ℕ) : ℕ :=
  if o.adaptiveLagPolicyEnabled = false then baseMs
  else if queueLagMs ≤ o.lagThresholdMs then baseMs
  else
    let adaptiveFactor := o.delayFactor + lagBoostSteps queueLagMs o.lagThresholdMs / 5
    min ⌊baseMs * adaptiveFactor⌋.toNat o.delayCapMs

def gateTtlSeconds (o : Setup) (delayMs : ℕ) : ℕ :=
  max 2 ((delayMs + o.intervalMs * 2 + 999) / 1000)

/-! ### The store -/

inductive JobState where
  | queued
  | active
  | finished
  deriving DecidableEq

structure CycleJob where
  id : ℕ
  dueAt : ℤ
  state : JobState
  /-- How often a worker was handed the job. -/
  attempts : ℕ
  stalls : ℕ

namespace CycleJob

variable (j : CycleJob)

def start : CycleJob := { j with state := .active, attempts := j.attempts + 1 }

/-- The worker of an earlier attempt has lost its lock. -/
def finish (attempt : ℕ) : CycleJob :=
  if j.state = .active ∧ j.attempts = attempt then { j with state := .finished } else j

def stall : CycleJob :=
  if j.state ≠ .active then j
  else if j.stalls = 0 then { j with state := .queued, stalls := 1 }
  else { j with state := .finished }

end CycleJob

/-- The value of `billing:cycle:scheduled:`. -/
structure Gate where
  value : ℤ
  expiresAt : ℤ
  jobId : ℕ

/-- The value of `billing:cycle:heartbeat:`. -/
structure Heartbeat where
  value : ℤ
  expiresAt : ℤ

structure CycleSession where
  lifecycleState : Option Lifecycle
  lastSequenceAdvanceAt : ℤ
  lastHealthyTickAt : ℤ
  startTime : Option ℤ

structure Store where
  now : ℤ
  gate : Option Gate
  heartbeat : Option Heartbeat
  session : Option CycleSession
  jobs : List CycleJob
  /-- Job ids carry the time and random digits, and none is drawn twice. -/
  nextId : ℕ

/-- A call whose billing has started, before its first job. -/
def Store.start (now : ℤ) (session : Option CycleSession) : Store :=
  ⟨now, none, none, session, [], 0⟩

namespace Store

variable (s : Store)

/-- `SET … NX` finds the gate. -/
def gated : Bool := s.gate.any fun g => s.now < g.expiresAt

def live : Bool := s.session.any fun x => isNonTerminalLifecycle x.lifecycleState

/-- `Number(heartbeatRaw) || 0`. -/
def heartbeatAt : ℤ :=
  ((s.heartbeat.filter fun h => s.now < h.expiresAt).map Heartbeat.value).getD 0

def updateJob (id : ℕ) (f : CycleJob → CycleJob) : Store :=
  { s with jobs := s.jobs.map fun j => if j.id = id then f j else j }

def setGate (o : Setup) (delayMs : ℕ) : Store :=
  if s.gated = true then s
  else
    { s with
      gate := some ⟨s.now + delayMs, s.now + gateTtlSeconds o delayMs * 1000, s.nextId⟩
      nextId := s.nextId + 1 }

def add (id delayMs : ℕ) : Store :=
  if (s.jobs.any fun j => j.id == id) = true then s
  else { s with jobs := s.jobs ++ [⟨id, s.now + delayMs, .queued, 0, 0⟩] }

end Store

/-! ### Commands -/

/-- `BillingTickResult`. -/
inductive TickResult where
  | tickOk | tickDeferred | stopNoSession | stopNeedsSettlement
  deriving DecidableEq

inductive QueueState where
  | active | waiting | delayed
  deriving DecidableEq, Repr

structure Reply where
  delivered : Bool
  answered : Bool
  job : ℕ
  tick : TickResult
  /-- The scan reaches the jobs of the call. -/
  scanned : Bool
  /-- `resolveBillingRuntimeState` finds a session. -/
  resolved : Bool
  /-- `reclaimStaleRuntimeOwnershipOnStartup` has taken the lock over. -/
  reclaimed : Bool
  /-- `tryClaimSettlementRequested`. -/
  claimed : Bool

def Reply.ok (r : Reply) : Bool := r.delivered && r.answered

inductive Cmd where
  | take
  | delGate
  | delHeartbeat
  | tick
  | exists
  | setGate (delayMs : ℕ)
  | add (id delayMs : ℕ)
  | touchHeartbeat
  | claimSettlement
  | finalize
  | finish (id attempt : ℕ)
  | resolve
  | reclaim
  | getSession
  | getGate
  | getHeartbeat
  | getJobs (state : QueueState)
  | remove (id : ℕ)
  | wait (ms : ℕ)
  | setSession (session : Option CycleSession)
  /-- The check for stalled jobs finds the job. -/
  | stall (id : ℕ)

def Store.handed (s : Store) (r : Reply) : Option CycleJob :=
  s.jobs.find? fun j => j.id == r.job && j.state == .queued && decide (j.dueAt ≤ s.now)

def Cmd.exec (o : Setup) (c : Cmd) (r : Reply) (s : Store) : Store :=
  if r.delivered = false then s
  else
    match c with
    | .tick | .exists | .claimSettlement | .finalize | .resolve | .reclaim | .getSession | .getGate
    | .getHeartbeat | .getJobs _ => s
    | .take =>
      match s.handed r with
      | some j => s.updateJob j.id CycleJob.start
      | none => s
    | .delGate => { s with gate := none }
    | .delHeartbeat => { s with heartbeat := none }
    | .setGate delayMs => s.setGate o delayMs
    | .add id delayMs => s.add id delayMs
    | .touchHeartbeat =>
      { s with heartbeat := some ⟨s.now, s.now + o.heartbeatTtlSeconds * 1000⟩ }
    | .finish id attempt => s.updateJob id fun j => j.finish attempt
    | .remove id => { s with jobs := s.jobs.filter fun j => j.id != id || j.state == .active }
    | .wait ms => { s with now := s.now + ms }
    | .setSession session => { s with session := session }
    | .stall id => s.updateJob id CycleJob.stall

abbrev CycleFlow (α : Type) : Type := Flow Cmd Reply Store α

def run (c : Cmd) : CycleFlow (Reply × Store) := Flow.call Reply.ok "request failed" c

/-! ### Scheduling -/

def touchBillingCycleHeartbeat : CycleFlow Unit := do
  let _ ← Flow.issue .touchHeartbeat
  pure ()

/-- The job, once the gate is set. -/
def addCycle (id delayMs : ℕ) : CycleFlow Unit :=
  tryCatch (do
    let _ ← run (.add id delayMs)
    touchBillingCycleHeartbeat) fun err => do
      let _ ← Flow.issue .delGate
      throw err

/-- A `SET` that fails counts as one that finds the gate. -/
def scheduleBillingJob (delayMs : ℕ) : CycleFlow Unit := do
  let (r, s) ← Flow.issue (.setGate delayMs)
  if r.ok = true ∧ s.gated = false then addCycle s.nextId delayMs else pure ()

/-- `scheduleBillingJob(…).catch(…)`. -/
def scheduleCaught (delayMs : ℕ) : CycleFlow Unit := do
  let _ ← Flow.attempt (scheduleBillingJob delayMs)
  pure ()

def scheduleNextBillingCycleAfterTickOk (o : Setup) (queueLagMs : ℕ) : CycleFlow Unit :=
  scheduleCaught (computeNextCycleDelayMs o queueLagMs o.intervalMs)

/-! ### The worker -/

def rescheduleAfterThrow (o : Setup) (queueLagMs : ℕ) : CycleFlow Unit := do
  let (_, s) ← run .exists
  if s.session.isSome = true then
    scheduleBillingJob (computeNextCycleDelayMs o queueLagMs (o.intervalMs * 2))
  else pure ()

def settleAfterStop : CycleFlow Unit := do
  let (r, _) ← run .claimSettlement
  if r.claimed = true then do
    let _ ← Flow.issue .finalize
    pure ()
  else pure ()

def afterTick (o : Setup) (queueLagMs : ℕ) : TickResult → CycleFlow Unit
  | .tickOk => do
    touchBillingCycleHeartbeat
    scheduleNextBillingCycleAfterTickOk o queueLagMs
  | .tickDeferred => scheduleCaught o.cycleLockDeferMs
  | .stopNeedsSettlement => settleAfterStop
  | .stopNoSession => pure ()

def processCycle (o : Setup) (job : CycleJob) : CycleFlow Unit := do
  let (_, s) ← Flow.issue .delGate
  let queueLagMs := (s.now - job.dueAt).toNat
  let (r, _) ← Flow.issue .tick
  if r.ok = true then afterTick o queueLagMs r.tick
  else do
    let _ ← Flow.attempt (rescheduleAfterThrow o queueLagMs)
    pure ()

/-- A worker waits for a job, processes it and reports it. -/
def work (o : Setup) : CycleFlow Unit := do
  let (r, s) ← run .take
  match s.handed r with
  | none => pure ()
  | some j => do
    let _ ← Flow.attempt (processCycle o j)
    let _ ← run (.finish j.id (j.attempts + 1))
    pure ()

/-! ### Recovery -/

def isBillingSequenceStalled (o : Setup) (session : Option CycleSession) (now : ℤ) : Bool :=
  match session with
  | none => false
  | some x =>
    let lifecycle := x.lifecycleState.getD .active
    let lastAdvance := max x.lastSequenceAdvanceAt x.lastHealthyTickAt
    (lifecycle == .active || lifecycle == .recovering || lifecycle == .starting) &&
      decide (o.chainHealStallMs <
        if 0 < lastAdvance then max 0 (now - lastAdvance)
        else max 0 (now - (x.startTime.filter (· ≠ 0)).getD now))

def Store.inState (s : Store) : QueueState → List CycleJob
  | .active => s.jobs.filter fun j => j.state == .active
  | .waiting => s.jobs.filter fun j => j.state == .queued && decide (j.dueAt ≤ s.now)
  | .delayed => s.jobs.filter fun j => j.state == .queued && decide (s.now < j.dueAt)

def hasHealthyQueuedCycleJob : List QueueState → CycleFlow Bool
  | [] => pure false
  | state :: states => do
    let (r, s) ← run (.getJobs state)
    if r.scanned = true ∧ s.inState state ≠ [] then pure true
    else hasHealthyQueuedCycleJob states

def needsBillingCycleReschedule (o : Setup) : CycleFlow Bool := do
  let (_, s) ← run .getSession
  if isBillingSequenceStalled o s.session s.now = true then do
    let _ ← Flow.issue .delGate
    let _ ← Flow.issue .delHeartbeat
    pure true
  else do
    let (_, g) ← run .getGate
    let (_, h) ← run .getHeartbeat
    if g.gated = true then pure false
    else if 0 < h.heartbeatAt ∧ h.now - h.heartbeatAt ≤ o.cycleHealthWindowMs then pure false
    else do
      let healthy ← hasHealthyQueuedCycleJob [.active, .waiting, .delayed]
      pure !healthy

def recoverBillingScheduleForCall (o : Setup) : CycleFlow Bool :=
  tryCatch (do
    let (r, _) ← run .resolve
    if r.resolved = false then pure false
    else do
      let shouldReschedule ← needsBillingCycleReschedule o
      if shouldReschedule = true then do
        scheduleBillingJob o.intervalMs
        pure true
      else pure true) fun _ => pure false

def reclaimCall : CycleFlow Bool := do
  let (r, _) ← run .reclaim
  if r.reclaimed = true then do
    scheduleCaught 0
    pure true
  else pure false

/-- The body of the loop of `verifyStartupRecovery`; `within` says that fewer cycles were ensured
than the loop may. -/
def verifyStartupCall (o : Setup) (within : Bool) : CycleFlow Unit := do
  let (r, _) ← run .resolve
  if r.resolved = false then pure ()
  else do
    let reclaimed ← Flow.attempt reclaimCall
    if reclaimed.toOption = some true then pure ()
    else if within = false then pure ()
    else do
      let needs ← needsBillingCycleReschedule o
      if needs = true then scheduleCaught o.intervalMs else pure ()

def removeJobs : List CycleJob → CycleFlow Unit
  | [] => pure ()
  | j :: js => do
    let _ ← Flow.issue (.remove j.id)
    removeJobs js

/-- `cancelBillingCycleJob`. -/
def cancelJobsIn (state : QueueState) : CycleFlow Unit := do
  let (r, s) ← run (.getJobs state)
  if r.scanned = true then removeJobs (s.inState state) else pure ()

def cancelBillingCycleJob : CycleFlow Unit := do
  cancelJobsIn .waiting
  cancelJobsIn .delayed
  let _ ← Flow.issue .delGate
  let _ ← Flow.issue .delHeartbeat
  pure ()

/-! ### Requests -/

inductive Request where
  | worker
  | schedule (delayMs : ℕ)
  | recover
  | startup (within : Bool)
  | cancel
  | wait (ms : ℕ)
  | setSession (session : Option CycleSession)
  | stall (id : ℕ)

def Request.prog (o : Setup) : Request → Prog Cmd Reply Store Unit
  | .worker => (work o).run >>= fun _ => .ret ()
  | .schedule delayMs => (scheduleBillingJob delayMs).run >>= fun _ => .ret ()
  | .recover => (recoverBillingScheduleForCall o).run >>= fun _ => .ret ()
  | .startup within => (verifyStartupCall o within).run >>= fun _ => .ret ()
  | .cancel => cancelBillingCycleJob.run >>= fun _ => .ret ()
  | .wait ms => (run (.wait ms)).run >>= fun _ => .ret ()
  | .setSession session => (run (.setSession session)).run >>= fun _ => .ret ()
  | .stall id => (run (.stall id)).run >>= fun _ => .ret ()

end VibemeetBackend.BillingQueue
