import VibemeetBackend.BillingQueue.Cycles

/-!
# The chain of billing cycles is kept

Whole runs of workers, of calls of `scheduleBillingJob` and of recoveries on one call, with lost and
failed commands, and processes that stop for good anywhere.
-/

namespace VibemeetBackend.BillingQueue

open Async Flow

variable {o : Setup}

/-! ### Phases -/

structure Phase where
  own : Option ℕ
  /-- The worker has asked for the gate to be deleted. -/
  cleared : Bool
  /-- A call of `scheduleBillingJob` has begun, or the result of the tick asks for one. -/
  obliged : Bool
  /-- The jobs when the call began. -/
  began : List CycleJob
  /-- The id drawn under a gate that the call has set. -/
  gated : Option ℕ
  /-- The job that the call has added. -/
  added : Option ℕ
  skipped : Bool
  /-- The run had an error of its own. -/
  failed : Bool
  /-- A worker whose tick has thrown found no session. -/
  gone : Bool

def Phase.start : Phase := ⟨none, false, false, [], none, none, false, false, false⟩

def Reply.continues (r : Reply) : Bool := !r.ok || r.tick == .tickOk || r.tick == .tickDeferred

/-- A `SET` that is carried out and answered sets the gate. -/
def acquires (r : Reply) (s : Store) : Bool := r.ok && !s.gated

def Phase.next (φ : Phase) (c : Cmd) (r : Reply) (s : Store) : Phase :=
  match c with
  | .take => { Phase.start with own := if r.ok = true then (s.handed r).map CycleJob.id else none }
  | .delGate => { φ with cleared := true }
  | .tick => { φ with obliged := r.continues }
  | .exists => { φ with failed := !r.ok, gone := r.ok && s.session.isNone }
  | .setGate _ =>
    { φ with
      obliged := true
      began := s.jobs
      gated := if acquires r s = true then some s.nextId else none
      added := none
      skipped := !acquires r s }
  | .add id _ => if r.ok = true then { φ with added := some id } else { φ with failed := true }
  | .delHeartbeat | .touchHeartbeat | .claimSettlement | .finalize | .finish .. | .resolve
  | .reclaim | .getSession | .getGate | .getHeartbeat | .getJobs _ | .remove _ | .wait _
  | .setSession _ | .stall _ => φ

/-- A worker deletes the gate before it sets one. -/
def Phase.Ready (φ : Phase) : Prop := φ.own ≠ none → φ.cleared = true

def Permits (φ : Phase) (c : Cmd) : Prop :=
  match c with
  | .setGate _ => φ.Ready
  | .add id _ => φ.gated = some id
  | .finish id _ => φ.own = some id ∧ φ.cleared = true
  | _ => True

/-- What became of a call of `scheduleBillingJob`, or of the need for one. -/
def Phase.Settled (φ : Phase) : Prop :=
  φ.obliged = true → φ.failed = true ∨ φ.gone = true ∨ φ.skipped = true ∨ φ.added ≠ none

variable {c : Cmd} {id : ℕ}

/-! ### The runs stay within their phases -/

section Phases

variable {α : Type} {φ ψ : Phase} {Q : α → Phase → Prop} {E : String → Phase → Prop}

/-- The job of the worker is the same, and the call of `scheduleBillingJob` is over. -/
structure Phase.Over (φ ψ : Phase) : Prop where
  own : ψ.own = φ.own
  cleared : φ.cleared = true → ψ.cleared = true
  settled : ψ.Settled

def Cmd.passes : Cmd → Bool
  | .delHeartbeat | .touchHeartbeat | .claimSettlement | .finalize | .resolve | .reclaim
  | .getSession | .getGate | .getHeartbeat | .getJobs _ | .remove _ | .wait _ | .setSession _
  | .stall _ => true
  | _ => false

theorem permits_of_passes (hc : c.passes = true) : Permits φ c := by
  cases c with
  | setGate | add | finish => cases hc
  | _ => trivial

theorem next_of_passes (hc : c.passes = true) (r : Reply) (s : Store) : φ.next c r s = φ := by
  cases c with
  | take | delGate | tick | «exists» | setGate | add => cases hc
  | _ => rfl

variable {f : Reply × Store → CycleFlow α}

theorem passes_follows (hc : c.passes = true) (hE : ∀ e, E e φ)
    (h : ∀ r s, (f (r, s)).Follows (guarded Permits Phase.next) φ Q E) :
    (run c >>= f).Follows (guarded Permits Phase.next) φ Q E := by
  apply follows_keep_bind
  · intro r s
    rw [guarded_of (permits_of_passes hc), next_of_passes hc]
  · exact hE _
  · exact h

theorem passes_follows_issue (hc : c.passes = true)
    (h : ∀ r s, (f (r, s)).Follows (guarded Permits Phase.next) φ Q E) :
    (issue c >>= f).Follows (guarded Permits Phase.next) φ Q E := by
  apply follows_issue_bind
  intro r s
  refine ⟨φ, ?_, h r s⟩
  rw [guarded_of (permits_of_passes hc), next_of_passes hc]

theorem delGate_follows
    (h : ∀ r s, (f (r, s)).Follows (guarded Permits Phase.next) { φ with cleared := true } Q E) :
    (issue .delGate >>= f).Follows (guarded Permits Phase.next) φ Q E := by
  apply follows_issue_bind
  intro r s
  exact ⟨_, guarded_of trivial, h r s⟩

theorem touchBillingCycleHeartbeat_follows {P : Unit → Phase → Prop} (h : P () φ) :
    touchBillingCycleHeartbeat.Follows (guarded Permits Phase.next) φ P E := by
  apply passes_follows_issue
  · rfl
  · exact fun _ _ => h

theorem addCycle_follows {delayMs : ℕ} (hgated : φ.gated = some id) :
    (addCycle id delayMs).Follows (guarded Permits Phase.next) φ (fun _ => φ.Over)
      fun _ => φ.Over := by
  apply follows_tryCatch
  apply follows_call_bind
  intro r s
  refine ⟨_, guarded_of hgated, ?_, ?_⟩
  · intro hr
    have hnext : φ.next (.add id delayMs) r s = { φ with added := some id } := if_pos hr
    rw [hnext]
    apply touchBillingCycleHeartbeat_follows
    exact ⟨rfl, fun h => h, fun _ => .inr (.inr (.inr fun h => nomatch h))⟩
  · intro hr
    have hnext : φ.next (.add id delayMs) r s = { φ with failed := true } :=
      if_neg (by rw [hr]; exact Bool.false_ne_true)
    rw [hnext]
    apply delGate_follows
    intro r s
    exact follows_throw ⟨rfl, fun _ => rfl, fun _ => .inl rfl⟩

theorem scheduleBillingJob_follows (hφ : φ.Ready) (delayMs : ℕ) :
    (scheduleBillingJob delayMs).Follows (guarded Permits Phase.next) φ (fun _ => φ.Over)
      fun _ => φ.Over := by
  apply follows_issue_bind
  intro r s
  refine ⟨_, guarded_of hφ, ?_⟩
  dsimp only
  have hacquires : acquires r s = true ↔ r.ok = true ∧ s.gated = false := by
    unfold acquires
    rw [Bool.and_eq_true, Bool.not_eq_true']
  split
  · rename_i h
    have hgated : (φ.next (.setGate delayMs) r s).gated = some s.nextId := if_pos (hacquires.2 h)
    apply (addCycle_follows hgated).mono
    · exact fun _ ψ hψ => ⟨hψ.own, hψ.cleared, hψ.settled⟩
    · exact fun _ ψ hψ => ⟨hψ.own, hψ.cleared, hψ.settled⟩
  · rename_i h
    apply follows_pure
    refine ⟨rfl, fun hc => hc, fun _ => .inr (.inr (.inl ?_))⟩
    show (!acquires r s) = true
    rw [Bool.not_eq_true', ← Bool.not_eq_true, hacquires]
    exact h

theorem scheduleCaught_follows (hφ : φ.Ready) (delayMs : ℕ) :
    (scheduleCaught delayMs).Follows (guarded Permits Phase.next) φ (fun _ => φ.Over) E := by
  apply follows_bind
  apply follows_attempt
  apply (scheduleBillingJob_follows hφ delayMs).mono
  · exact fun _ _ hψ => hψ
  · exact fun _ _ hψ => hψ

theorem afterTick_follows (o : Setup) (queueLagMs : ℕ) (tick : TickResult) (hφ : φ.Ready)
    (hobliged : φ.obliged = (tick == .tickOk || tick == .tickDeferred)) :
    (afterTick o queueLagMs tick).Follows (guarded Permits Phase.next) φ (fun _ => φ.Over)
      fun _ => φ.Over := by
  have hfree : φ.obliged = false → φ.Over φ := by
    intro h
    refine ⟨rfl, fun hc => hc, fun ho => ?_⟩
    simp [h] at ho
  cases tick with
  | tickOk =>
    apply follows_bind
    apply touchBillingCycleHeartbeat_follows
    exact scheduleCaught_follows hφ _
  | tickDeferred => exact scheduleCaught_follows hφ _
  | stopNeedsSettlement =>
    apply passes_follows
    · rfl
    · exact fun _ => hfree hobliged
    intro r s
    dsimp only
    split
    · apply passes_follows_issue
      · rfl
      · exact fun _ _ => hfree hobliged
    · exact hfree hobliged
  | stopNoSession => exact hfree hobliged

theorem rescheduleAfterThrow_follows (o : Setup) (queueLagMs : ℕ) (hφ : φ.Ready) :
    (rescheduleAfterThrow o queueLagMs).Follows (guarded Permits Phase.next) φ
      (fun _ => φ.Over) fun _ => φ.Over := by
  apply follows_call_bind
  intro r s
  refine ⟨_, guarded_of trivial, ?_, ?_⟩
  · intro hr
    dsimp only
    split
    · apply (scheduleBillingJob_follows (φ := φ.next .exists r s) hφ _).mono
      · exact fun _ ψ hψ => ⟨hψ.own, hψ.cleared, hψ.settled⟩
      · exact fun _ ψ hψ => ⟨hψ.own, hψ.cleared, hψ.settled⟩
    · rename_i hsession
      apply follows_pure
      refine ⟨rfl, fun hc => hc, fun _ => .inr (.inl ?_)⟩
      show (r.ok && s.session.isNone) = true
      rw [hr, Bool.true_and, Option.isNone_iff_eq_none, ← Option.not_isSome_iff_eq_none]
      exact hsession
  · intro hr
    refine ⟨rfl, fun hc => hc, fun _ => .inl ?_⟩
    show (!r.ok) = true
    rw [hr]
    rfl

theorem processCycle_follows (o : Setup) (job : CycleJob) :
    (processCycle o job).Follows (guarded Permits Phase.next) φ
      (fun _ => Phase.Over { φ with cleared := true })
      fun _ => Phase.Over { φ with cleared := true } := by
  apply delGate_follows
  intro _ s
  apply follows_issue_bind
  intro r _
  refine ⟨_, guarded_of trivial, ?_⟩
  dsimp only
  split
  · rename_i hr
    apply (afterTick_follows o _ r.tick (φ := { φ with cleared := true, obliged := r.continues })
      (fun _ => rfl) _).mono
    · exact fun _ ψ hψ => ⟨hψ.own, hψ.cleared, hψ.settled⟩
    · exact fun _ ψ hψ => ⟨hψ.own, hψ.cleared, hψ.settled⟩
    · show r.continues = _
      simp [Reply.continues, hr]
  · apply follows_bind
    apply follows_attempt
    apply (rescheduleAfterThrow_follows o _
      (φ := { φ with cleared := true, obliged := r.continues }) fun _ => rfl).mono
    · exact fun _ ψ hψ => ⟨hψ.own, hψ.cleared, hψ.settled⟩
    · exact fun _ ψ hψ => ⟨hψ.own, hψ.cleared, hψ.settled⟩

theorem work_follows (o : Setup) :
    (work o).Follows (guarded Permits Phase.next) Phase.start (fun _ => Phase.Settled)
      fun _ => Phase.Settled := by
  apply follows_call_bind
  intro r s
  refine ⟨_, guarded_of trivial, ?_, fun _ ho => nomatch ho⟩
  intro hr
  dsimp only
  cases hj : s.handed r with
  | none => exact follows_pure fun ho => nomatch ho
  | some j =>
    have hown : (Phase.start.next .take r s).own = some j.id := by
      show (if r.ok = true then (s.handed r).map CycleJob.id else none) = _
      rw [if_pos hr, hj]
      rfl
    have hfinish : ∀ ψ, Phase.Over { Phase.start.next .take r s with cleared := true } ψ →
        Follows (guarded Permits Phase.next) ψ (do
          let _ ← run (.finish j.id (j.attempts + 1))
          pure ()) (fun _ => Phase.Settled) fun _ => Phase.Settled := by
      intro ψ hψ
      apply follows_guarded_bind
      · exact ⟨hψ.own.trans hown, hψ.cleared rfl⟩
      · exact fun _ _ => hψ.settled
      · exact fun _ _ _ => hψ.settled
    apply follows_bind
    apply follows_attempt
    apply (processCycle_follows o j).mono
    · exact fun _ => hfinish
    · exact fun _ => hfinish

/-- A run without a job of its own, before a call of `scheduleBillingJob`. -/
structure Phase.Idle (φ : Phase) : Prop where
  own : φ.own = none
  obliged : φ.obliged = false

theorem Phase.Idle.settled (h : φ.Idle) : φ.Settled := by
  intro ho
  simp [h.obliged] at ho

theorem Phase.Idle.ready (h : φ.Idle) : φ.Ready := fun hown => (hown h.own).elim

theorem hasHealthyQueuedCycleJob_follows (hφ : φ.Idle) (states : List QueueState) :
    (hasHealthyQueuedCycleJob states).Follows (guarded Permits Phase.next) φ
      (fun _ => Phase.Idle) fun _ => Phase.Idle := by
  induction states with
  | nil => exact hφ
  | cons state states ih =>
    apply passes_follows
    · rfl
    · exact fun _ => hφ
    intro r s
    dsimp only
    split
    · exact hφ
    · exact ih

theorem needsBillingCycleReschedule_follows (hφ : φ.Idle) :
    (needsBillingCycleReschedule o).Follows (guarded Permits Phase.next) φ
      (fun _ => Phase.Idle) fun _ => Phase.Idle := by
  apply passes_follows
  · rfl
  · exact fun _ => hφ
  intro _ s
  dsimp only
  split
  · apply delGate_follows
    intro _ _
    apply passes_follows_issue
    · rfl
    · exact fun _ _ => ⟨hφ.own, hφ.obliged⟩
  apply passes_follows
  · rfl
  · exact fun _ => hφ
  intro _ g
  apply passes_follows
  · rfl
  · exact fun _ => hφ
  intro _ h
  split
  · exact hφ
  split
  · exact hφ
  · apply follows_bind
    apply (hasHealthyQueuedCycleJob_follows hφ _).mono
    · exact fun _ _ hψ => hψ
    · exact fun _ _ hψ => hψ

theorem recoverBillingScheduleForCall_follows (hφ : φ.Idle) :
    (recoverBillingScheduleForCall o).Follows (guarded Permits Phase.next) φ
      (fun _ => Phase.Settled) fun _ => Phase.Settled := by
  apply follows_tryCatch
  apply passes_follows
  · rfl
  · exact fun _ => hφ.settled
  intro r _
  dsimp only
  split
  · exact hφ.settled
  apply follows_bind
  apply (needsBillingCycleReschedule_follows hφ).mono
  · intro needs ψ hψ
    split
    · apply follows_bind
      apply (scheduleBillingJob_follows hψ.ready _).mono
      · exact fun _ _ h => h.settled
      · exact fun _ _ h => h.settled
    · exact hψ.settled
  · exact fun _ _ hψ => hψ.settled

theorem reclaimCall_follows (hφ : φ.Idle) :
    reclaimCall.Follows (guarded Permits Phase.next) φ
      (fun reclaimed ψ => if reclaimed = true then ψ.Settled else ψ.Idle) fun _ => Phase.Idle := by
  apply passes_follows
  · rfl
  · exact fun _ => hφ
  intro r _
  dsimp only
  split
  · apply follows_bind
    apply (scheduleCaught_follows hφ.ready 0).mono
    · exact fun _ _ h => h.settled
    · exact fun _ _ h => h
  · exact hφ

theorem verifyStartupCall_follows (hφ : φ.Idle) (within : Bool) :
    (verifyStartupCall o within).Follows (guarded Permits Phase.next) φ
      (fun _ => Phase.Settled) fun _ => Phase.Settled := by
  apply passes_follows
  · rfl
  · exact fun _ => hφ.settled
  intro r _
  dsimp only
  split
  · exact hφ.settled
  have hrest : ∀ (reclaimed : Except String Bool) (ψ : Phase),
      (reclaimed.toOption = some true → ψ.Settled) →
      (reclaimed.toOption ≠ some true → ψ.Idle) →
      Follows (guarded Permits Phase.next) ψ
        (if reclaimed.toOption = some true then pure ()
        else if within = false then pure ()
        else do
          let needs ← needsBillingCycleReschedule o
          if needs = true then scheduleCaught o.intervalMs else pure ())
        (fun _ => Phase.Settled) fun _ => Phase.Settled := by
    intro reclaimed ψ hsettled hidle
    split
    · rename_i h
      exact hsettled h
    · rename_i h
      split
      · exact (hidle h).settled
      · apply follows_bind
        apply (needsBillingCycleReschedule_follows (hidle h)).mono
        · intro needs χ hχ
          split
          · apply (scheduleCaught_follows hχ.ready _).mono
            · exact fun _ _ h => h.settled
            · exact fun _ _ h => h
          · exact hχ.settled
        · exact fun _ _ hχ => hχ.settled
  apply follows_bind
  apply follows_attempt
  apply (reclaimCall_follows hφ).mono
  · intro reclaimed ψ hψ
    apply hrest
    · intro h
      obtain rfl : reclaimed = true := Option.some.inj h
      exact hψ
    · intro h
      cases reclaimed with
      | false => exact hψ
      | true => exact (h rfl).elim
  · intro e ψ hψ
    apply hrest
    · exact fun h => nomatch h
    · exact fun _ => hψ

theorem removeJobs_follows (hφ : φ.Idle) (js : List CycleJob) :
    (removeJobs js).Follows (guarded Permits Phase.next) φ (fun _ => Phase.Idle)
      fun _ => Phase.Idle := by
  induction js with
  | nil => exact hφ
  | cons j js ih =>
    apply passes_follows_issue
    · rfl
    · exact fun _ _ => ih

theorem cancelJobsIn_follows (hφ : φ.Idle) (state : QueueState) :
    (cancelJobsIn state).Follows (guarded Permits Phase.next) φ (fun _ => Phase.Idle)
      fun _ => Phase.Idle := by
  apply passes_follows
  · rfl
  · exact fun _ => hφ
  intro r s
  dsimp only
  split
  · exact removeJobs_follows hφ _
  · exact hφ

theorem cancelBillingCycleJob_follows (hφ : φ.Idle) :
    cancelBillingCycleJob.Follows (guarded Permits Phase.next) φ (fun _ => Phase.Settled)
      fun _ => Phase.Settled := by
  apply follows_bind
  apply (cancelJobsIn_follows hφ .waiting).mono
  · intro _ ψ hψ
    apply follows_bind
    apply (cancelJobsIn_follows hψ .delayed).mono
    · intro _ χ hχ
      apply delGate_follows
      intro _ _
      apply passes_follows_issue
      · rfl
      · intro _ _ ho
        exact hχ.settled ho
    · exact fun _ _ hχ => hχ.settled
  · exact fun _ _ hψ => hψ.settled

theorem settled_run {p : CycleFlow α}
    (h : p.Follows (guarded Permits Phase.next) φ (fun _ => Phase.Settled)
      fun _ => Phase.Settled) :
    (p.run >>= fun _ => (.ret () : Prog Cmd Reply Store Unit)).Follows
      (guarded Permits Phase.next) φ fun _ => Phase.Settled := by
  apply Prog.follows_bind.2
  apply Prog.Follows.mono h
  intro x ψ hψ
  cases x with
  | _ => exact hψ

theorem idle_start : Phase.start.Idle := ⟨rfl, rfl⟩

theorem single_follows (hc : c.passes = true) :
    ((run c).run >>= fun _ => (.ret () : Prog Cmd Reply Store Unit)).Follows
      (guarded Permits Phase.next) Phase.start fun _ => Phase.Settled := by
  intro r s
  refine ⟨Phase.start, ?_, ?_⟩
  · rw [guarded_of (permits_of_passes hc), next_of_passes hc]
  · apply Prog.follows_bind.2
    cases r.ok <;> exact idle_start.settled

theorem prog_follows (q : Request) :
    (q.prog o).Follows (guarded Permits Phase.next) Phase.start fun _ => Phase.Settled := by
  cases q with
  | worker => exact settled_run (work_follows o)
  | schedule delayMs =>
    apply settled_run
    apply (scheduleBillingJob_follows idle_start.ready delayMs).mono
    · exact fun _ _ h => h.settled
    · exact fun _ _ h => h.settled
  | recover => exact settled_run (recoverBillingScheduleForCall_follows idle_start)
  | startup within => exact settled_run (verifyStartupCall_follows idle_start within)
  | cancel => exact settled_run (cancelBillingCycleJob_follows idle_start)
  | _ => exact single_follows rfl

end Phases

/-! ### The statement -/

/-- A cycle job of the call, and not the job `own`, is queued or active, or has started since its
jobs were `began`. -/
def Chained (own : Option ℕ) (began : List CycleJob) (s : Store) : Prop :=
  ∃ j ∈ s.jobs, own ≠ some j.id ∧
    (j.state ≠ .finished ∨ 0 < j.attempts ∧ ∀ k ∈ began, k.id = j.id → k.attempts < j.attempts)

/-- A call of `scheduleBillingJob` returns at the command, without a job of its own. -/
def skips (x : Phase × Event Cmd Reply Store) : Bool :=
  match x.2.cmd with
  | .setGate _ => !acquires x.2.ans x.2.before
  | _ => false

/-- **The chain is not lost.**  While the session is live, a call of `scheduleBillingJob` that
returns without a job leaves the call chained, and so does every one that has added its job, from
then on; and a run that has returned without an error of its own, and that owes a job to the result
of its tick or to such a call, has done the one or the other. -/
structure ChainKept (w : Watched Phase Cmd Reply Store) : Prop where
  skipped : ∀ x ∈ w.log, skips x = true → x.2.after.live = true →
    Chained x.1.own x.2.before.jobs x.2.after
  added : w.pool.store.live = true → ∀ φ ∈ w.phases, φ.added ≠ none →
    Chained φ.own φ.began w.pool.store
  returned : w.pool.store.live = true → ∀ (i : ℕ) (φ : Phase), w.phases[i]? = some φ →
    w.pool.procs[i]? = some (.ret ()) → φ.obliged = true → φ.failed = false →
    φ.skipped = true ∨ φ.added ≠ none

/-- The condition on a command, with the phase of the run that issues it.  Every `SET` of the gate
is carried out and answered, and finds a gate only when the run that set it has added its job; the
gate is deleted when a worker begins; a job is not given up while its gate is there; and a session
that has ended, after which jobs may be removed, stays so. -/
def Sound (x : Phase × Event Cmd Reply Store) : Prop :=
  match x.2.cmd with
  | .delGate => x.1.own ≠ none → x.1.cleared = false → x.2.ans.delivered = true
  | .setGate _ => x.2.ans.ok = true ∧ ∀ g ∈ x.2.before.gate, x.2.before.now < g.expiresAt →
      ∃ j ∈ x.2.before.jobs, j.id = g.jobId
  | .stall id => ∀ g ∈ x.2.before.gate, g.jobId = id →
      ∀ j ∈ x.2.before.jobs, j.id = id → j.stalls = 0
  | .remove _ => x.2.before.live = false
  | .setSession _ => x.2.after.live = true → x.2.before.live = true
  | _ => True

/-! ### What a command keeps -/

structure JobsKept (s : Store) : Prop where
  fresh : ∀ j ∈ s.jobs, j.id < s.nextId
  attempted : ∀ j ∈ s.jobs, j.state ≠ .queued → 0 < j.attempts
  drawn : ∀ g ∈ s.gate, g.jobId < s.nextId
  unfinished : ∀ g ∈ s.gate, ∀ j ∈ s.jobs, j.id = g.jobId → j.state ≠ .finished

structure Holds (s : Store) (φ : Phase) : Prop where
  own : ∀ id, φ.own = some id → id < s.nextId
  cleared : ∀ id, φ.own = some id → φ.cleared = true → ∀ g ∈ s.gate, g.jobId ≠ id
  gated : ∀ id, φ.gated = some id → id < s.nextId ∧ φ.own ≠ some id ∧ ∀ j ∈ φ.began, j.id ≠ id
  added : ∀ id, φ.added = some id → φ.gated = some id ∧ ∃ j ∈ s.jobs, j.id = id
  gone : φ.gone = false

/-- What a command leaves to the phases of the other runs. -/
structure Grows (s t : Store) : Prop where
  nextId : s.nextId ≤ t.nextId
  jobs : ∀ j ∈ s.jobs, ∃ k ∈ t.jobs, k.id = j.id
  gate : ∀ g ∈ t.gate, g ∈ s.gate ∨ s.nextId ≤ g.jobId

section Commands

variable {s t : Store} {φ : Phase} {c : Cmd} {r : Reply}

theorem grows_of_eq (hgate : t.gate = s.gate) (hjobs : t.jobs = s.jobs)
    (hnext : t.nextId = s.nextId) : Grows s t := by
  constructor
  · rw [hnext]
  · intro j hj
    rw [hjobs]
    exact ⟨j, hj, rfl⟩
  · intro g hg
    rw [hgate] at hg
    exact .inl hg

theorem grows_refl (s : Store) : Grows s s := grows_of_eq rfl rfl rfl

theorem JobsKept.of_eq (h : JobsKept s) (hgate : t.gate = s.gate) (hjobs : t.jobs = s.jobs)
    (hnext : t.nextId = s.nextId) : JobsKept t := by
  constructor
  · rw [hjobs, hnext]
    exact h.fresh
  · rw [hjobs]
    exact h.attempted
  · rw [hgate, hnext]
    exact h.drawn
  · rw [hgate, hjobs]
    exact h.unfinished

theorem Holds.grows (h : Holds s φ) (hst : Grows s t) : Holds t φ := by
  constructor
  · intro id hid
    exact lt_of_lt_of_le (h.own id hid) hst.nextId
  · intro id hid hcleared g hg
    rcases hst.gate g hg with hg | hg
    · exact h.cleared id hid hcleared g hg
    · have := h.own id hid
      omega
  · intro id hid
    obtain ⟨hlt, hrest⟩ := h.gated id hid
    exact ⟨lt_of_lt_of_le hlt hst.nextId, hrest⟩
  · intro id hid
    obtain ⟨hgated, j, hj, rfl⟩ := h.added id hid
    exact ⟨hgated, hst.jobs j hj⟩
  · exact h.gone

/-! #### A job changes -/

variable {f : CycleJob → CycleJob}

theorem mem_updateJob {k : CycleJob} (hk : k ∈ (s.updateJob id f).jobs) :
    k ∈ s.jobs ∨ ∃ j ∈ s.jobs, j.id = id ∧ k = f j := by
  obtain ⟨j, hj, rfl⟩ := List.mem_map.1 hk
  by_cases hid : j.id = id
  · exact .inr ⟨j, hj, hid, if_pos hid⟩
  · left
    rw [if_neg hid]
    exact hj

theorem grows_updateJob (hf : ∀ j, (f j).id = j.id) : Grows s (s.updateJob id f) := by
  refine ⟨le_refl _, fun j hj => ?_, fun g hg => .inl hg⟩
  refine ⟨_, List.mem_map_of_mem hj, ?_⟩
  split
  · exact hf j
  · rfl

theorem JobsKept.updateJob (h : JobsKept s) (hf : ∀ j, (f j).id = j.id)
    (hattempted : ∀ j ∈ s.jobs, j.id = id → (f j).state ≠ .queued → 0 < (f j).attempts)
    (hunfinished : ∀ g ∈ s.gate, g.jobId = id → ∀ j ∈ s.jobs, j.id = id →
      j.state ≠ .finished → (f j).state ≠ .finished) : JobsKept (s.updateJob id f) := by
  constructor
  · intro k hk
    rcases mem_updateJob hk with hk | ⟨j, hj, -, rfl⟩
    · exact h.fresh k hk
    · rw [hf]
      exact h.fresh j hj
  · intro k hk
    rcases mem_updateJob hk with hk | ⟨j, hj, hid, rfl⟩
    · exact h.attempted k hk
    · exact hattempted j hj hid
  · exact h.drawn
  · intro g hg k hk hkg
    rcases mem_updateJob hk with hk | ⟨j, hj, hid, rfl⟩
    · exact h.unfinished g hg k hk hkg
    · rw [hf] at hkg
      exact hunfinished g hg (hkg.symm.trans hid) j hj hid (h.unfinished g hg j hj hkg)

theorem start_id (j : CycleJob) : j.start.id = j.id := rfl

theorem finish_id (attempt : ℕ) (j : CycleJob) : (j.finish attempt).id = j.id := by
  unfold CycleJob.finish
  split <;> rfl

theorem stall_id (j : CycleJob) : j.stall.id = j.id := by
  unfold CycleJob.stall
  split
  · rfl
  · split <;> rfl

variable {j : CycleJob}

theorem finish_attempted {attempt : ℕ} (h : j.state ≠ .queued → 0 < j.attempts)
    (hq : (j.finish attempt).state ≠ .queued) : 0 < (j.finish attempt).attempts := by
  unfold CycleJob.finish at hq ⊢
  split at hq
  · rename_i hactive
    rw [if_pos hactive]
    apply h
    rw [hactive.1]
    exact fun h => nomatch h
  · rename_i hactive
    rw [if_neg hactive]
    exact h hq

theorem stall_attempted (h : j.state ≠ .queued → 0 < j.attempts) (hq : j.stall.state ≠ .queued) :
    0 < j.stall.attempts := by
  have hattempts : j.stall.attempts = j.attempts := by
    unfold CycleJob.stall
    split
    · rfl
    · split <;> rfl
  rw [hattempts]
  apply h
  intro hqueued
  apply hq
  have hstall : j.stall = j := if_pos (by rw [hqueued]; exact fun h => nomatch h)
  rw [hstall]
  exact hqueued

theorem stall_unfinished (h : j.state ≠ .finished) (hstalls : j.stalls = 0) :
    j.stall.state ≠ .finished := by
  unfold CycleJob.stall
  split
  · exact h
  · exact fun h => nomatch h

/-! #### The gate and the jobs -/

theorem mem_handed (hj : s.handed r = some j) : j ∈ s.jobs :=
  List.mem_of_find?_eq_some hj

theorem JobsKept.setGate (h : JobsKept s) (o : Setup) (delayMs : ℕ) :
    JobsKept (s.setGate o delayMs) := by
  unfold Store.setGate
  split
  · exact h
  · constructor
    · intro j hj
      exact Nat.lt_succ_of_lt (h.fresh j hj)
    · exact h.attempted
    · intro g hg
      cases hg
      exact Nat.lt_succ_self _
    · intro g hg j hj hid
      cases hg
      -- the id is new
      have hlt := h.fresh j hj
      rw [hid] at hlt
      exact (lt_irrefl _ hlt).elim

theorem grows_setGate (o : Setup) (delayMs : ℕ) : Grows s (s.setGate o delayMs) := by
  unfold Store.setGate
  split
  · exact grows_refl s
  · refine ⟨Nat.le_succ _, fun j hj => ⟨j, hj, rfl⟩, fun g hg => ?_⟩
    cases hg
    exact .inr (le_refl _)

theorem JobsKept.add (h : JobsKept s) (hid : id < s.nextId) (delayMs : ℕ) :
    JobsKept (s.add id delayMs) := by
  unfold Store.add
  split
  · exact h
  · have hcases : ∀ {P : CycleJob → Prop}, (∀ j ∈ s.jobs, P j) →
        P ⟨id, s.now + delayMs, .queued, 0, 0⟩ →
        ∀ j ∈ s.jobs ++ [(⟨id, s.now + delayMs, .queued, 0, 0⟩ : CycleJob)], P j := by
      intro P hjobs hnew j hj
      rcases mem_snoc.1 hj with hj | rfl
      · exact hjobs j hj
      · exact hnew
    constructor
    · exact hcases h.fresh hid
    · exact hcases h.attempted fun hq => (hq rfl).elim
    · exact h.drawn
    · intro g hg
      exact hcases (h.unfinished g hg) fun _ hf => nomatch hf

theorem grows_add (id delayMs : ℕ) : Grows s (s.add id delayMs) := by
  unfold Store.add
  split
  · exact grows_refl s
  · exact ⟨le_refl _, fun j hj => ⟨j, List.mem_append_left _ hj, rfl⟩, fun g hg => .inl hg⟩

theorem exists_add (id delayMs : ℕ) : ∃ j ∈ (s.add id delayMs).jobs, j.id = id := by
  unfold Store.add
  split
  · rename_i hany
    obtain ⟨j, hj, hid⟩ := List.any_eq_true.1 hany
    exact ⟨j, hj, beq_iff_eq.1 hid⟩
  · exact ⟨_, List.mem_concat_self, rfl⟩

/-! #### Every command -/

/-- A command that changes neither the gate nor the jobs. -/
def Cmd.inert : Cmd → Bool
  | .delHeartbeat | .tick | .exists | .touchHeartbeat | .claimSettlement | .finalize | .resolve
  | .reclaim | .getSession | .getGate | .getHeartbeat | .getJobs _ | .wait _ | .setSession _ => true
  | _ => false

theorem exec_of_inert (hc : c.inert = true) : (c.exec o r s).gate = s.gate ∧
    (c.exec o r s).jobs = s.jobs ∧ (c.exec o r s).nextId = s.nextId := by
  unfold Cmd.exec
  split
  · exact ⟨rfl, rfl, rfl⟩
  · cases c with
    | take | delGate | setGate | add | finish | remove | stall => cases hc
    | _ => exact ⟨rfl, rfl, rfl⟩

theorem exec_grows (hsound : Sound (φ, ⟨s, c, r, c.exec o r s⟩)) (hlive : s.live = true) :
    Grows s (c.exec o r s) := by
  by_cases hc : c.inert = true
  · obtain ⟨hgate, hjobs, hnext⟩ := exec_of_inert (o := o) (r := r) (s := s) hc
    exact grows_of_eq hgate hjobs hnext
  unfold Cmd.exec
  split
  · exact grows_refl s
  cases c with
  | take =>
    dsimp only
    split
    · exact grows_updateJob start_id
    · exact grows_refl s
  | delGate => exact ⟨le_refl _, fun j hj => ⟨j, hj, rfl⟩, fun g hg => nomatch hg⟩
  | setGate delayMs => exact grows_setGate o delayMs
  | add id delayMs => exact grows_add id delayMs
  | finish id attempt => exact grows_updateJob (finish_id attempt)
  | stall id => exact grows_updateJob stall_id
  | remove id =>
    simp [show s.live = false from hsound] at hlive
  | _ => exact (hc rfl).elim

theorem exec_jobsKept (h : JobsKept s) (hφ : Holds s φ) (hpermits : Permits φ c)
    (hsound : Sound (φ, ⟨s, c, r, c.exec o r s⟩)) (hlive : s.live = true) :
    JobsKept (c.exec o r s) := by
  by_cases hc : c.inert = true
  · obtain ⟨hgate, hjobs, hnext⟩ := exec_of_inert (o := o) (r := r) (s := s) hc
    exact h.of_eq hgate hjobs hnext
  unfold Cmd.exec
  split
  · exact h
  cases c with
  | take =>
    dsimp only
    split
    · apply h.updateJob start_id
      · exact fun j _ _ _ => Nat.succ_pos _
      · exact fun _ _ _ _ _ _ _ hf => nomatch hf
    · exact h
  | delGate => exact ⟨h.fresh, h.attempted, fun g hg => (nomatch hg), fun g hg => nomatch hg⟩
  | setGate delayMs => exact h.setGate o delayMs
  | add id delayMs => exact h.add (hφ.gated id hpermits).1 delayMs
  | finish id attempt =>
    apply h.updateJob (finish_id attempt)
    · exact fun j hj _ => finish_attempted (h.attempted j hj)
    · -- the worker has deleted the gate of its job
      intro g hg hid
      exact (hφ.cleared id hpermits.1 hpermits.2 g hg hid).elim
  | stall id =>
    apply h.updateJob stall_id
    · exact fun j hj _ => stall_attempted (h.attempted j hj)
    · exact fun g hg hid j hj hj' hf => stall_unfinished hf (hsound g hg hid j hj hj')
  | remove id =>
    simp [show s.live = false from hsound] at hlive
  | _ => exact (hc rfl).elim

theorem delivered_of_ok (h : r.ok = true) : r.delivered = true := (Bool.and_eq_true_iff.1 h).1

theorem next_holds (h : JobsKept s) (hφ : Holds s φ) (hpermits : Permits φ c)
    (hsound : Sound (φ, ⟨s, c, r, c.exec o r s⟩)) (hlive : s.live = true) :
    Holds (c.exec o r s) (φ.next c r s) := by
  have hgrows := exec_grows (o := o) hsound hlive
  have hkept : Holds (c.exec o r s) φ := hφ.grows hgrows
  by_cases hpasses : c.passes = true
  · rw [next_of_passes hpasses]
    exact hkept
  cases c with
  | take =>
    refine ⟨fun id hid => ?_, fun _ _ hc => (nomatch hc), fun _ hc => (nomatch hc),
      fun _ hc => (nomatch hc), rfl⟩
    have hhanded : (if r.ok = true then (s.handed r).map CycleJob.id else none) = some id := hid
    split at hhanded
    · obtain ⟨j, hj, rfl⟩ := Option.map_eq_some_iff.1 hhanded
      exact lt_of_lt_of_le (h.fresh j (mem_handed hj)) hgrows.nextId
    · cases hhanded
  | delGate =>
    refine ⟨hkept.own, fun id hid _ g hg => ?_, hkept.gated, hkept.added, hkept.gone⟩
    by_cases hcleared : φ.cleared = true
    · exact hkept.cleared id hid hcleared g hg
    · have hown : φ.own ≠ none := by
        intro hnone
        have hid' : φ.own = some id := hid
        simp [hnone] at hid'
      have hdelivered : r.delivered = true := hsound hown (Bool.eq_false_of_not_eq_true hcleared)
      have hexec : Cmd.exec o .delGate r s = { s with gate := none } :=
        if_neg (by rw [hdelivered]; exact fun h => nomatch h)
      simp [hexec] at hg
  | tick => exact ⟨hkept.own, hkept.cleared, hkept.gated, hkept.added, hkept.gone⟩
  | «exists» =>
    refine ⟨hkept.own, hkept.cleared, hkept.gated, hkept.added, ?_⟩
    show (r.ok && s.session.isNone) = false
    cases hsession : s.session <;> simp_all [Store.live]
  | setGate delayMs =>
    refine ⟨hkept.own, hkept.cleared, fun id hid => ?_, fun _ hc => (nomatch hc), hkept.gone⟩
    have hgated : (if acquires r s = true then some s.nextId else none) = some id := hid
    split at hgated
    · rename_i hacquires
      cases hgated
      obtain ⟨hok, hfree⟩ := Bool.and_eq_true_iff.1 hacquires
      refine ⟨?_, fun hown => ?_, fun j hj hid' => ?_⟩
      · have hexec : Cmd.exec o (.setGate delayMs) r s = s.setGate o delayMs :=
          if_neg (by simp [delivered_of_ok hok])
        simp_all [Store.setGate]
      · exact lt_irrefl _ (hφ.own _ hown)
      · have hlt := h.fresh j hj
        rw [hid'] at hlt
        exact lt_irrefl _ hlt
    · cases hgated
  | add id delayMs =>
    show Holds _ (if r.ok = true then _ else _)
    split
    · rename_i hok
      refine ⟨hkept.own, hkept.cleared, hkept.gated, fun i hi => ?_, hkept.gone⟩
      obtain rfl : id = i := Option.some.inj hi
      have hexec : Cmd.exec o (.add id delayMs) r s = s.add id delayMs :=
        if_neg (by simp [delivered_of_ok hok])
      refine ⟨hpermits, ?_⟩
      rw [hexec]
      exact exists_add id delayMs
    · exact ⟨hkept.own, hkept.cleared, hkept.gated, hkept.added, hkept.gone⟩
  | finish => exact hkept
  | _ => exact (hpasses rfl).elim

theorem live_of_exec (hsound : Sound (φ, ⟨s, c, r, c.exec o r s⟩))
    (hlive : (c.exec o r s).live = true) : s.live = true := by
  cases c with
  | setSession session => exact hsound hlive
  | take =>
    unfold Cmd.exec at hlive
    dsimp only at hlive
    split at hlive
    · exact hlive
    · split at hlive <;> exact hlive
  | setGate delayMs =>
    unfold Cmd.exec Store.setGate at hlive
    dsimp only at hlive
    split at hlive
    · exact hlive
    · split at hlive <;> exact hlive
  | add id delayMs =>
    unfold Cmd.exec Store.add at hlive
    dsimp only at hlive
    split at hlive
    · exact hlive
    · split at hlive <;> exact hlive
  | _ =>
    unfold Cmd.exec at hlive
    dsimp only at hlive
    split at hlive <;> exact hlive

theorem chained_of_skips (h : JobsKept s) (hφ : Holds s φ) (hpermits : Permits φ c)
    (hsound : Sound (φ, ⟨s, c, r, c.exec o r s⟩))
    (hskips : skips (φ, ⟨s, c, r, c.exec o r s⟩) = true) :
    Chained φ.own s.jobs (c.exec o r s) := by
  cases c with
  | setGate delayMs =>
    obtain ⟨hok, hset⟩ := hsound
    have hgated : s.gated = true := by
      have hskips' : (!(r.ok && !s.gated)) = true := hskips
      rw [show r.ok = true from hok, Bool.true_and, Bool.not_not] at hskips'
      exact hskips'
    have hexec : Cmd.exec o (.setGate delayMs) r s = s := by
      have hdelivered : Cmd.exec o (.setGate delayMs) r s = s.setGate o delayMs :=
        if_neg (by rw [delivered_of_ok hok]; exact fun h => nomatch h)
      rw [hdelivered]
      exact if_pos hgated
    rw [hexec]
    obtain ⟨g, hg, hexpires⟩ : ∃ g ∈ s.gate, s.now < g.expiresAt := by
      unfold Store.gated at hgated
      cases hgate : s.gate <;> simp_all
    obtain ⟨j, hj, hid⟩ := hset g hg hexpires
    refine ⟨j, hj, fun hown => ?_, .inl (h.unfinished g hg j hj hid)⟩
    -- a worker that gets so far has deleted the gate of its own job
    have hcleared : φ.cleared = true := by
      apply hpermits
      rw [hown]
      exact fun h => nomatch h
    exact hφ.cleared _ hown hcleared g hg hid.symm
  | _ => cases hskips

theorem Holds.chained (hφ : Holds s φ) (h : JobsKept s) (hadded : φ.added ≠ none) :
    Chained φ.own φ.began s := by
  obtain ⟨id, hid⟩ := Option.ne_none_iff_exists'.1 hadded
  obtain ⟨hgated, j, hj, rfl⟩ := hφ.added id hid
  obtain ⟨-, hown, hbegan⟩ := hφ.gated _ hgated
  refine ⟨j, hj, hown, ?_⟩
  by_cases hstate : j.state = .finished
  · right
    refine ⟨h.attempted j hj ?_, fun k hk hkj => (hbegan k hk hkj).elim⟩
    rw [hstate]
    exact fun h => nomatch h
  · exact .inl hstate

end Commands

/-! ### Whole runs -/

def watch (o : Setup) (now : ℤ) (session : Option CycleSession) (ms : List (Move Request Reply)) :
    Watched Phase Cmd Reply Store :=
  (Watched.start (Store.start now session)).play Phase.next (fun _ => Phase.start) (Cmd.exec o)
    (Request.prog o) ms

structure Run (φs : List Phase) (l : List (Phase × Event Cmd Reply Store)) (s : Store) : Prop where
  skipped : ∀ x ∈ l, skips x = true → x.2.after.live = true →
    Chained x.1.own x.2.before.jobs x.2.after
  jobs : s.live = true → JobsKept s
  holds : s.live = true → ∀ φ ∈ φs, Holds s φ

theorem holds_start (s : Store) : Holds s Phase.start :=
  ⟨fun _ h => (nomatch h), fun _ h => (nomatch h), fun _ h => (nomatch h), fun _ h => (nomatch h),
    rfl⟩

theorem run_start (now : ℤ) (session : Option CycleSession) :
    Run [] [] (Store.start now session) where
  skipped := fun _ h => nomatch h
  jobs := fun _ => ⟨fun _ h => (nomatch h), fun _ h => (nomatch h), fun _ h => (nomatch h),
    fun _ h => (nomatch h)⟩
  holds := fun _ _ h => nomatch h

variable {l : List (Phase × Event Cmd Reply Store)}

theorem Run.spawn {φs : List Phase} {s : Store} (h : Run φs l s) :
    Run (φs ++ [Phase.start]) l s := by
  refine { h with holds := fun hlive φ hφ => ?_ }
  rcases mem_snoc.1 hφ with hφ | rfl
  · exact h.holds hlive φ hφ
  · exact holds_start s

theorem run_step {φs : List Phase} {s : Store} {i : ℕ} {φ : Phase} {r : Reply} (h : Run φs l s)
    (hi : φs[i]? = some φ) (hpermits : Permits φ c) (hsound : Sound (φ, ⟨s, c, r, c.exec o r s⟩)) :
    Run (φs.set i (φ.next c r s)) (l ++ [(φ, ⟨s, c, r, c.exec o r s⟩)]) (c.exec o r s) := by
  have hmem : φ ∈ φs := List.mem_of_getElem? hi
  constructor
  · apply Pool.forall_snoc h.skipped
    intro hskips hlive
    have hbefore := live_of_exec hsound hlive
    exact chained_of_skips (h.jobs hbefore) (h.holds hbefore φ hmem) hpermits hsound hskips
  · intro hlive
    have hbefore := live_of_exec hsound hlive
    exact exec_jobsKept (h.jobs hbefore) (h.holds hbefore φ hmem) hpermits hsound hbefore
  · intro hlive ψ hψ
    have hbefore := live_of_exec hsound hlive
    rcases List.mem_or_eq_of_mem_set hψ with hψ | rfl
    · exact (h.holds hbefore ψ hψ).grows (exec_grows hsound hbefore)
    · exact next_holds (h.jobs hbefore) (h.holds hbefore φ hmem) hpermits hsound hbefore

/-- **The chain of billing cycles is not lost**, in every run all of whose commands meet the
condition. -/
theorem chainKept_run (o : Setup) (now : ℤ) (session : Option CycleSession)
    (ms : List (Move Request Reply)) (hsound : ∀ x ∈ (watch o now session ms).log, Sound x) :
    ChainKept (watch o now session ms) := by
  obtain ⟨hphases, -, hrun⟩ := Watched.play_phased (fun φs l t => Run φs l t) Sound prog_follows
    (run_start now session) (fun _ _ _ _ h => h.spawn)
    (fun _ _ _ _ _ _ _ h hi hpermits hsound => run_step h hi hpermits hsound) ms hsound
  have hrun : Run (watch o now session ms).phases (watch o now session ms).log
    (watch o now session ms).pool.store := hrun
  constructor
  · exact hrun.skipped
  · intro hlive φ hφ
    exact (hrun.holds hlive φ hφ).chained (hrun.jobs hlive)
  · intro hlive i φ hφ hproc hobliged hfailed
    obtain ⟨ψ, hψ, hsettled⟩ := hphases.follows i _ hproc
    obtain rfl : φ = ψ := Option.mem_unique hφ hψ
    have hgone := (hrun.holds hlive φ (List.mem_of_getElem? hφ)).gone
    rcases hsettled hobliged with h | h | h
    · simp [hfailed] at h
    · simp [hgone] at h
    · exact h

/-! ### Runs of an active call -/

instance : DecidablePred Sound := fun x => by
  unfold Sound
  split <;> infer_instance

instance (own : Option ℕ) (began : List CycleJob) (s : Store) : Decidable (Chained own began s) :=
  inferInstanceAs (Decidable (∃ j ∈ s.jobs, own ≠ some j.id ∧ (j.state ≠ .finished ∨
    0 < j.attempts ∧ ∀ k ∈ began, k.id = j.id → k.attempts < j.attempts)))

/-- The settings that the code falls back to. -/
def defaults : Setup where
  intervalMs := 1000
  cycleLockDeferMs := 150
  chainHealStallMs := 7000
  cycleHealthWindowMs := 6000
  heartbeatTtlSeconds := 120
  adaptiveLagPolicyEnabled := false
  lagThresholdMs := 1500
  delayFactor := 3 / 2
  delayCapMs := 30000

def activeSession : CycleSession := ⟨some .active, 0, 0, some 1⟩

/-- An answer to a command that hands out the first job. -/
def answer (ok : Bool) : Reply := ⟨ok, ok, 0, .tickOk, true, true, false, false⟩

/-- The commands of one run, with whether each is carried out and answered. -/
def steps (i : ℕ) (answers : List Bool) : List (Move Request Reply) :=
  answers.map fun ok => .step i (answer ok)

/-- A job, the time that it is due at, and a worker whose tick is followed by the next job. -/
def twoCycles : List (Move Request Reply) :=
  [.spawn (.schedule 1000), .spawn (.wait 1000), .spawn .worker] ++ steps 0 [true, true, true] ++
    steps 1 [true] ++ steps 2 (List.replicate 8 true)

theorem chainKept_twoCycles :
    ChainKept (watch defaults 0 (some activeSession) twoCycles) ∧
      (watch defaults 0 (some activeSession) twoCycles).pool.store.jobs.map CycleJob.state =
        [.finished, .queued] :=
  ⟨chainKept_run _ _ _ _ (by decide +kernel), by decide +kernel⟩

/-- Of two calls, the first sets the gate; the second returns, and the first then adds no job. -/
def gateWithoutJob : List (Move Request Reply) :=
  [.spawn (.schedule 1000), .spawn (.schedule 1000)] ++ steps 0 [true] ++ steps 1 [true] ++
    steps 0 [false, true]

/-- A worker with a job meets the gate of a recovery that stops for good. -/
def stoppedRecovery : List (Move Request Reply) :=
  [.spawn (.schedule 1000), .spawn (.wait 8000), .spawn .worker, .spawn .recover] ++
    steps 0 [true, true, true] ++ steps 1 [true] ++ steps 3 [true, true, true, true] ++
    steps 2 [true, true, true] ++ steps 3 [true] ++ steps 2 [true, true, true]

theorem chain_lost :
    (¬ ChainKept (watch defaults 0 (some activeSession) gateWithoutJob) ∧
      (watch defaults 0 (some activeSession) gateWithoutJob).pool.store.live = true ∧
      (watch defaults 0 (some activeSession) gateWithoutJob).pool.store.jobs = []) ∧
    ¬ ChainKept (watch defaults 0 (some activeSession) stoppedRecovery) ∧
      (watch defaults 0 (some activeSession) stoppedRecovery).pool.store.live = true ∧
      (watch defaults 0 (some activeSession) stoppedRecovery).pool.store.jobs.map CycleJob.state =
        [.finished] := by
  refine ⟨⟨fun h => ?_, ?_, ?_⟩, fun h => ?_, ?_, ?_⟩
  · exact absurd h.skipped (by decide +kernel)
  · decide +kernel
  · decide +kernel
  · exact absurd h.skipped (by decide +kernel)
  · decide +kernel
  · decide +kernel

end VibemeetBackend.BillingQueue
