import VibemeetBackend.Async.Lease

/-!
# The lease locks of the backend

`acquireDistributedLock` of `distributed-lock.ts`, the cycle lock of the billing tick, the settle lock
of the finalizer and the lock of `finalizeCallEnd`.  The first three delete the key with a script
that compares the token and renew it with `SET key token XX`, which compares nothing; the last is
never renewed, and deleted with a plain `DEL`.
-/

namespace VibemeetBackend.Locks

open Async

def billingCycleLockHeartbeatMs : ℕ := 500

def defaultBillingCycleLockTtlMs : ℕ := 3500

def minBillingCycleLockTtlMs : ℕ := billingCycleLockHeartbeatMs * 2

def maxBillingCycleLockTtlMs : ℕ := 10000

def readBillingCycleLockTtlMs (raw : Option ℤ) : ℕ :=
  match raw with
  | none => defaultBillingCycleLockTtlMs
  | some n => min maxBillingCycleLockTtlMs (max minBillingCycleLockTtlMs n.toNat)

def settleLockTtlSeconds : ℕ := 120

def finalizeLockTtlSeconds : ℕ := 45

/-- The lock of a call or a job, with what its code can choose. -/
inductive LockUse where
  /-- `acquireDistributedLock`, with its `ttlMs` and `heartbeat`. -/
  | distributed (ttlMs : ℕ) (heartbeat : Bool)
  /-- `_processBillingCycleInternal`, with `BILLING_CYCLE_LOCK_TTL_MS`. -/
  | billingCycle (raw : Option ℤ)
  /-- `finalizeCallSession` and `settleCall`. -/
  | settle
  /-- `finalizeCallEnd`. -/
  | callEndFinalize

/-- How each lock is used. -/
def LockUse.lease : LockUse → LeaseLock
  | .distributed ttlMs heartbeat => { ttlMs, renews := heartbeat, comparesToken := true }
  | .billingCycle raw =>
    { ttlMs := readBillingCycleLockTtlMs raw, renews := true, comparesToken := true }
  | .settle => { ttlMs := settleLockTtlSeconds * 1000, renews := true, comparesToken := true }
  | .callEndFinalize =>
    { ttlMs := finalizeLockTtlSeconds * 1000, renews := false, comparesToken := false }

def LockUse.run (lock : LockUse) (is : List LeaseStep) : List (LeaseState × LeaseStep) :=
  stepLog (leaseStep lock.lease) .start is

def LeaseExclusive (lock : LockUse) (is : List LeaseStep) : Prop :=
  ∀ e ∈ lock.run is, Exclusive lock.lease e

/-- What a lock must be told in time: a heartbeat, except for the finalize lock, and the release of the
finalize lock. -/
def InTimeFor (lock : LockUse) (e : LeaseState × LeaseStep) : Prop :=
  match lock, e.2 with
  | .distributed _ false, _ => True
  | .callEndFinalize, .release c => e.1.phase c = .holding → e.1.InTime c
  | .callEndFinalize, _ => True
  | _, .heartbeat c => e.1.phase c = .holding → e.1.InTime c
  | _, _ => True

theorem timely_iff_inTimeFor (lock : LockUse) (e : LeaseState × LeaseStep) :
    Timely lock.lease e ↔ InTimeFor lock e := by
  obtain ⟨s, step⟩ := e
  have hflag : ∀ (b : Bool) (P Q : Prop), (P → b = b → Q) ↔ (P → Q) := by simp
  have hunset : ∀ P Q : Prop, (P → false = true → Q) ↔ True := by simp
  have hcompared : ∀ P Q : Prop, (P → true = false → Q) ↔ True := by simp
  cases step with
  | acquire c | crash c | wait ms =>
    cases lock with
    | distributed ttlMs heartbeat => cases heartbeat <;> exact Iff.rfl
    | billingCycle raw | settle | callEndFinalize => exact Iff.rfl
  | heartbeat c =>
    cases lock with
    | distributed ttlMs heartbeat => cases heartbeat <;> first | exact hflag _ _ _ | exact hunset _ _
    | billingCycle raw | settle => exact hflag _ _ _
    | callEndFinalize => exact hunset _ _
  | release c =>
    cases lock with
    | distributed ttlMs heartbeat => cases heartbeat <;> exact hcompared _ _
    | billingCycle raw | settle => exact hcompared _ _
    | callEndFinalize => exact hflag _ _ _

/-- **The locks are exclusive** in the runs in which every heartbeat, and every release of the finalize
lock, comes while the client's lease runs or while the key is free. -/
theorem leaseExclusive_iff (lock : LockUse) (is : List LeaseStep) :
    LeaseExclusive lock is ↔ ∀ e ∈ lock.run is, InTimeFor lock e := by
  refine (exclusive_iff_timely lock.lease is).trans ?_
  exact forall_congr' fun e => imp_congr_right fun _ => timely_iff_inTimeFor lock e

/-- A late heartbeat of a billing tick replaces the token of the next tick, and a late release of
`finalizeCallEnd` deletes the lock of the next one. -/
theorem late_steps_not_exclusive :
    ¬ LeaseExclusive (.billingCycle none) [.acquire 0, .wait 3500, .acquire 1, .heartbeat 0] ∧
      ¬ LeaseExclusive .callEndFinalize [.acquire 0, .wait 45000, .acquire 1, .release 0] := by
  refine ⟨fun h => ?_, fun h => ?_⟩
  · have hbeat := h _ (.tail _ (.tail _ (.tail _ (.head _)))) ⟨1, 7000⟩ (by decide) (by decide)
    revert hbeat
    decide
  · have hdel := h _ (.tail _ (.tail _ (.tail _ (.head _)))) ⟨1, 90000⟩ (by decide) (by decide)
    revert hdel
    decide

end VibemeetBackend.Locks
