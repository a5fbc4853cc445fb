import VibemeetBackend.Async.Watch
import VibemeetBackend.Vip.CallQueue

/-!
# The caller in hand

An operation of the call queue writes to one of the two stores and then to the other.  Between the two
it has a caller in hand, of whom only one of the stores knows.
-/

namespace VibemeetBackend.Vip

open Async Flow

/-! ### Operations -/

def Request.sweeps : Request → Bool
  | .expireStale => true
  | _ => false

/-- The request, the last read of the clock, the caller in hand, and the entry that a pop has found. -/
structure Phase where
  q : Request
  readAt : Option ℤ
  hand : Option (String × String)
  rung : Option ℕ

def Phase.start (q : Request) : Phase := ⟨q, none, none, none⟩

/-- A caller is in hand from the making of his entry to the `zadd`, and from the `zrem` of a pop or a
leave to its update. -/
def Phase.after (φ : Phase) (c : Cmd) (s : Store) : Phase :=
  match c with
  | .clock => { φ with readAt := some s.now }
  | .create pair .. =>
    if (s.entries.findWaiting pair).isSome = true then φ else { φ with hand := some pair }
  | .zrem pair => if φ.q.sweeps = true then φ else { φ with hand := some pair }
  | .zadd .. | .cancel _ => { φ with hand := none }
  | .ring pair date => { φ with hand := none, rung := (s.ringable pair date).map (·.id) }
  | .emit _ (.dequeued ..) => { φ with rung := none }
  | _ => φ

def Phase.next (φ : Phase) (c : Cmd) (r : Reply) (s : Store) : Phase :=
  if r.delivered = false then φ else φ.after c s

theorem next_delivered {φ : Phase} {c : Cmd} {r : Reply} {s : Store} (hr : r.delivered = true) :
    φ.next c r s = φ.after c s := by
  simp [Phase.next, hr]

def Allows (φ : Phase) : Cmd → Prop
  | .create .. | .zrem _ => φ.hand = none
  | .zadd pair _ | .cancel pair => φ.hand = some pair
  | .ring pair date => φ.hand = some pair ∧ φ.readAt = some date
  | .emit _ (.dequeued _ entryId) => φ.rung = some entryId
  | _ => True

section protocol

variable {φ : Phase} {α : Type} {Q : α → Phase → Prop}

abbrev QueueFollows (φ : Phase) (p : QueueFlow α) (Q : α → Phase → Prop) : Prop :=
  Follows (guarded Allows Phase.next) φ p Q fun _ _ => True

theorem follows_run {c : Cmd} {f : Reply × Store → QueueFlow α} (hc : Allows φ c)
    (h : ∀ r s, QueueFollows (φ.after c s) (f (r, s)) Q) : QueueFollows φ (run c >>= f) Q := by
  simp_all [Reply.ok, run, Phase.next]

def Phase.at (φ : Phase) (now : ℤ) : Phase := { φ with readAt := some now }

theorem follows_clock {f : ℤ → QueueFlow α} (h : ∀ now, QueueFollows (φ.at now) (f now) Q) :
    QueueFollows φ (clock >>= f) Q := by
  apply follows_bind
  exact follows_run (c := .clock) trivial fun _ s => h s.now

theorem getQueuePosition_follows (creator caller : String) :
    QueueFollows φ (getQueuePosition creator caller) fun _ φ' => φ' = φ := by
  exact follows_run (c := .zrank _) trivial fun _ _ => rfl

variable (cfg : Config)

theorem enqueueNew_follows (input : EnqueueInput) (score expiresAt : ℤ) (hφ : φ.hand = none) :
    QueueFollows φ (enqueueNew cfg input score expiresAt) fun _ _ => True := by
  apply follows_clock
  intro enqueuedAt
  have hhand : (φ.at enqueuedAt).hand = none := hφ
  apply follows_run (c := .create ..) hhand
  intro _ s
  dsimp only
  split
  · trivial
  rename_i hnone
  have hafter : (φ.at enqueuedAt).after
      (.create input.pair input.callerUserId enqueuedAt expiresAt input.callId) s =
        { φ.at enqueuedAt with hand := some input.pair } := if_neg hnone
  simp_all [run, Allows, getQueuePosition]

theorem enqueueVipCaller_follows (input : EnqueueInput) (hφ : φ.hand = none) :
    QueueFollows φ (enqueueVipCaller cfg input) fun _ _ => True := by
  unfold enqueueVipCaller
  split
  · trivial
  apply follows_run (c := .isVipActive _) trivial
  intro r _
  dsimp only
  split
  · trivial
  apply follows_clock
  intro score
  apply follows_clock
  intro now
  apply follows_run (c := .findWaiting _) trivial
  intro _ s
  split
  · apply follows_bind
    apply Follows.mono (getQueuePosition_follows _ _)
    · intro _ _ _
      trivial
    · intro _ _ _
      trivial
  · have hhand : ((φ.at score).at now).hand = none := hφ
    apply follows_bind
    apply Follows.mono (enqueueNew_follows cfg input score _ hhand)
    · intro _ _ _
      trivial
    · intro _ _ _
      trivial

theorem leaveCallQueue_follows (creator caller : String) (hφ : φ.hand = none)
    (hq : φ.q.sweeps = false) :
    QueueFollows φ (leaveCallQueue creator caller) fun _ _ => True := by
  apply follows_run (c := .zrem _) hφ
  intro _ s
  have hafter : φ.after (.zrem (creator, caller)) s = { φ with hand := some (creator, caller) } := by
    rw [Phase.after, hq]
    rfl
  simp_all [run, Allows]

theorem popNextQueuedCaller_follows (creator : String) (hφ : φ.hand = none)
    (hq : φ.q.sweeps = false) :
    QueueFollows φ (popNextQueuedCaller cfg creator) fun _ _ => True := by
  unfold popNextQueuedCaller
  split
  · trivial
  apply follows_run (c := .zrange _) trivial
  intro _ s
  dsimp only
  split
  · trivial
  rename_i caller _
  apply follows_run (c := .zrem _) hφ
  intro _ s₁
  have hafter : φ.after (.zrem (creator, caller)) s₁ =
      { φ with hand := some (creator, caller) } := by
    rw [Phase.after, hq]
    rfl
  show QueueFollows (φ.after (.zrem (creator, caller)) s₁) _ _
  rw [hafter]
  apply follows_clock
  intro date
  apply follows_run
  · show some (creator, caller) = some (creator, caller) ∧ some date = some date
    exact ⟨rfl, rfl⟩
  intro _ s₂
  split
  · trivial
  rename_i entry hentry
  refine follows_run (c := .emit _ (.dequeued ..)) ?_ fun _ _ => trivial
  show (s₂.ringable (creator, caller) date).map (·.id) = some entry.id
  rw [hentry]
  rfl

theorem zremAll_follows (stale : List CallQueueEntry) (hφ : φ.hand = none)
    (hq : φ.q.sweeps = true) : QueueFollows φ (zremAll stale) fun _ φ' => φ' = φ := by
  induction stale with
  | nil => exact rfl
  | cons entry stale ih =>
    apply follows_run (c := .zrem _) hφ
    intro _ s
    have hafter : φ.after (.zrem (entry.creatorFirebaseUid, entry.callerFirebaseUid)) s = φ :=
      if_pos hq
    rw [hafter]
    exact ih

theorem expireStaleQueueEntries_follows (hφ : φ.hand = none) (hq : φ.q.sweeps = true) :
    QueueFollows φ expireStaleQueueEntries fun _ _ => True := by
  apply follows_clock
  intro now
  apply follows_run (c := .findStale _) trivial
  intro _ s
  have hφ' : (φ.at now).hand = none := hφ
  apply follows_bind
  apply Follows.mono (zremAll_follows (s.stale now) hφ' hq)
  · simp [Allows, run]
  · intro _ _ _
    trivial

theorem program_follows (q : Request) :
    (program cfg q).Follows (guarded Allows Phase.next) (.start q) fun _ _ => True := by
  cases q with
  | enqueue input => exact Follows.run (enqueueVipCaller_follows cfg input rfl)
  | leave creator caller => exact Follows.run (leaveCallQueue_follows creator caller rfl rfl)
  | pop creator => exact Follows.run (popNextQueuedCaller_follows cfg creator rfl rfl)
  | expireStale => exact Follows.run (expireStaleQueueEntries_follows rfl rfl)
  | tick ms => exact fun r s => ⟨_, guarded_of trivial, trivial⟩

end protocol

end VibemeetBackend.Vip
