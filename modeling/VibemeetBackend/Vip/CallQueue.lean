import Mathlib.Data.String.Basic
import VibemeetBackend.CreatorReferral.Store
import VibemeetBackend.Redis.SortedSet

/-!
# The VIP call queue

`vip-call-queue.service.ts`: callers who wait for a busy creator.  An entry in Mongo holds the state of
a caller, and the sorted set of the creator in Redis the order; each operation writes the one and then
the other.

`isVipActive` is answered with anything; the `priority` of an entry, which is always `vip`, and the logs
are left out.
-/

namespace VibemeetBackend.Vip

open Async
open CreatorReferral (ObjectId)

/-! ### Entries -/

inductive CallQueueStatus where
  | waiting | ringing | expired | cancelled
  deriving DecidableEq

structure CallQueueEntry where
  id : ℕ
  creatorFirebaseUid : String
  callerFirebaseUid : String
  callerUserId : ObjectId
  enqueuedAt : ℤ
  expiresAt : ℤ
  status : CallQueueStatus
  callId : String

namespace CallQueueEntry

def pair (e : CallQueueEntry) : String × String := (e.creatorFirebaseUid, e.callerFirebaseUid)

def isWaiting (e : CallQueueEntry) : Bool := e.status == .waiting

def settle (p : CallQueueEntry → Bool) (status : CallQueueStatus) (e : CallQueueEntry) :
    CallQueueEntry :=
  if p e = true then { e with status } else e

end CallQueueEntry

/-- The collection: a creator has at most one waiting entry of a caller. -/
structure Entries where
  rows : List CallQueueEntry
  ids : rows.map CallQueueEntry.id = List.range rows.length
  waiting : ((rows.filter CallQueueEntry.isWaiting).map CallQueueEntry.pair).Nodup

namespace Entries

def empty : Entries := ⟨[], rfl, List.nodup_nil⟩

/-- `findOne({ creatorFirebaseUid, callerFirebaseUid, status: 'waiting' })`. -/
def findWaiting (es : Entries) (pair : String × String) : Option CallQueueEntry :=
  es.rows.find? fun e => e.isWaiting && e.pair == pair

variable {pair : String × String}

theorem findWaiting_eq_none {es : Entries} :
    es.findWaiting pair = none ↔
      pair ∉ (es.rows.filter CallQueueEntry.isWaiting).map CallQueueEntry.pair := by
  rw [findWaiting, List.find?_eq_none, List.mem_map]
  constructor
  · rintro h ⟨e, he, rfl⟩
    obtain ⟨hmem, hwaiting⟩ := List.mem_filter.1 he
    apply h e hmem
    simp [hwaiting]
  simp_all

/-- An insert of a waiting entry; a duplicate key changes nothing. -/
def create (es : Entries) (pair : String × String) (callerUserId : ObjectId)
    (enqueuedAt expiresAt : ℤ) (callId : String) : Entries :=
  if h : es.findWaiting pair = none then
    { rows := es.rows ++
        [⟨es.rows.length, pair.1, pair.2, callerUserId, enqueuedAt, expiresAt, .waiting, callId⟩]
      ids := by
        rw [List.map_append, es.ids, List.length_append]
        exact List.range_succ.symm
      waiting := by
        rw [List.filter_append, List.map_append]
        exact es.waiting.append (List.nodup_singleton pair)
          (List.disjoint_singleton.2 (findWaiting_eq_none.1 h)) }
  else es

theorem settle_pairs (p : CallQueueEntry → Bool) {status : CallQueueStatus}
    (hstatus : status ≠ .waiting) (rows : List CallQueueEntry) :
    (((rows.map (CallQueueEntry.settle p status)).filter CallQueueEntry.isWaiting).map
      CallQueueEntry.pair).Sublist
        ((rows.filter CallQueueEntry.isWaiting).map CallQueueEntry.pair) := by
  induction rows with
  | nil => exact List.Sublist.slnil
  | cons e rows ih =>
    rw [List.map_cons]
    by_cases hp : p e = true
    · have hsettled : (CallQueueEntry.settle p status e).isWaiting = false := by
        rw [CallQueueEntry.settle, if_pos hp]
        exact beq_eq_false_iff_ne.2 hstatus
      rw [List.filter_cons_of_neg (by rw [hsettled]; exact Bool.false_ne_true)]
      apply ih.trans
      apply List.Sublist.map
      exact (List.sublist_cons_self e rows).filter _
    · rw [CallQueueEntry.settle, if_neg hp]
      by_cases hw : e.isWaiting = true
      · rw [List.filter_cons_of_pos hw, List.filter_cons_of_pos hw]
        exact ih.cons_cons _
      · simpa [List.filter_cons_of_neg hw] using ih

def settle (es : Entries) (p : CallQueueEntry → Bool) (status : CallQueueStatus)
    (hstatus : status ≠ .waiting) : Entries where
  rows := es.rows.map (CallQueueEntry.settle p status)
  ids := by
    rw [List.map_map, List.length_map, ← es.ids]
    apply List.map_congr_left
    intro e _
    show (CallQueueEntry.settle p status e).id = e.id
    unfold CallQueueEntry.settle
    split <;> rfl
  waiting := (settle_pairs p hstatus es.rows).nodup es.waiting

variable {es : Entries} {e d : CallQueueEntry}

theorem eq_of_id (he : e ∈ es.rows) (hd : d ∈ es.rows) (h : e.id = d.id) : e = d := by
  have hnodup : (es.rows.map CallQueueEntry.id).Nodup := by
    rw [es.ids]
    exact List.nodup_range
  exact List.inj_on_of_nodup_map hnodup he hd h

theorem eq_of_pair (he : e ∈ es.rows) (hd : d ∈ es.rows) (hwe : e.isWaiting = true)
    (hwd : d.isWaiting = true) (h : e.pair = d.pair) : e = d :=
  List.inj_on_of_nodup_map es.waiting (List.mem_filter.2 ⟨he, hwe⟩) (List.mem_filter.2 ⟨hd, hwd⟩) h

theorem mem_create {u : ObjectId} {enqueuedAt expiresAt : ℤ} {callId : String}
    (h : e ∈ (es.create pair u enqueuedAt expiresAt callId).rows) :
    e ∈ es.rows ∨ (es.findWaiting pair = none ∧ e.pair = pair) := by
  unfold create at h
  split at h
  · rename_i hnone
    rcases mem_snoc.1 h with h | rfl
    · exact .inl h
    · exact .inr ⟨hnone, rfl⟩
  · exact .inl h

theorem create_mem {u : ObjectId} {enqueuedAt expiresAt : ℤ} {callId : String} (h : e ∈ es.rows) :
    e ∈ (es.create pair u enqueuedAt expiresAt callId).rows := by
  unfold create
  split
  · exact List.mem_append_left _ h
  · exact h

variable {p : CallQueueEntry → Bool} {status : CallQueueStatus}

theorem mem_settle {hstatus : status ≠ .waiting} (h : e ∈ (es.settle p status hstatus).rows) (hw : e.isWaiting = true) :
    e ∈ es.rows ∧ p e = false := by
  obtain ⟨e', he', rfl⟩ := List.mem_map.1 h
  by_cases hp : p e' = true
  · rw [CallQueueEntry.settle, if_pos hp] at hw
    exact absurd (beq_iff_eq.1 hw) hstatus
  · rw [CallQueueEntry.settle, if_neg hp]
    exact ⟨he', Bool.eq_false_iff.2 hp⟩

theorem settle_mem (hstatus : status ≠ .waiting) (he : e ∈ es.rows)
    (h : p e = true ∨ e.isWaiting = false) :
    ∃ e' ∈ (es.settle p status hstatus).rows, e'.id = e.id ∧ e'.isWaiting = false := by
  refine ⟨e.settle p status, List.mem_map_of_mem he, ?_, ?_⟩
  · unfold CallQueueEntry.settle
    split <;> rfl
  · unfold CallQueueEntry.settle
    split
    · exact beq_eq_false_iff_ne.2 hstatus
    · rename_i hp
      exact h.resolve_left hp

end Entries

/-! ### The store -/

structure Store where
  now : ℤ
  entries : Entries
  /-- The sorted set of each creator, `call:queue:…`. -/
  queue : String → Redis.Key String

namespace Store

/-- The score of a caller in the sorted set of a creator. -/
def score (s : Store) (pair : String × String) : Option ℤ := (s.queue pair.1).score s.now pair.2

/-- What `getQueuePosition` reports. -/
def position (s : Store) (pair : String × String) : ℕ :=
  match (s.queue pair.1).zrank s.now pair.2 with
  | none => 0
  | some rank => rank + 1

def setQueue (s : Store) (creatorFirebaseUid : String) (k : Redis.Key String) : Store :=
  { s with queue := Function.update s.queue creatorFirebaseUid k }

/-- What a pop's update finds. -/
def ringable (s : Store) (pair : String × String) (date : ℤ) : Option CallQueueEntry :=
  s.entries.rows.find? fun e => e.isWaiting && e.pair == pair && decide (date < e.expiresAt)

def stale (s : Store) (date : ℤ) : List CallQueueEntry :=
  s.entries.rows.filter fun e => e.isWaiting && decide (e.expiresAt ≤ date)

end Store

/-! ### Commands -/

inductive Emitted where
  | queued (creatorFirebaseUid : String) (position : ℕ) (callId : String) (entryId : ℕ)
  | dequeued (creatorFirebaseUid : String) (entryId : ℕ)

inductive Cmd where
  | clock
  | isVipActive (userId : ObjectId)
  | findWaiting (pair : String × String)
  | create (pair : String × String) (callerUserId : ObjectId) (enqueuedAt expiresAt : ℤ)
      (callId : String)
  | zadd (pair : String × String) (score : ℤ)
  | expire (creatorFirebaseUid : String) (ttl : ℕ)
  | zrank (pair : String × String)
  | zrange (creatorFirebaseUid : String)
  | zrem (pair : String × String)
  /-- `updateMany` of a caller who leaves. -/
  | cancel (pair : String × String)
  /-- `findOneAndUpdate` of a pop. -/
  | ring (pair : String × String) (date : ℤ)
  | findStale (date : ℤ)
  /-- `updateMany` of a sweep. -/
  | expireStale (date : ℤ)
  | emit (callerFirebaseUid : String) (event : Emitted)
  | tick (ms : ℕ)

structure Reply where
  delivered : Bool
  answered : Bool
  /-- What `isVipActive` returns. -/
  vip : Bool

def Reply.ok (r : Reply) : Bool := r.delivered && r.answered

def Cmd.exec (c : Cmd) (r : Reply) (s : Store) : Store :=
  if r.delivered = false then s
  else
    match c with
    | .clock | .isVipActive _ | .findWaiting _ | .zrank _ | .zrange _ | .findStale _ | .emit .. => s
    | .create pair callerUserId enqueuedAt expiresAt callId =>
      { s with entries := s.entries.create pair callerUserId enqueuedAt expiresAt callId }
    | .zadd pair score => s.setQueue pair.1 ((s.queue pair.1).zadd s.now score pair.2)
    | .expire creator ttl => s.setQueue creator ((s.queue creator).expire s.now (ttl * 1000))
    | .zrem pair => s.setQueue pair.1 ((s.queue pair.1).zrem s.now pair.2)
    | .cancel pair =>
      { s with
        entries := s.entries.settle (fun e => e.isWaiting && e.pair == pair) .cancelled (by decide) }
    | .ring pair date =>
      match s.ringable pair date with
      | some found =>
        { s with entries := s.entries.settle (fun e => e.id == found.id) .ringing (by decide) }
      | none => s
    | .expireStale date =>
      { s with
        entries := s.entries.settle (fun e => e.isWaiting && decide (e.expiresAt ≤ date)) .expired
          (by decide) }
    | .tick ms => { s with now := s.now + ms }

/-! ### Operations -/

structure Config where
  vipPriorityQueueEnabled : Bool
  /-- `VIP_QUEUE_TTL_SEC`. -/
  queueTtlSec : ℕ

abbrev QueueFlow (α : Type) : Type := Flow Cmd Reply Store α

def run (c : Cmd) : QueueFlow (Reply × Store) := Flow.call Reply.ok "command failed" c

/-- `Date.now()`. -/
def clock : QueueFlow ℤ := do
  let (_, s) ← run .clock
  pure s.now

def getQueuePosition (creatorFirebaseUid callerFirebaseUid : String) : QueueFlow ℕ := do
  let (_, s) ← run (.zrank (creatorFirebaseUid, callerFirebaseUid))
  pure (s.position (creatorFirebaseUid, callerFirebaseUid))

structure EnqueueInput where
  creatorFirebaseUid : String
  callerFirebaseUid : String
  callerUserId : ObjectId
  callId : String

def EnqueueInput.pair (input : EnqueueInput) : String × String :=
  (input.creatorFirebaseUid, input.callerFirebaseUid)

/-- The entry is made, the caller added, and the key renewed. -/
def enqueueNew (cfg : Config) (input : EnqueueInput) (score expiresAt : ℤ) :
    QueueFlow (ℕ × ℕ) := do
  let enqueuedAt ← clock
  let (_, s) ← run (.create input.pair input.callerUserId enqueuedAt expiresAt input.callId)
  if (s.entries.findWaiting input.pair).isSome = true then throw "E11000 duplicate key error"
  else do
    let entryId := s.entries.rows.length
    let _ ← run (.zadd input.pair score)
    let _ ← run (.expire input.creatorFirebaseUid cfg.queueTtlSec)
    let position ← getQueuePosition input.creatorFirebaseUid input.callerFirebaseUid
    let _ ← run (.emit input.callerFirebaseUid
      (.queued input.creatorFirebaseUid position input.callId entryId))
    pure (position, entryId)

def enqueueVipCaller (cfg : Config) (input : EnqueueInput) : QueueFlow (Option (ℕ × ℕ)) :=
  if cfg.vipPriorityQueueEnabled = false then pure none
  else do
    let (r, _) ← run (.isVipActive input.callerUserId)
    if r.vip = false then pure none
    else do
      let score ← clock
      let now ← clock
      let (_, s) ← run (.findWaiting input.pair)
      match s.entries.findWaiting input.pair with
      | some existing => do
        let position ← getQueuePosition input.creatorFirebaseUid input.callerFirebaseUid
        pure (some (position, existing.id))
      | none => do
        let result ← enqueueNew cfg input score (now + cfg.queueTtlSec * 1000)
        pure (some result)

def leaveCallQueue (creatorFirebaseUid callerFirebaseUid : String) : QueueFlow Unit := do
  let _ ← run (.zrem (creatorFirebaseUid, callerFirebaseUid))
  let _ ← run (.cancel (creatorFirebaseUid, callerFirebaseUid))
  pure ()

structure Popped where
  callerFirebaseUid : String
  callerUserId : ObjectId
  entryId : ℕ
  deriving DecidableEq

def popNextQueuedCaller (cfg : Config) (creatorFirebaseUid : String) :
    QueueFlow (Option Popped) :=
  if cfg.vipPriorityQueueEnabled = false then pure none
  else do
    let (_, s) ← run (.zrange creatorFirebaseUid)
    match (s.queue creatorFirebaseUid).first s.now with
    | none => pure none
    | some callerFirebaseUid => do
      let _ ← run (.zrem (creatorFirebaseUid, callerFirebaseUid))
      let date ← clock
      let (_, s) ← run (.ring (creatorFirebaseUid, callerFirebaseUid) date)
      match s.ringable (creatorFirebaseUid, callerFirebaseUid) date with
      | none => pure none
      | some entry => do
        let _ ← run (.emit callerFirebaseUid (.dequeued creatorFirebaseUid entry.id))
        pure (some ⟨callerFirebaseUid, entry.callerUserId, entry.id⟩)

/-- The loop over the stale entries. -/
def zremAll : List CallQueueEntry → QueueFlow Unit
  | [] => pure ()
  | entry :: stale => do
    let _ ← run (.zrem (entry.creatorFirebaseUid, entry.callerFirebaseUid))
    zremAll stale

def expireStaleQueueEntries : QueueFlow ℕ := do
  let now ← clock
  let (_, s) ← run (.findStale now)
  zremAll (s.stale now)
  let (_, s) ← run (.expireStale now)
  pure (s.stale now).length

inductive Request where
  | enqueue (input : EnqueueInput)
  | leave (creatorFirebaseUid callerFirebaseUid : String)
  | pop (creatorFirebaseUid : String)
  | expireStale
  | tick (ms : ℕ)

def program (cfg : Config) : Request → Prog Cmd Reply Store Unit
  | .enqueue input => (enqueueVipCaller cfg input).run >>= fun _ => .ret ()
  | .leave creator caller => (leaveCallQueue creator caller).run >>= fun _ => .ret ()
  | .pop creator => (popNextQueuedCaller cfg creator).run >>= fun _ => .ret ()
  | .expireStale => expireStaleQueueEntries.run >>= fun _ => .ret ()
  | .tick ms => .act (.tick ms) fun _ _ => .ret ()

end VibemeetBackend.Vip
