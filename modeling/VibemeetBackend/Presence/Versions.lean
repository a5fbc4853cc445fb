import Mathlib.Data.List.MinMax
import VibemeetBackend.Async.Watch
import VibemeetBackend.Presence.Transition

/-!
# The versions of a creator's presence

A call reads a version, takes a clock, and writes the greater of the two later on; whoever wrote in
between, or the expiry of the key that was read, is not noticed.
-/

namespace VibemeetBackend.Presence

open Async Flow

/-! ### What a call knows -/

structure CallPhase where
  landed : Option Transition
  emitted : Bool

namespace CallPhase

def start : CallPhase := ⟨none, false⟩

def next (φ : CallPhase) (c : PresenceCmd) (r : PresenceReply) (_ : PresenceStore) : CallPhase :=
  match c with
  | .exec t => if r.delivered then ⟨some t, false⟩ else φ
  | .emit _ => { φ with emitted := true }
  | _ => φ

def Owes (φ : CallPhase) (record : CreatorPresenceRecord) : Prop :=
  φ.emitted = false ∧ ∃ t, φ.landed = some t ∧ t.announced = true ∧ t.nextRecord = record

end CallPhase

def CallAllows (φ : CallPhase) : PresenceCmd → Prop
  | .exec t => φ.emitted = false ∧ ∀ t', φ.landed = some t' → t' = t
  | .emit record => ∃ t, φ.landed = some t ∧ t.nextRecord = record
  | _ => True

abbrev PresenceEvent : Type := CallPhase × Async.Event PresenceCmd PresenceReply PresenceStore

variable {c : PresenceCmd} {t : Transition}

/-! ### The calls follow the protocol -/

section protocol

variable {α β : Type} {φ : CallPhase} {Q : α → CallPhase → Prop}

abbrev CallFollows (φ : CallPhase) (p : PresenceFlow α) (Q : α → CallPhase → Prop) : Prop :=
  Follows (guarded CallAllows CallPhase.next) φ p Q fun _ _ => True

/-- The commands that say nothing about a transition. -/
def PresenceCmd.Plain : PresenceCmd → Prop
  | .exec _ | .emit _ => False
  | _ => True

theorem PresenceCmd.Plain.allows (hc : c.Plain) : CallAllows φ c := by
  cases c <;> first | exact hc.elim | trivial

theorem PresenceCmd.Plain.next (hc : c.Plain) (r : PresenceReply) (s : PresenceStore) :
    φ.next c r s = φ := by
  cases c <;> first | exact hc.elim | rfl

variable {f : PresenceReply × PresenceStore → PresenceFlow α}

theorem query_bind (hc : c.Plain) (h : ∀ r s, CallFollows φ (f (r, s)) Q) :
    CallFollows φ (query c >>= f) Q := by
  apply follows_guarded_bind hc.allows
  · intro _ _
    trivial
  · intro r s _
    rw [hc.next]
    exact h r s

theorem issue_bind (hc : CallAllows φ c) (h : ∀ r s, CallFollows (φ.next c r s) (f (r, s)) Q) :
    CallFollows φ (issue c >>= f) Q :=
  fun r s => ⟨_, guarded_of hc, h r s⟩

theorem dateNow_bind {f : ℤ → PresenceFlow α} (h : ∀ now, CallFollows φ (f now) Q) :
    CallFollows φ (dateNow >>= f) Q :=
  fun r _ => ⟨_, guarded_of trivial, h r.now⟩

theorem call_bind {p : PresenceFlow β} {f : β → PresenceFlow α} {R : β → CallPhase → Prop}
    (hp : CallFollows φ p R) (hf : ∀ b φ', R b φ' → CallFollows φ' (f b) Q) :
    CallFollows φ (p >>= f) Q := by
  apply follows_bind
  apply Follows.mono hp
  · exact hf
  · intro _ _ _
    trivial

theorem writePresence_follows {attempts : ℕ} (he : φ.emitted = false)
    (ht : ∀ t', φ.landed = some t' → t' = t) :
    CallFollows φ (writePresence t attempts) fun _ φ' => φ' = ⟨some t, false⟩ := by
  induction attempts generalizing φ with
  | zero => exact follows_throw trivial
  | succ attempts ih =>
    apply issue_bind
    · exact ⟨he, ht⟩
    intro r s
    dsimp only
    split
    · rename_i hok
      apply follows_pure
      exact if_pos (Bool.and_eq_true_iff.1 hok).1
    · show CallFollows (if r.delivered then _ else φ) _ _
      split
      · apply ih rfl
        intro t' ht'
        exact (Option.some.inj ht').symm
      · exact ih he ht

theorem emitCreatorStatus_follows (hφ : φ.landed = some t) :
    CallFollows φ (emitCreatorStatus t) fun _ _ => True := by
  unfold emitCreatorStatus
  split
  · apply call_bind (R := fun _ φ' => φ' = φ)
    · simp [creatorSummary, CallAllows, CallPhase.next, query]
    · rintro _ φ' rfl
      apply issue_bind
      · exact ⟨t, hφ, rfl⟩
      intro _ _
      exact follows_pure trivial
  · exact follows_pure trivial

variable (cfg : PresenceConfig)

theorem applyTransition_follows (t : Transition) :
    CallFollows .start (applyTransition cfg t) fun _ _ => True := by
  apply call_bind (R := fun _ φ' => φ' = .start)
  · simp [heartbeatTtlSkip, CallAllows, CallPhase.next, query]
  rintro skip φ' rfl
  split
  · exact follows_pure trivial
  apply call_bind (writePresence_follows rfl fun t' (ht' : none = some t') => nomatch ht')
  rintro _ φ' rfl
  apply query_bind
  · trivial
  intro _ _
  apply query_bind
  · trivial
  intro _ _
  apply query_bind
  · trivial
  intro _ _
  apply call_bind (emitCreatorStatus_follows rfl)
  intro _ _ _
  exact follows_pure trivial

theorem transition_follows (eventType : PresenceTransitionEventType) (source : String) :
    CallFollows .start (transitionCreatorPresence cfg eventType source) fun _ _ => True := by
  apply call_bind (R := fun _ φ' => φ' = .start)
  · apply query_bind
    · trivial
    intro _ _
    apply dateNow_bind
    intro _
    apply dateNow_bind
    intro _
    exact follows_pure rfl
  rintro current φ' rfl
  apply call_bind (R := fun _ φ' => φ' = .start)
  · unfold reconcileSlot
    split
    · apply query_bind
      · trivial
      intro _ _
      exact follows_pure rfl
    · exact follows_pure rfl
  rintro _ φ' rfl
  apply query_bind
  · trivial
  intro _ _
  apply dateNow_bind
  intro now
  exact applyTransition_follows cfg _

theorem getBatch_follows (healTarget : Bool) :
    CallFollows .start (getBatchCreatorPresence cfg healTarget) fun _ _ => True := by
  apply issue_bind
  · trivial
  intro _ _
  apply issue_bind
  · trivial
  intro _ _
  apply issue_bind
  · trivial
  intro _ _
  dsimp only
  split
  · apply dateNow_bind
    intro _
    apply dateNow_bind
    intro _
    apply dateNow_bind
    intro _
    split
    · apply call_bind (R := fun _ _ => True)
      · apply dateNow_bind
        intro now
        apply issue_bind
        · trivial
        intro _ _
        exact follows_pure trivial
      · intro _ _ _
        exact follows_pure trivial
    · exact follows_pure trivial
  · exact follows_throw trivial

theorem presenceProgram_follows (q : PresenceRequest) :
    (presenceProgram cfg q).Follows (guarded CallAllows CallPhase.next) .start
      fun _ _ => True := by
  cases q with
  | transition eventType source => exact Follows.run (transition_follows cfg eventType source)
  | getBatch healTarget => exact Follows.run (getBatch_follows cfg healTarget)
  | _ => exact fun r s => ⟨_, guarded_of trivial, trivial⟩

end protocol

/-! ### The condition -/

/-- What a call read or the time that it took is not behind any version that was persisted; and an
attempt after one that took effect finds nothing persisted since. -/
def Timely (x : PresenceEvent) : Prop :=
  match x.2.cmd with
  | .exec t => x.2.ans.delivered = true →
    if x.1.landed = some t then x.2.before.persisted.getLast? = some t.persisted
    else ∀ p ∈ x.2.before.persisted,
      p.version ≤ t.current.version ∨ p.version < syntheticFallbackVersion t.now
  | .setMeta _ now => x.2.ans.delivered = true →
    ∀ p ∈ x.2.before.persisted, p.version < syntheticFallbackVersion now
  | _ => True

def Quiet (x : PresenceEvent) : Prop :=
  match x.2.cmd with
  | .exec t => x.2.ans.delivered = true → x.1.landed = none → t.announced = false →
    ∃ q, x.2.before.records.getLast? = some q ∧ q.state = t.nextState
  | _ => True

/-- What is written has a new highest version, or is what was written last by an attempt of the same
call. -/
def Rising (x : PresenceEvent) : Prop :=
  match x.2.cmd with
  | .exec t => x.2.ans.delivered = true →
    if x.1.landed = some t then x.2.before.persisted.getLast? = some t.persisted
    else ∀ p ∈ x.2.before.persisted, p.version < t.persisted.version
  | .setMeta base now => x.2.ans.delivered = true →
    ∀ p ∈ x.2.before.persisted, p.version < Persisted.version ⟨healedMeta base now, none⟩
  | _ => True

theorem timely_iff (x : PresenceEvent) : Rising x ↔ Timely x := by
  unfold Rising Timely
  split
  · apply imp_congr_right
    intro _
    split
    · exact Iff.rfl
    · apply forall₂_congr
      intro p _
      show p.version < max (_ + 1) _ ↔ _
      rw [lt_max_iff, Int.lt_add_one_iff]
  · exact Iff.rfl
  · exact Iff.rfl

/-! ### What was persisted -/

namespace PresenceStore

variable (s : PresenceStore) {p : Persisted}

@[simp] theorem persist_getLast (p : Persisted) :
    (s.persist p).persisted.getLast? = some p := by
  unfold persist
  split
  · assumption
  · exact List.getLast?_concat

variable {s}

theorem persisted_of_last (h : s.persisted.getLast? = some p) :
    (s.persist p).persisted = s.persisted := if_pos h

theorem persisted_of_lt (h : ∀ q ∈ s.persisted, q.version < p.version) :
    (s.persist p).persisted = s.persisted ++ [p] := by
  apply if_neg
  intro hlast
  exact (h p (List.mem_of_getLast? hlast)).false

theorem records_snoc_some {record : CreatorPresenceRecord} (hr : p.record = some record) :
    (s.persisted ++ [p]).filterMap Persisted.record = s.records ++ [record] := by
  rw [List.filterMap_append, List.filterMap_cons, hr]
  rfl

theorem records_snoc_none (hr : p.record = none) :
    (s.persisted ++ [p]).filterMap Persisted.record = s.records := by
  rw [List.filterMap_append, List.filterMap_cons, hr]
  exact List.append_nil _

theorem records_getLast {record : CreatorPresenceRecord} (h : s.persisted.getLast? = some p)
    (hr : p.record = some record) : s.records.getLast? = some record := by
  obtain ⟨before, hsplit⟩ := List.getLast?_eq_some_iff.1 h
  simp [records, hsplit, hr]

end PresenceStore

structure Stored (s : PresenceStore) : Prop where
  metadata : ∀ m, s.metadata = some m → ∃ p, s.persisted.getLast? = some p ∧ p.metadata = m
  presence : ∀ record, s.presence = some record → s.records.getLast? = some record

namespace Stored

variable {s s' : PresenceStore}

theorem start : Stored .start where
  metadata _ hm := nomatch hm
  presence _ hr := nomatch hr

theorem drop (h : Stored s) (hp : s'.persisted = s.persisted)
    (hm : ∀ m, s'.metadata = some m → s.metadata = some m)
    (hr : ∀ record, s'.presence = some record → s.presence = some record) : Stored s' where
  metadata m hm' := by
    rw [hp]
    exact h.metadata m (hm m hm')
  presence record hr' := by
    rw [PresenceStore.records, hp]
    exact h.presence record (hr record hr')

theorem transition (t : Transition) (hp : s'.persisted = (s.persist t.persisted).persisted)
    (hm : s'.metadata = some t.nextMeta) (hr : s'.presence = some t.nextRecord) : Stored s' := by
  have hlast : s'.persisted.getLast? = some t.persisted := by
    simp [hp]
  constructor
  · intro m hm'
    exact ⟨_, hlast, Option.mem_unique hm hm'⟩
  · intro record hr'
    exact PresenceStore.records_getLast hlast (hr.symm.trans hr')

theorem heal (h : Stored s) {m : CreatorPresenceMeta}
    (hlt : ∀ q ∈ s.persisted, q.version < Persisted.version ⟨m, none⟩) :
    Stored (s.persist ⟨m, none⟩) where
  metadata m' hm' := ⟨_, s.persist_getLast _, Option.some.inj hm'⟩
  presence record hr := by
    rw [PresenceStore.records, PresenceStore.persisted_of_lt hlt,
      PresenceStore.records_snoc_none rfl]
    exact h.presence record hr

end Stored

/-- What was persisted rises, and each record of it is broadcast, or a call is about to do so, or it
has the state of the one before. -/
structure Announcing (φs : List CallPhase) (s : PresenceStore) : Prop where
  rising : s.persisted.Pairwise fun p q => p.version < q.version
  stamped : ∀ p ∈ s.persisted, ∀ record, p.record = some record → record.version = p.version
  sent : ∀ record ∈ s.broadcast, record ∈ s.records
  landed : ∀ φ ∈ φs, ∀ t, φ.landed = some t → t.nextRecord ∈ s.records
  known : Along (fun before record => record ∈ s.broadcast ∨
    (∃ φ ∈ φs, φ.Owes record) ∨
    ∃ q, before.getLast? = some q ∧ q.state = record.state) s.records

variable {φs : List CallPhase}

theorem mem_set_of_mem {i : ℕ} {φ φ' ψ : CallPhase} (hi : φs[i]? = some φ) (h : φ' ∈ φs) :
    φ' = φ ∨ φ' ∈ φs.set i ψ := by
  obtain ⟨j, hj⟩ := List.mem_iff_getElem?.1 h
  by_cases hij : j = i
  · subst hij
    exact Or.inl (Option.mem_unique hj hi)
  · right
    apply List.mem_iff_getElem?.2
    exact ⟨j, (List.getElem?_set_ne (Ne.symm hij)).trans hj⟩

namespace Announcing

variable {φs : List CallPhase} {s s' : PresenceStore} {φ : CallPhase} {i : ℕ}

theorem start : Announcing [] .start where
  rising := List.Pairwise.nil
  stamped _ hp := nomatch hp
  sent _ hr := nomatch hr
  landed _ hφ := nomatch hφ
  known := along_nil

theorem spawn (h : Announcing φs s) : Announcing (φs ++ [.start]) s := by
  refine { h with landed := ?_, known := ?_ }
  · apply Pool.forall_snoc h.landed
    intro t ht
    cases ht
  · intro before record after hsplit
    rcases h.known before record after hsplit with hb | ⟨φ, hφ, ho⟩ | hq
    · exact Or.inl hb
    · exact Or.inr (Or.inl ⟨φ, List.mem_append_left _ hφ, ho⟩)
    · exact Or.inr (Or.inr hq)

theorem congr (h : Announcing φs s) (hp : s'.persisted = s.persisted)
    (hb : s'.broadcast = s.broadcast) : Announcing φs s' := by
  have hr : s'.records = s.records := congrArg (List.filterMap Persisted.record) hp
  constructor
  case rising => rw [hp]; exact h.rising
  case stamped => rw [hp]; exact h.stamped
  case sent => rw [hb, hr]; exact h.sent
  case landed => rw [hr]; exact h.landed
  case known => rw [hb, hr]; exact h.known

theorem rising_snoc (h : Announcing φs s) {p : Persisted}
    (hlt : ∀ q ∈ s.persisted, q.version < p.version) :
    (s.persisted ++ [p]).Pairwise fun p q => p.version < q.version := by
  apply List.pairwise_append.2
  refine ⟨h.rising, List.pairwise_singleton _ _, ?_⟩
  intro q hq p' hp'
  rw [List.mem_singleton.1 hp']
  exact hlt q hq

theorem stamped_snoc (h : Announcing φs s) {p : Persisted}
    (hv : ∀ record, p.record = some record → record.version = p.version) :
    ∀ q ∈ s.persisted ++ [p], ∀ record, q.record = some record → record.version = q.version := by
  exact Pool.forall_snoc h.stamped hv

theorem heal (h : Announcing φs s) {p : Persisted} (hr : p.record = none)
    (hlt : ∀ q ∈ s.persisted, q.version < p.version) (hp : s'.persisted = s.persisted ++ [p])
    (hb : s'.broadcast = s.broadcast) : Announcing φs s' := by
  have hrecords : s'.records = s.records := by
    rw [PresenceStore.records, hp]
    exact PresenceStore.records_snoc_none hr
  constructor
  case rising => rw [hp]; exact h.rising_snoc hlt
  case stamped =>
    rw [hp]
    apply h.stamped_snoc
    intro record hrec
    exact nomatch hr.symm.trans hrec
  case sent => rw [hb, hrecords]; exact h.sent
  case landed => rw [hrecords]; exact h.landed
  case known => rw [hb, hrecords]; exact h.known

theorem transition (h : Announcing φs s) (hi : φs[i]? = some φ) (hφ : φ.landed = none)
    (t : Transition) (hlt : ∀ q ∈ s.persisted, q.version < t.persisted.version)
    (hquiet : t.announced = false → ∃ q, s.records.getLast? = some q ∧ q.state = t.nextState)
    (hp : s'.persisted = s.persisted ++ [t.persisted]) (hb : s'.broadcast = s.broadcast) :
    Announcing (φs.set i ⟨some t, false⟩) s' := by
  have hrecords : s'.records = s.records ++ [t.nextRecord] := by
    rw [PresenceStore.records, hp]
    exact PresenceStore.records_snoc_some rfl
  constructor
  case rising => rw [hp]; exact h.rising_snoc hlt
  case stamped =>
    rw [hp]
    apply h.stamped_snoc
    intro record hrec
    rw [← Option.some.inj hrec]
    rfl
  case sent =>
    intro record hr
    rw [hb] at hr
    rw [hrecords]
    exact List.mem_append_left _ (h.sent record hr)
  case landed =>
    intro φ' hφ' t' ht'
    rw [hrecords]
    rcases List.mem_or_eq_of_mem_set hφ' with hφ' | rfl
    · exact List.mem_append_left _ (h.landed φ' hφ' t' ht')
    · simp [← Option.some.inj ht']
  case known =>
    rw [hrecords, hb, along_snoc]
    constructor
    · intro before record after hsplit
      rcases h.known before record after hsplit with hsent | ⟨φ', hφ', ho⟩ | hq
      · exact Or.inl hsent
      · right; left
        rcases mem_set_of_mem hi hφ' with rfl | hset
        · -- the call itself had nothing persisted
          obtain ⟨-, t', ht', -⟩ := ho
          exact nomatch hφ.symm.trans ht'
        · exact ⟨φ', hset, ho⟩
      · exact Or.inr (Or.inr hq)
    · right
      cases ha : t.announced with
      | true => exact Or.inl ⟨_, Pool.mem_set_self hi, rfl, t, rfl, ha, rfl⟩
      | false => exact Or.inr (hquiet ha)

theorem emit (h : Announcing φs s) (hi : φs[i]? = some φ) (hφ : φ.landed = some t)
    (hp : s'.persisted = s.persisted) (hb : s'.broadcast = s.broadcast ++ [t.nextRecord]) :
    Announcing (φs.set i { φ with emitted := true }) s' := by
  have hr : s'.records = s.records := congrArg (List.filterMap Persisted.record) hp
  have hmem : φ ∈ φs := List.mem_of_getElem? hi
  constructor
  case rising => rw [hp]; exact h.rising
  case stamped => rw [hp]; exact h.stamped
  case sent =>
    intro record hrecord
    rw [hb] at hrecord
    rw [hr]
    rcases List.mem_append.1 hrecord with hrecord | hrecord
    · exact h.sent record hrecord
    · rw [List.mem_singleton.1 hrecord]
      exact h.landed φ hmem t hφ
  case landed =>
    intro φ' hφ' t' ht'
    rw [hr]
    rcases List.mem_or_eq_of_mem_set hφ' with hφ' | rfl
    · exact h.landed φ' hφ' t' ht'
    · exact h.landed φ hmem t' ht'
  case known =>
    rw [hr, hb]
    intro before record after hsplit
    rcases h.known before record after hsplit with hsent | ⟨φ', hφ', ho⟩ | hq
    · exact Or.inl (List.mem_append_left _ hsent)
    · rcases mem_set_of_mem hi hφ' with rfl | hset
      · obtain ⟨-, t', ht', -, hrec⟩ := ho
        obtain rfl := Option.mem_unique hφ ht'
        left
        simp [← hrec]
      · exact Or.inr (Or.inl ⟨φ', hset, ho⟩)
    · exact Or.inr (Or.inr hq)

end Announcing

/-! ### Clients -/

def receive (last : Option CreatorPresenceRecord) (event : CreatorPresenceRecord) :
    Option CreatorPresenceRecord :=
  match last with
  | none => some event
  | some l => if l.version < event.version then some event else some l

def clientState (events : List CreatorPresenceRecord) : Option CreatorPresenceRecord :=
  events.foldl receive none

theorem clientState_eq_argmax (events : List CreatorPresenceRecord) :
    clientState events = events.argmax CreatorPresenceRecord.version := by
  have hreceive : receive = List.argAux fun b c : CreatorPresenceRecord =>
      c.version < b.version := by
    funext last event
    cases last <;> rfl
  rw [clientState, hreceive]
  rfl

theorem exists_last_sent {records broadcast : List CreatorPresenceRecord}
    {last : CreatorPresenceRecord}
    (h : Along (fun before record => record ∈ broadcast ∨
      ∃ q, before.getLast? = some q ∧ q.state = record.state) records)
    (hlast : records.getLast? = some last) :
    ∃ before b after, records = before ++ b :: after ∧ b ∈ broadcast ∧ b.state = last.state ∧
      ∀ r ∈ after, r ∉ broadcast := by
  induction records using List.reverseRecOn generalizing last with
  | nil => cases hlast
  | append_singleton rs r ih =>
    rw [List.getLast?_concat] at hlast
    cases hlast
    obtain ⟨hrs, hr⟩ := along_snoc.1 h
    by_cases hsent : r ∈ broadcast
    · exact ⟨rs, r, [], rfl, hsent, rfl, fun _ hr => nomatch hr⟩
    · obtain ⟨q, hq, hstate⟩ := hr.resolve_left hsent
      obtain ⟨before, b, after, hsplit, hb, hbstate, hafter⟩ := ih hrs hq
      refine ⟨before, b, after ++ [r], ?_, hb, hbstate.trans hstate, ?_⟩
      · rw [hsplit, List.append_assoc, List.cons_append]
      · exact Pool.forall_snoc hafter hsent

namespace Announcing

variable {φs : List CallPhase} {s : PresenceStore}

theorem records_rising (h : Announcing φs s) :
    s.records.Pairwise fun r r' => r.version < r'.version := by
  apply List.pairwise_filterMap.2
  apply List.Pairwise.imp_of_mem _ h.rising
  intro p q hp hq hlt r hr r' hr'
  rw [h.stamped p hp r hr, h.stamped q hq r' hr']
  exact hlt

theorem client (h : Announcing φs s) (howes : ∀ φ ∈ φs, ∀ record, ¬ φ.Owes record)
    {last : CreatorPresenceRecord} (hlast : s.records.getLast? = some last)
    {events : List CreatorPresenceRecord} (hperm : events.Perm s.broadcast) :
    ∃ e, clientState events = some e ∧ e.state = last.state := by
  have hknown : Along (fun before record => record ∈ s.broadcast ∨
      ∃ q, before.getLast? = some q ∧ q.state = record.state) s.records := by
    intro before record after hsplit
    rcases h.known before record after hsplit with hsent | ⟨φ, hφ, ho⟩ | hq
    · exact Or.inl hsent
    · exact absurd ho (howes φ hφ record)
    · exact Or.inr hq
  obtain ⟨before, b, after, hsplit, hb, hstate, hafter⟩ := exists_last_sent hknown hlast
  have hrising := h.records_rising
  rw [hsplit, List.pairwise_append] at hrising
  rw [clientState_eq_argmax]
  cases he : events.argmax CreatorPresenceRecord.version with
  | none =>
    rw [List.argmax_eq_none] at he
    rw [he] at hperm
    simp [← hperm.nil_eq] at hb
  | some e =>
    have hle := List.le_of_mem_argmax (hperm.mem_iff.2 hb) he
    have hsent := hperm.mem_iff.1 (List.argmax_mem he)
    have hmem := h.sent e hsent
    rw [hsplit, List.mem_append, List.mem_cons] at hmem
    -- the newest event is the last record that was broadcast
    rcases hmem with hmem | rfl | hmem
    · exact absurd (hrising.2.2 e hmem b List.mem_cons_self) (not_lt_of_ge hle)
    · exact ⟨e, rfl, hstate⟩
    · exact absurd hsent (hafter e hmem)

end Announcing

/-! ### Runs -/

def watchedPresence (cfg : PresenceConfig) (ms : List (Move PresenceRequest PresenceReply)) :
    Watched CallPhase PresenceCmd PresenceReply PresenceStore :=
  (Watched.start .start).play CallPhase.next (fun _ => .start) PresenceCmd.effect
    (presenceProgram cfg) ms

structure VersionsRise (s : PresenceStore) : Prop where
  rising : s.persisted.Pairwise fun p q => p.version < q.version
  distinct : ∀ p ∈ s.persisted, ∀ q ∈ s.persisted, p.version = q.version → p = q
  metadata : ∀ m, s.metadata = some m → ∃ p ∈ s.persisted, p.metadata = m ∧
    ∀ q ∈ s.persisted, q.version ≤ p.version
  presence : ∀ record, s.presence = some record → record ∈ s.records ∧
    ∀ r ∈ s.records, r.version ≤ record.version
  sent : ∀ record ∈ s.broadcast, record ∈ s.records

/-- Whatever the order in which a client gets the broadcasts, it ends in the stored state. -/
def ClientsAgree (s : PresenceStore) : Prop :=
  ∀ events : List CreatorPresenceRecord, events.Perm s.broadcast →
    ∀ record, s.presence = some record →
      ∃ e, clientState events = some e ∧ e.state = record.state

theorem le_getLast {α : Type} {f : α → ℤ} {l : List α} {a b : α}
    (h : l.Pairwise fun x y => f x < f y) (ha : l.getLast? = some a) (hb : b ∈ l) : f b ≤ f a := by
  obtain ⟨before, rfl⟩ := List.getLast?_eq_some_iff.1 ha
  rcases List.mem_append.1 hb with hb | hb
  · exact ((List.pairwise_append.1 h).2.2 b hb a List.mem_cons_self).le
  · rw [List.mem_singleton.1 hb]

theorem Announcing.versionsRise {s : PresenceStore} (h : Announcing φs s) (hs : Stored s) :
    VersionsRise s where
  rising := h.rising
  distinct := by
    intro p hp q hq heq
    by_contra hne
    have hkeys := List.Pairwise.forall_of_forall_of_flip
      (R := fun p q : Persisted => p ≠ q → p.version ≠ q.version)
      (fun _ _ hself => absurd rfl hself) (h.rising.imp fun hlt _ => hlt.ne)
      (h.rising.imp fun hlt _ => hlt.ne')
    exact hkeys hp hq hne heq
  metadata := by
    intro m hm
    obtain ⟨p, hlast, hpm⟩ := hs.metadata m hm
    exact ⟨p, List.mem_of_getLast? hlast, hpm, fun q hq => le_getLast h.rising hlast hq⟩
  presence := by
    intro record hr
    have hlast := hs.presence record hr
    exact ⟨List.mem_of_getLast? hlast, fun r hr => le_getLast h.records_rising hlast hr⟩
  sent := h.sent

theorem set_same {i : ℕ} {φ : CallPhase} (hi : φs[i]? = some φ) : φs.set i φ = φs := by
  obtain ⟨hlt, rfl⟩ := List.getElem?_eq_some_iff.1 hi
  exact List.set_getElem_self hlt

section step

variable {φs : List CallPhase} {s : PresenceStore} {i : ℕ} {φ : CallPhase} {r : PresenceReply}

theorem exec_step (h : Announcing φs s) (hi : φs[i]? = some φ) (hA : CallAllows φ (.exec t))
    (hd : r.delivered = true)
    (hrise : Rising (φ, ⟨s, .exec t, r, PresenceCmd.effect (.exec t) r s⟩))
    (hquiet : Quiet (φ, ⟨s, .exec t, r, PresenceCmd.effect (.exec t) r s⟩)) {s' : PresenceStore}
    (hp : s'.persisted = (s.persist t.persisted).persisted) (hb : s'.broadcast = s.broadcast) :
    Announcing (φs.set i ⟨some t, false⟩) s' := by
  have hrise := hrise hd
  by_cases hown : φ.landed = some t
  · -- an attempt after one that took effect
    have hφ : φ = ⟨some t, false⟩ := by
      obtain ⟨landed, emitted⟩ := φ
      obtain rfl : landed = some t := hown
      obtain rfl : emitted = false := hA.1
      rfl
    have hlast : s.persisted.getLast? = some t.persisted := (if_pos hown).mp hrise
    rw [hφ] at hi
    rw [set_same hi]
    exact h.congr (hp.trans (PresenceStore.persisted_of_last hlast)) hb
  · have hlt : ∀ p ∈ s.persisted, p.version < t.persisted.version := (if_neg hown).mp hrise
    have hnone : φ.landed = none := by
      cases hl : φ.landed with
      | none => rfl
      | some t' => exact absurd (hl.trans (congrArg some (hA.2 t' hl))) hown
    exact h.transition hi hnone t hlt (hquiet hd hnone)
      (hp.trans (PresenceStore.persisted_of_lt hlt)) hb

theorem presence_step (h : Announcing φs s ∧ Stored s) (hi : φs[i]? = some φ)
    (hA : CallAllows φ c)
    (hG : Timely (φ, ⟨s, c, r, c.effect r s⟩) ∧ Quiet (φ, ⟨s, c, r, c.effect r s⟩)) :
    Announcing (φs.set i (φ.next c r s)) (c.effect r s) ∧ Stored (c.effect r s) := by
  obtain ⟨hA', hS⟩ := h
  have hrise := (timely_iff _).2 hG.1
  cases c with
  | exec t =>
    cases hd : r.delivered with
    | false =>
      have hφ : φ.next (.exec t) r s = φ := if_neg (Bool.eq_false_iff.1 hd)
      have hs : PresenceCmd.effect (.exec t) r s = s := if_neg (Bool.eq_false_iff.1 hd)
      rw [hφ, hs, set_same hi]
      exact ⟨hA', hS⟩
    | true =>
      have hφ : φ.next (.exec t) r s = ⟨some t, false⟩ := if_pos hd
      have hs : PresenceCmd.effect (.exec t) r s = { s.persist t.persisted with
          availability := some t.nextBase, presence := some t.nextRecord } := if_pos hd
      rw [hφ]
      constructor
      · apply exec_step hA' hi hA hd hrise hG.2
        · rw [hs]
        · rw [hs]
          rfl
      · rw [hs]
        exact Stored.transition t rfl rfl rfl
  | setMeta base now =>
    show Announcing (φs.set i φ) _ ∧ Stored _
    rw [set_same hi]
    cases hd : r.delivered with
    | false =>
      have hs : PresenceCmd.effect (.setMeta base now) r s = s := if_neg (Bool.eq_false_iff.1 hd)
      rw [hs]
      exact ⟨hA', hS⟩
    | true =>
      have hs : PresenceCmd.effect (.setMeta base now) r s =
          s.persist ⟨healedMeta base now, none⟩ := if_pos hd
      have hlt := hrise hd
      rw [hs]
      exact ⟨hA'.heal rfl hlt (PresenceStore.persisted_of_lt hlt) rfl, hS.heal hlt⟩
  | emit record =>
    obtain ⟨t, ht, rfl⟩ := hA
    exact ⟨hA'.emit hi ht rfl rfl, hS.drop rfl (fun _ => id) fun _ => id⟩
  | clearCreatorActiveCallSlotIfStale =>
    show Announcing (φs.set i φ) _ ∧ Stored _
    rw [set_same hi]
    unfold PresenceCmd.effect
    dsimp only
    split
    · exact ⟨hA'.congr rfl rfl, hS.drop rfl (fun _ => id) fun _ => id⟩
    · exact ⟨hA', hS⟩
  | expire key =>
    show Announcing (φs.set i φ) _ ∧ Stored _
    rw [set_same hi]
    cases key with
    | availability => exact ⟨hA'.congr rfl rfl, hS.drop rfl (fun _ => id) fun _ => id⟩
    | presence =>
      exact ⟨hA'.congr rfl rfl, hS.drop rfl (fun _ => id) fun _ hr => nomatch hr⟩
    | metadata =>
      exact ⟨hA'.congr rfl rfl, hS.drop rfl (fun _ hm => nomatch hm) fun _ => id⟩
  | setAvailability base | setActiveCall callId =>
    show Announcing (φs.set i φ) _ ∧ Stored _
    rw [set_same hi]
    exact ⟨hA'.congr rfl rfl, hS.drop rfl (fun _ => id) fun _ => id⟩
  | clock | mget | getAvailability | getMeta | getActiveCall | ttl | outside call =>
    show Announcing (φs.set i φ) _ ∧ Stored _
    rw [set_same hi]
    exact ⟨hA', hS⟩

end step

/-- On every run: a write carries a new highest version just when it comes in time; and if every
write does, and every record that is not broadcast has the state of the one before, the versions
rise, and once no broadcast is outstanding the clients agree with what is stored. -/
theorem versions_rise (cfg : PresenceConfig) (ms : List (Move PresenceRequest PresenceReply)) :
    ((∀ x ∈ (watchedPresence cfg ms).log, Rising x) ↔
      ∀ x ∈ (watchedPresence cfg ms).log, Timely x) ∧
    ((∀ x ∈ (watchedPresence cfg ms).log, Timely x ∧ Quiet x) →
      VersionsRise (watchedPresence cfg ms).pool.store ∧
      ((∀ φ ∈ (watchedPresence cfg ms).phases, ∀ record, ¬ φ.Owes record) →
        ClientsAgree (watchedPresence cfg ms).pool.store)) := by
  constructor
  · apply forall₂_congr
    intro x _
    exact timely_iff x
  · intro hG
    obtain ⟨-, -, hA, hS⟩ := Watched.play_phased (fun φs _ s => Announcing φs s ∧ Stored s)
      (fun x => Timely x ∧ Quiet x) (presenceProgram_follows cfg)
      ⟨Announcing.start, Stored.start⟩ (fun _ _ _ _ h => ⟨h.1.spawn, h.2⟩)
      (fun _ _ _ _ _ _ _ h hi hc hx => presence_step h hi hc hx) ms hG
    refine ⟨hA.versionsRise hS, ?_⟩
    intro howes events hperm record hrecord
    exact hA.client howes (hS.presence record hrecord) hperm

instance : DecidablePred Timely := fun x => by
  unfold Timely
  split <;> infer_instance

instance : DecidablePred Quiet := fun x => by
  unfold Quiet
  split
  · exact inferInstanceAs (Decidable (_ → _ → _ → ∃ q ∈ List.getLast? _, _))
  · exact isTrue trivial

/-- Two calls in the same millisecond, one after the other. -/
def consecutive : List (Move PresenceRequest PresenceReply) :=
  let reply : PresenceReply := ⟨true, true, 1000, 0, false⟩
  .spawn (.transition .connected "gateway") :: List.replicate 12 (.step 0 reply) ++
    .spawn (.transition .forceOffline "admin") :: List.replicate 12 (.step 1 reply)

theorem consecutive_rise :
    let w := watchedPresence ⟨⟨none, none, none⟩, true, true, none, true⟩ consecutive
    w.pool.store.broadcast.length = 2 ∧ VersionsRise w.pool.store ∧ ClientsAgree w.pool.store := by
  intro w
  have hsent : ∀ φ ∈ w.phases, φ.emitted = true := by decide +kernel
  obtain ⟨hrise, hagree⟩ :=
    (versions_rise ⟨⟨none, none, none⟩, true, true, none, true⟩ consecutive).2 (by decide +kernel)
  refine ⟨by decide +kernel, hrise, hagree fun φ hφ record howes => ?_⟩
  exact absurd (hsent φ hφ) (Bool.eq_false_iff.1 howes.1)

/-- Two calls that read before either writes, in the same millisecond. -/
def sameMillisecond : List (Move PresenceRequest PresenceReply) :=
  let reply : PresenceReply := ⟨true, true, 1000, 0, false⟩
  [Move.spawn (PresenceRequest.transition .connected "gateway"),
    Move.spawn (PresenceRequest.transition .forceOffline "admin")] ++
    List.replicate 6 (Move.step 0 reply) ++ List.replicate 6 (Move.step 1 reply) ++
    [Move.step 0 reply, Move.step 1 reply]

theorem same_version_twice :
    ¬ ∀ cfg ms, VersionsRise (watchedPresence cfg ms).pool.store := by
  intro h
  have hrising := (h ⟨⟨none, none, none⟩, true, true, none, true⟩ sameMillisecond).rising
  revert hrising
  decide +kernel

end VibemeetBackend.Presence
