import VibemeetBackend.Async.Watch
import VibemeetBackend.Billing.Session

/-!
# Ownership of the billing runtime of a call

The Redis lock that names the instance which bills a call, with an epoch.  A worker that finds
another instance's lock deletes it and sets its own, one command after the other.
-/

namespace VibemeetBackend.Billing.Ownership

open Async Flow

/-! ### The lock -/

/-- The value of a lock, stored as `instanceId:epoch`. -/
structure OwnerLock where
  instanceId : String
  epoch : ℕ
  deriving DecidableEq

/-- What a worker's copy of the session says about its runtime. -/
structure OwnerSession where
  instanceId : String
  runtimeEpoch : ℕ
  leaderLock : String
  startTime : ℤ
  lastSequenceAdvanceAt : ℤ
  lastHealthyTickAt : ℤ

/-- The locks of a call: its sessions may name different keys. -/
abbrev OwnerStore : Type := String → Option OwnerLock

structure OwnerReply where
  delivered : Bool
  answered : Bool

def OwnerReply.ok (r : OwnerReply) : Bool := r.delivered && r.answered

inductive OwnerCmd where
  | get (key : String)
  /-- `SET key value EX NX`. -/
  | setNx (key : String) (lock : OwnerLock)
  /-- `SET key value EX XX`, whose failure is ignored. -/
  | setXx (key : String) (lock : OwnerLock)
  | del (key : String)
  | expire (key : String)

def OwnerCmd.exec (c : OwnerCmd) (r : OwnerReply) (s : OwnerStore) : OwnerStore :=
  if r.delivered = false then s
  else
    match c with
    | .get _ => s
    | .setNx key lock => if s key = none then Function.update s key (some lock) else s
    | .setXx key lock => if s key = none then s else Function.update s key (some lock)
    | .del key => Function.update s key none
    | .expire key => Function.update s key none

abbrev OwnerFlow (α : Type) : Type := Flow OwnerCmd OwnerReply OwnerStore α

def ownerRun (c : OwnerCmd) : OwnerFlow (OwnerReply × OwnerStore) :=
  call OwnerReply.ok "REDIS_ERROR" c

/-! ### The source -/

/-- `String(x || '').trim()` and the comparison of a stored instance id with a worker's; ids written
by old versions are the process id only. -/
def billingInstanceIdsMatch (stored worker : String) : Bool :=
  let a := trim stored
  let b := trim worker
  if a = "" ∨ b = "" then false
  else if a = b then true
  else if a.contains ':' = false then b.endsWith (":" ++ a)
  else if b.contains ':' = false then a.endsWith (":" ++ b)
  else false

def billingSequenceStallMs (session : OwnerSession) (nowMs : ℤ) : ℤ :=
  let lastAdvance := max session.lastSequenceAdvanceAt session.lastHealthyTickAt
  if 0 < lastAdvance then max 0 (nowMs - lastAdvance)
  else if 0 < session.startTime then max 0 (nowMs - session.startTime)
  else 0

def ownerLockKey (callId : String) (session : OwnerSession) : String :=
  if session.leaderLock = "" then "billing:runtime:owner:" ++ callId else session.leaderLock

def OwnerSession.own (session : OwnerSession) (key : String) (lock : OwnerLock) : OwnerSession :=
  { session with instanceId := lock.instanceId, runtimeEpoch := lock.epoch, leaderLock := key }

/-- The part of `ensureRuntimeOwnership` that follows its second read.  `none` is a rejected worker. -/
def keepOrTakeOver (chainHealStallMs : ℤ) (worker : String) (session : OwnerSession) (key : String)
    (nowMs : ℤ) (current : OwnerLock) : OwnerFlow (Option OwnerSession) := do
  let runtimeEpoch := max 1 session.runtimeEpoch
  let ownerValue : OwnerLock := ⟨worker, runtimeEpoch⟩
  if current ≠ ownerValue then
    let stallMs := billingSequenceStallMs session nowMs
    let ownerInstanceMismatch := billingInstanceIdsMatch current.instanceId worker = false
    if stallMs > chainHealStallMs ∨ (ownerInstanceMismatch ∧ stallMs > 0) then
      let nextEpoch := max runtimeEpoch (current.epoch + 1)
      let _ ← attempt (ownerRun (.del key))
      let (_, s) ← ownerRun (.setNx key ⟨worker, nextEpoch⟩)
      pure (if s key = none then some (session.own key ⟨worker, nextEpoch⟩) else none)
    else pure none
  else
    let _ ← attempt (ownerRun (.setXx key ownerValue))
    pure (some (session.own key ownerValue))

def ensureRuntimeOwnership (chainHealStallMs : ℤ) (worker callId : String) (session : OwnerSession)
    (nowMs : ℤ) : OwnerFlow (Option OwnerSession) := do
  let key := ownerLockKey callId session
  let ownerValue : OwnerLock := ⟨worker, max 1 session.runtimeEpoch⟩
  let (_, s) ← ownerRun (.get key)
  let claimed ← match s key with
    | some _ => pure false
    | none => do
      let (_, s') ← ownerRun (.setNx key ownerValue)
      pure (decide (s' key = none))
  if claimed then pure (some (session.own key ownerValue))
  else
    let (_, s') ← ownerRun (.get key)
    match s' key with
    | none => pure none
    | some current => keepOrTakeOver chainHealStallMs worker session key nowMs current

def reclaimStaleRuntimeOwnershipOnStartup (worker callId : String) (session : OwnerSession) :
    OwnerFlow (Option OwnerSession) := do
  let key := ownerLockKey callId session
  let (_, s) ← ownerRun (.get key)
  match s key with
  | none => pure none
  | some current =>
    if billingInstanceIdsMatch current.instanceId worker then pure none
    else
      let nextEpoch := max (max 1 session.runtimeEpoch) (current.epoch + 1)
      let _ ← attempt (ownerRun (.del key))
      let (_, s') ← ownerRun (.setNx key ⟨worker, nextEpoch⟩)
      pure (if s' key = none then some (session.own key ⟨worker, nextEpoch⟩) else none)

/-! ### Runs -/

inductive OwnerRequest where
  | ensure (worker : String) (session : OwnerSession) (nowMs : ℤ)
  | reclaim (worker : String) (session : OwnerSession)
  | expiry (key : String)

def ownerProgram (chainHealStallMs : ℤ) (callId : String) :
    OwnerRequest → Prog OwnerCmd OwnerReply OwnerStore Unit
  | .ensure worker session nowMs =>
    (ensureRuntimeOwnership chainHealStallMs worker callId session nowMs).run >>= fun _ => .ret ()
  | .reclaim worker session =>
    (reclaimStaleRuntimeOwnershipOnStartup worker callId session).run >>= fun _ => .ret ()
  | .expiry key => .act (.expire key) fun _ _ => .ret ()

/-! ### What the epochs are for -/

/-- What a program goes by: the epoch of its session and the last value it read. -/
structure OwnPhase where
  sessionEpoch : ℕ
  saw : Option OwnerLock

def OwnerRequest.phase : OwnerRequest → OwnPhase
  | .ensure _ session _ => ⟨max 1 session.runtimeEpoch, none⟩
  | .reclaim _ session => ⟨max 1 session.runtimeEpoch, none⟩
  | .expiry _ => ⟨1, none⟩

def OwnPhase.next (φ : OwnPhase) (c : OwnerCmd) (r : OwnerReply) (s : OwnerStore) : OwnPhase :=
  match c with
  | .get key => if r.delivered then { φ with saw := s key } else φ
  | _ => φ

abbrev OwnerEvent : Type := Event OwnerCmd OwnerReply OwnerStore

def claimed (e : OwnerEvent) : Option OwnerLock :=
  match e.cmd with
  | .setNx key lock => if e.ans.delivered ∧ e.before key = none then some lock else none
  | _ => none

def granted (e : OwnerEvent) : Option OwnerLock :=
  match e.cmd with
  | .setNx key lock => if e.ans.ok ∧ e.before key = none then some lock else none
  | .setXx _ lock => some lock
  | _ => none

/-- A claim that follows the deletion of the lock it had read. -/
def takenOver (x : OwnPhase × OwnerEvent) : Option OwnerLock :=
  match x.2.cmd, x.1.saw with
  | .setNx .., some _ => granted x.2
  | _, _ => none

def ExclusiveEpochs (log : List (OwnPhase × OwnerEvent)) : Prop :=
  ∀ x ∈ log, ∀ y ∈ log, ∀ a b, granted x.2 = some a → granted y.2 = some b →
    a.epoch = b.epoch → a.instanceId = b.instanceId

def IncreasingEpochs (log : List (OwnPhase × OwnerEvent)) : Prop :=
  Along (fun l x => ∀ a, takenOver x = some a → ∀ y ∈ l, ∀ b, granted y.2 = some b →
    b.epoch < a.epoch) log

def claims (log : List (OwnPhase × OwnerEvent)) : List OwnerLock :=
  log.filterMap fun x => claimed x.2

/-- A claim is current: its session is newer than the latest claim, or it takes over the lock of the
latest claim, or it renews its own. -/
def Current (l : List (OwnPhase × OwnerEvent)) (x : OwnPhase × OwnerEvent) : Prop :=
  ∀ lock ∈ claimed x.2, ∀ last ∈ (claims l).getLast?,
    last.epoch < x.1.sessionEpoch ∨ x.1.saw = some last ∨ (x.1.saw = none ∧ lock = last)

instance (l : List (OwnPhase × OwnerEvent)) (x : OwnPhase × OwnerEvent) : Decidable (Current l x) :=
  inferInstanceAs (Decidable (∀ lock ∈ claimed x.2, ∀ last ∈ (claims l).getLast?,
    last.epoch < x.1.sessionEpoch ∨ x.1.saw = some last ∨ (x.1.saw = none ∧ lock = last)))

/-! ### The protocol -/

def OwnAllows (φ : OwnPhase) : OwnerCmd → Prop
  | .setNx _ lock => lock.epoch = match φ.saw with
    | none => φ.sessionEpoch
    | some v => max φ.sessionEpoch (v.epoch + 1)
  | .setXx _ lock => φ.saw = some lock
  | _ => True

abbrev OwnFollows (φ : OwnPhase) {α : Type} (p : OwnerFlow α) : Prop :=
  Follows (guarded OwnAllows OwnPhase.next) φ p (fun _ _ => True) fun _ _ => True

section protocol

variable {φ : OwnPhase} {α : Type}

variable {f : OwnerReply × OwnerStore → OwnerFlow α}

theorem follows_get {key : String} (h : ∀ r s, OwnFollows { φ with saw := s key } (f (r, s))) :
    OwnFollows φ (ownerRun (.get key) >>= f) := by
  apply follows_guarded_bind trivial
  · intro r s
    trivial
  · intro r s hr
    have hdelivered : r.delivered = true := by
      rw [OwnerReply.ok, Bool.and_eq_true] at hr
      exact hr.1
    rw [OwnPhase.next, if_pos hdelivered]
    exact h r s

theorem follows_write {c : OwnerCmd} (hc : OwnAllows φ c) (hφ : ∀ r s, φ.next c r s = φ)
    (h : ∀ r s, OwnFollows φ (f (r, s))) : OwnFollows φ (ownerRun c >>= f) := by
  apply follows_guarded_bind hc
  · intro r s
    trivial
  · intro r s _
    rw [hφ]
    exact h r s

theorem follows_attempted {c : OwnerCmd} {f : Except String (OwnerReply × OwnerStore) → OwnerFlow α}
    (hc : OwnAllows φ c) (hφ : ∀ r s, φ.next c r s = φ) (h : ∀ x, OwnFollows φ (f x)) :
    OwnFollows φ (attempt (ownerRun c) >>= f) := by
  simp_all [ownerRun]

theorem keepOrTakeOver_follows (heal : ℤ) (worker : String) (session : OwnerSession) (key : String)
    (nowMs : ℤ) {current : OwnerLock} (hsaw : φ.saw = some current)
    (hepoch : φ.sessionEpoch = max 1 session.runtimeEpoch) :
    OwnFollows φ (keepOrTakeOver heal worker session key nowMs current) := by
  rw [keepOrTakeOver]
  dsimp only
  split
  · split
    · apply follows_attempted (c := .del _) trivial (fun _ _ => rfl)
      intro x
      apply follows_write _ (fun _ _ => rfl)
      · intro r s
        trivial
      · rw [OwnAllows, hsaw, hepoch]
    · trivial
  · rename_i hown
    apply follows_attempted _ (fun _ _ => rfl)
    · intro x
      trivial
    · rw [OwnAllows, hsaw, not_not.1 hown]

theorem ensure_follows (heal : ℤ) (worker callId : String) (session : OwnerSession) (nowMs : ℤ) :
    OwnFollows ⟨max 1 session.runtimeEpoch, none⟩
      (ensureRuntimeOwnership heal worker callId session nowMs) := by
  have hrest : ∀ φ : OwnPhase, φ.sessionEpoch = max 1 session.runtimeEpoch → ∀ key,
      OwnFollows φ (do
        let (_, s') ← ownerRun (.get key)
        match s' key with
        | none => pure none
        | some current => keepOrTakeOver heal worker session key nowMs current) := by
    intro φ hφ key
    apply follows_get
    intro r s
    dsimp only
    split
    · trivial
    · rename_i current hcurrent
      exact keepOrTakeOver_follows heal worker session key nowMs hcurrent hφ
  apply follows_get
  intro r s
  dsimp only
  split
  · rename_i v hv
    exact hrest _ rfl _
  · rename_i hnone
    apply follows_write _ (fun _ _ => rfl)
    · intro r' s'
      apply follows_bind
      apply follows_pure
      split
      · trivial
      · exact hrest _ rfl _
    · rw [OwnAllows, hnone]

theorem reclaim_follows (worker callId : String) (session : OwnerSession) :
    OwnFollows ⟨max 1 session.runtimeEpoch, none⟩
      (reclaimStaleRuntimeOwnershipOnStartup worker callId session) := by
  apply follows_get
  intro r s
  dsimp only
  split
  · trivial
  · rename_i current hcurrent
    split
    · trivial
    · apply follows_attempted (c := .del _) trivial (fun _ _ => rfl)
      intro x
      apply follows_write _ (fun _ _ => rfl)
      · intro r s
        trivial
      · rw [OwnAllows, hcurrent]

theorem ownerProgram_follows (heal : ℤ) (callId : String) (q : OwnerRequest) :
    (ownerProgram heal callId q).Follows (guarded OwnAllows OwnPhase.next) q.phase
      fun _ _ => True := by
  cases q with
  | ensure worker session nowMs =>
    apply Prog.follows_bind.2
    exact Prog.Follows.mono (ensure_follows heal worker callId session nowMs) fun _ _ _ => trivial
  | reclaim worker session =>
    apply Prog.follows_bind.2
    exact Prog.Follows.mono (reclaim_follows worker callId session) fun _ _ _ => trivial
  | expiry key => exact fun r s => ⟨_, guarded_of trivial, trivial⟩

end protocol

/-! ### The invariant -/

variable {φ : OwnPhase} {φs : List OwnPhase} {l : List (OwnPhase × OwnerEvent)}
  {x : OwnPhase × OwnerEvent} {c : OwnerCmd} {r : OwnerReply} {t : OwnerStore} {lock : OwnerLock}

theorem claims_snoc (l : List (OwnPhase × OwnerEvent)) (x : OwnPhase × OwnerEvent) :
    claims (l ++ [x]) = claims l ++ (claimed x.2).toList := by
  cases h : claimed x.2 <;> simp [claims, h]

theorem granted_cases {e : OwnerEvent} (h : granted e = some lock) :
    claimed e = some lock ∨ ∃ key, e.cmd = .setXx key lock := by
  obtain ⟨s, c, r, s'⟩ := e
  cases c with
  | setNx key lock' =>
    simp only [granted] at h
    split at h
    · rename_i hset
      left
      have hdelivered : r.delivered = true := by
        have hok := hset.1
        rw [OwnerReply.ok, Bool.and_eq_true] at hok
        exact hok.1
      simp only [claimed]
      rw [if_pos ⟨hdelivered, hset.2⟩]
      exact h
    · cases h
  | setXx key lock' =>
    cases h
    exact .inr ⟨key, rfl⟩
  | get | del | expire => cases h

/-- Who owns the call, in a run whose claims are current. -/
structure Owned (φs : List OwnPhase) (l : List (OwnPhase × OwnerEvent)) (t : OwnerStore) :
    Prop where
  unique : ∀ a ∈ claims l, ∀ b ∈ claims l, a.epoch = b.epoch → a = b
  latest : ∀ last, (claims l).getLast? = some last → ∀ a ∈ claims l, a.epoch ≤ last.epoch
  locks : ∀ key lock, t key = some lock → lock ∈ claims l
  saw : ∀ φ ∈ φs, ∀ lock, φ.saw = some lock → lock ∈ claims l
  granted : ∀ x ∈ l, ∀ lock, granted x.2 = some lock → lock ∈ claims l
  increasing : IncreasingEpochs l

theorem Owned.append (h : Owned φs l t) (q : OwnerRequest) : Owned (φs ++ [q.phase]) l t where
  unique := h.unique
  latest := h.latest
  locks := h.locks
  saw φ hφ lock hsaw := by
    rcases mem_snoc.1 hφ with hφ | rfl
    · exact h.saw φ hφ lock hsaw
    · cases q <;> cases hsaw
  granted := h.granted
  increasing := h.increasing

theorem current_epoch (h : Owned φs l t) (hcurrent : Current l (φ, ⟨t, c, r, c.exec r t⟩))
    (hallows : OwnAllows φ c) (hclaimed : claimed ⟨t, c, r, c.exec r t⟩ = some lock) :
    (∀ a ∈ claims l, a.epoch < lock.epoch) ∨
      φ.saw = none ∧ (claims l).getLast? = some lock := by
  have hepoch : lock.epoch = match φ.saw with
      | none => φ.sessionEpoch
      | some v => max φ.sessionEpoch (v.epoch + 1) := by
    cases c with
    | setNx key lock' =>
      simp only [claimed] at hclaimed
      split at hclaimed
      · cases hclaimed
        exact hallows
      · cases hclaimed
    | get | setXx | del | expire => cases hclaimed
  cases hlast : (claims l).getLast? with
  | none =>
    left
    simp [List.getLast?_eq_none_iff.1 hlast]
  | some last =>
    rcases hcurrent lock hclaimed last hlast with hsession | hsaw | ⟨hsaw, rfl⟩
    · left
      intro a ha
      have hle := h.latest last hlast a ha
      have hnewer : last.epoch < φ.sessionEpoch := hsession
      have hsessionLe : φ.sessionEpoch ≤ lock.epoch := by
        rw [hepoch]
        cases φ.saw with
        | none => exact le_rfl
        | some v => exact le_max_left _ _
      omega
    · left
      intro a ha
      have hle := h.latest last hlast a ha
      rw [hsaw] at hepoch
      dsimp only at hepoch
      omega
    · exact .inr ⟨hsaw, rfl⟩

theorem exec_lock {key : String} (h : c.exec r t key = some lock) :
    t key = some lock ∨ claimed ⟨t, c, r, c.exec r t⟩ = some lock ∨ c = .setXx key lock := by
  unfold OwnerCmd.exec at h
  split at h
  · exact .inl h
  · rename_i hdelivered
    rw [Bool.not_eq_false] at hdelivered
    cases c with
    | get key' => exact .inl h
    | setNx key' lock' =>
      grind [claimed]
    | setXx key' lock' =>
      dsimp only at h
      split at h
      · exact .inl h
      · rw [Function.update_apply] at h
        split at h
        · rename_i hkey
          cases h
          rw [hkey]
          exact .inr (.inr rfl)
        · exact .inl h
    | del key' | expire key' =>
      dsimp only at h
      rw [Function.update_apply] at h
      split at h
      · cases h
      · exact .inl h

theorem next_saw (h : (φ.next c r t).saw = some lock) :
    φ.saw = some lock ∨ ∃ key, t key = some lock := by
  cases c with
  | get key =>
    rw [OwnPhase.next] at h
    split at h
    · exact .inr ⟨key, h⟩
    · exact .inl h
  | setNx | setXx | del | expire => exact .inl h

theorem takenOver_some {e : OwnerEvent} (h : takenOver (φ, e) = some lock) :
    φ.saw ≠ none ∧ claimed e = some lock := by
  rw [takenOver] at h
  split at h
  · rename_i hcmd hsaw
    refine ⟨fun hnone => ?_, ?_⟩
    · simp [hnone] at hsaw
    · obtain hclaimed | ⟨key, hset⟩ := granted_cases h
      · exact hclaimed
      · rw [hset] at hcmd
        cases hcmd
  · cases h

/-- **One command.** -/
theorem Owned.step (h : Owned φs l t) {i : ℕ} (hi : φs[i]? = some φ)
    (hcurrent : Current l (φ, ⟨t, c, r, c.exec r t⟩)) (hallows : OwnAllows φ c) :
    Owned (φs.set i (φ.next c r t)) (l ++ [(φ, ⟨t, c, r, c.exec r t⟩)]) (c.exec r t) := by
  have hold : ∀ a ∈ claims l, a ∈ claims (l ++ [(φ, ⟨t, c, r, c.exec r t⟩)]) := by
    intro a ha
    rw [claims_snoc]
    exact List.mem_append_left _ ha
  have hnew : ∀ a, claimed ⟨t, c, r, c.exec r t⟩ = some a →
      a ∈ claims (l ++ [(φ, ⟨t, c, r, c.exec r t⟩)]) := by
    intro a ha
    rw [claims_snoc]
    apply List.mem_append_right
    rw [ha]
    exact List.mem_cons_self
  have hread : ∀ a, φ.saw = some a → a ∈ claims l := h.saw φ (List.mem_of_getElem? hi)
  constructor
  · -- two claims of one epoch
    intro a ha b hb hab
    rw [claims_snoc] at ha hb
    cases hclaimed : claimed ⟨t, c, r, c.exec r t⟩ with
    | none =>
      rw [hclaimed, Option.toList_none, List.append_nil] at ha hb
      exact h.unique a ha b hb hab
    | some lock =>
      rw [hclaimed, Option.toList_some, List.mem_append, List.mem_singleton] at ha hb
      rcases current_epoch h hcurrent hallows hclaimed with habove | ⟨-, hlast⟩
      · rcases ha with ha | rfl
        · rcases hb with hb | rfl
          · exact h.unique a ha b hb hab
          · have hlt := habove a ha
            omega
        · rcases hb with hb | rfl
          · have hlt := habove b hb
            omega
          · rfl
      · have hmem := List.mem_of_getLast? hlast
        have ha' : a ∈ claims l := ha.elim id fun ha => ha ▸ hmem
        have hb' : b ∈ claims l := hb.elim id fun hb => hb ▸ hmem
        exact h.unique a ha' b hb' hab
  · intro last hlast a ha
    rw [claims_snoc] at hlast ha
    cases hclaimed : claimed ⟨t, c, r, c.exec r t⟩ with
    | none =>
      rw [hclaimed, Option.toList_none, List.append_nil] at hlast ha
      exact h.latest last hlast a ha
    | some lock =>
      rw [hclaimed, Option.toList_some] at hlast ha
      rw [List.getLast?_concat] at hlast
      obtain rfl := Option.some.inj hlast
      rw [List.mem_append, List.mem_singleton] at ha
      rcases ha with ha | rfl
      · rcases current_epoch h hcurrent hallows hclaimed with habove | ⟨-, hsame⟩
        · exact (habove a ha).le
        · exact h.latest lock hsame a ha
      · exact le_rfl
  · intro key lock hlock
    rcases exec_lock hlock with hlock | hclaimed | rfl
    · exact hold lock (h.locks key lock hlock)
    · exact hnew lock hclaimed
    · exact hold lock (hread lock hallows)
  · intro ψ hψ lock hsaw
    apply hold
    rcases List.mem_or_eq_of_mem_set hψ with hψ | rfl
    · exact h.saw ψ hψ lock hsaw
    · rcases next_saw hsaw with hsaw | ⟨key, hlock⟩
      · exact hread lock hsaw
      · exact h.locks key lock hlock
  · intro y hy lock hgranted
    rcases mem_snoc.1 hy with hy | rfl
    · exact hold lock (h.granted y hy lock hgranted)
    · rcases granted_cases hgranted with hclaimed | ⟨key, hset⟩
      · exact hnew lock hclaimed
      · subst hset
        exact hold lock (hread lock hallows)
  · rw [IncreasingEpochs, along_snoc]
    refine ⟨h.increasing, ?_⟩
    intro a ha y hy b hb
    obtain ⟨hsaw, hclaimed⟩ := takenOver_some ha
    rcases current_epoch h hcurrent hallows hclaimed with habove | ⟨hnone, -⟩
    · exact habove b (h.granted y hy b hb)
    · exact absurd hnone hsaw

/-! ### Runs -/

abbrev owners (heal : ℤ) (callId : String) (ms : List (Move OwnerRequest OwnerReply)) :
    Watched OwnPhase OwnerCmd OwnerReply OwnerStore :=
  (Watched.start fun _ => none).play OwnPhase.next OwnerRequest.phase OwnerCmd.exec
    (ownerProgram heal callId) ms

/-- **Ownership is exclusive per epoch, and takeovers increase it**, in every run whose claims are
current. -/
theorem exclusive_of_current (heal : ℤ) (callId : String)
    (ms : List (Move OwnerRequest OwnerReply)) (h : Along Current (owners heal callId ms).log) :
    ExclusiveEpochs (owners heal callId ms).log ∧ IncreasingEpochs (owners heal callId ms).log := by
  have h₀ : Owned [] [] fun _ => none := by
    constructor
    · exact fun a ha => nomatch ha
    · exact fun last hlast => nomatch hlast
    · exact fun key lock hlock => nomatch hlock
    · exact fun φ hφ => nomatch hφ
    · exact fun x hx => nomatch hx
    · exact along_nil
  obtain ⟨-, -, howned⟩ := Watched.play_phased (R := fun _ => True)
    (fun φs l t => Along Current l → Owned φs l t) (fun _ => True)
    (ownerProgram_follows heal callId) (fun _ => h₀)
    (fun φs l t q howned hl => (howned hl).append q)
    (fun φs l t i φ c r howned hi hallows _ hl => by
      obtain ⟨hl, hx⟩ := along_snoc.1 hl
      exact (howned hl).step hi hx hallows) ms fun _ _ => trivial
  have hrun := howned h
  refine ⟨?_, hrun.increasing⟩
  intro x hx y hy a b ha hb hab
  rw [hrun.unique a (hrun.granted x hx a ha) b (hrun.granted y hy b hb) hab]

/-! ### Sample runs -/

def stalledSession : OwnerSession where
  instanceId := "a:1"
  runtimeEpoch := 1
  leaderLock := "runtime:c"
  startTime := 0
  lastSequenceAdvanceAt := 1000
  lastHealthyTickAt := 1000

def reached : OwnerReply := ⟨true, true⟩

/-- A worker claims the lock, and after the stall another one takes it over. -/
def takeover : List (Move OwnerRequest OwnerReply) :=
  [.spawn (.ensure "a:1" stalledSession 1000), .step 0 reached, .step 0 reached,
    .spawn (.ensure "b:2" stalledSession 9000), .step 1 reached, .step 1 reached, .step 1 reached,
    .step 1 reached]

theorem exclusive_takeover :
    ExclusiveEpochs (owners 7000 "c" takeover).log ∧
      IncreasingEpochs (owners 7000 "c" takeover).log := by
  apply exclusive_of_current 7000 "c" takeover
  rw [along_iff_take]
  decide +kernel

/-- Two workers find the lock of the same stalled owner, and each of them deletes it and claims. -/
def twoTakeovers : List (Move OwnerRequest OwnerReply) :=
  [.spawn (.ensure "a:1" stalledSession 1000), .step 0 reached, .step 0 reached,
    .spawn (.ensure "b:2" stalledSession 9000), .spawn (.ensure "c:3" stalledSession 9000),
    .step 1 reached, .step 1 reached, .step 2 reached, .step 2 reached,
    .step 1 reached, .step 1 reached, .step 2 reached, .step 2 reached]

theorem two_owners :
    ¬ (ExclusiveEpochs (owners 7000 "c" twoTakeovers).log ∧
      IncreasingEpochs (owners 7000 "c" twoTakeovers).log) := by
  rintro ⟨h, -⟩
  have hb : ∃ x ∈ (owners 7000 "c" twoTakeovers).log, granted x.2 = some ⟨"b:2", 2⟩ := by
    decide +kernel
  have hc : ∃ x ∈ (owners 7000 "c" twoTakeovers).log, granted x.2 = some ⟨"c:3", 2⟩ := by
    decide +kernel
  obtain ⟨x, hx, hb⟩ := hb
  obtain ⟨y, hy, hc⟩ := hc
  have hsame := h x hx y hy _ _ hb hc rfl
  exact absurd hsame (by decide)

end VibemeetBackend.Billing.Ownership
