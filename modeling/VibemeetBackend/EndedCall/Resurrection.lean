import VibemeetBackend.Async.Pool
import VibemeetBackend.EndedCall.Operations

/-!
# Is an ended call resurrected?

After the end of a call none of the operations should store a session under its key again or put it
into an active-call slot.  Each of them has a notion of its own of a call that is over: a start has
none, the resolver looks for a finalized durable session and for the tombstone, the heals delete the
tombstone, and the tick looks for the settled key and the lifecycle of the checkpoint.
-/

namespace VibemeetBackend.EndedCall

open Async Billing

def Ends (e : CallStore × Step) : Prop :=
  match e.2 with
  | .settle _ | .deadLetter => True
  | _ => False

/-- The step is an operation that sets the active-call slots or creates the session. -/
def Resurrects (cfg : BillingConfig) (callId : String) (e : CallStore × Step) : Prop :=
  match e.2 with
  | .op o =>
    (o.run cfg callId e.1).1 = true ∨
      (e.1.session = none ∧ (o.run cfg callId e.1).2.session.isSome = true)
  | _ => False

def NeverResurrected (cfg : BillingConfig) (callId : String) (log : List (CallStore × Step)) :
    Prop :=
  After Ends (fun e => ¬ Resurrects cfg callId e) log

/-! ### What blocks an operation -/

def holderGone (callId : String) (env : StartEnv) (holder : String) : Bool :=
  isStaleHolder env.now (if holder = callId then none else env.others holder)

def KeysFree (callId : String) (env : StartEnv) (q : StartRequest) (st : CallStore) : Prop :=
  (∀ holder, st.callpair (callpairKey q.userFirebaseUid q.creatorFirebaseUid) = some holder →
    holderGone callId env holder = true) ∧
  ∀ uid, uid = q.userFirebaseUid ∨ uid = q.creatorFirebaseUid →
    ∀ holder, st.slots uid = some holder → holder = callId ∨ holderGone callId env holder = true

/-- The gates of a start let it through.  None of them asks whether the call is over. -/
structure StartAdmitted (callId : String) (env : StartEnv) (q : StartRequest) (st : CallStore) :
    Prop where
  claimed : env.claimed = true ∨ (st.session = none ∧ env.reclaimed = true)
  startLock : env.startLock = true
  admitted : env.admitted = true
  noSession : ∀ s, st.session = some s →
    s.isBootstrappingSession = true ∧ 60000 < sessionAgeMs env.now s
  keys : KeysFree callId env q st

def rebuildable (cfg : BillingConfig) (st : RuntimeStore) : Bool :=
  (liveDurable cfg st).isSome ||
    (st.terminal != some true && (st.checkpoint.filter Checkpoint.hasIdentities).isSome)

def tickRebuilds (cfg : BillingConfig) (st : RuntimeStore) : Bool :=
  cfg.billingDeltaCursorV3Enabled && !st.settled &&
    (st.checkpoint.filter Checkpoint.hasIdentities).any fun cp =>
      isNonTerminalLifecycle (some cp.lifecycleState)

def OpBlocked (cfg : BillingConfig) (callId : String) (st : CallStore) : BillingOp → Prop
  | .start env q _ => ¬ StartAdmitted callId env q st
  | .resolve _ => st.session.isSome = true ∨ rebuildable cfg st.toRuntimeStore = false
  | .heal _ | .healLight _ none =>
    st.session.isSome = true ∨ rebuildable cfg { st.toRuntimeStore with terminal := none } = false
  | .healLight env (some hint) =>
    st.session.isSome = true ∨
      (hint.needsFullSessionBootstrap = false ∧ 0 < hint.billingPrice ∧
        rebuildable cfg st.toRuntimeStore = false ∧
        (env.ticks = true → tickRebuilds cfg st.toRuntimeStore = false))
  | .tick _ => st.session.isSome = true ∨ tickRebuilds cfg st.toRuntimeStore = false

def Blocked (cfg : BillingConfig) (callId : String) (e : CallStore × Step) : Prop :=
  match e.2 with
  | .op o => OpBlocked cfg callId e.1 o
  | _ => True

/-- Whether what the step finds decides on it.  A tick may end before its first write, and so may
a heal with a hint. -/
def Step.decided : Step → Bool
  | .op (.tick _) | .op (.healLight _ (some _)) => false
  | _ => true

variable {cfg : BillingConfig} {callId : String} {st : CallStore}

/-! ### Billing programs -/

variable {b : BillingStore}

theorem exec_session_isSome {α : Type} (p : BillingProg α) (rs : List BillingReply)
    (h : b.session.isSome = true) : (p.exec execBilling rs b).1.session.isSome = true := by
  have hkeeps : ∀ c r (b : BillingStore), b.session.isSome = true →
      (execBilling c r b).session.isSome = true := by
    intro c r b hb
    cases c <;> first | exact hb | rfl
  exact (Prog.exec_of_holds (I := fun b : BillingStore => b.session.isSome = true) h
    (Prog.holds_of_preserved hkeeps p h) rs).1

theorem exec_idle {α : Type} {p : BillingProg α}
    (h : p.Holds execBilling (· = b) (fun _ b' => b' = b) b) (rs : List BillingReply) :
    (p.exec execBilling rs b).1 = b :=
  (Prog.exec_of_holds (I := (· = b)) rfl h rs).1

theorem rebuilt_terminal {cp : Checkpoint} (price rate now : ℤ)
    (h : isNonTerminalLifecycle (some cp.lifecycleState) = false) :
    isNonTerminalLifecycle
      (rebuiltState cfg cp price rate now).enter.session.lifecycleState = false := by
  have hcases : cp.lifecycleState = .settled ∨ cp.lifecycleState = .failed := by
    cases hl : cp.lifecycleState <;> rw [hl] at h <;> first | exact .inl rfl | exact .inr rfl | cases h
  rcases hcases with hl | hl
  · simp [LoadedState.enter, rebuiltState, sessionOfCheckpoint, CallSession.normalizeV4, hl]
    rfl
  · simp [LoadedState.enter, rebuiltState, sessionOfCheckpoint, CallSession.normalizeV4, hl]
    rfl

theorem rebuildFromCheckpoint_idle (b : BillingStore) :
    (rebuildFromCheckpoint cfg).Holds execBilling (· = b)
      (fun loaded b' => b' = b ∧ ∀ l, loaded = some l → ∃ cp price rate now,
        b.checkpoint.filter Checkpoint.hasIdentities = some cp ∧
          l = rebuiltState cfg cp price rate now) b := by
  refine holds_read rfl rfl fun _ => ?_
  dsimp only
  cases hcp : b.checkpoint with
  | none => exact ⟨rfl, fun l hl => nomatch hl⟩
  | some cp =>
    show Prog.Holds _ _ (if _ then _ else _) _ _
    split
    · rename_i hids
      refine holds_read rfl rfl fun r => Prog.holds_bind.2 ?_
      have hdone : ∀ pricing : ℤ × ℤ, b = b ∧ ∀ l,
          some (rebuiltState cfg cp pricing.1 pricing.2 r.now) = some l → ∃ cp' price rate now,
            Option.filter Checkpoint.hasIdentities (some cp) = some cp' ∧
              l = rebuiltState cfg cp' price rate now := by
        intro pricing
        refine ⟨rfl, fun l hl => ?_⟩
        exact ⟨cp, _, _, _, Option.filter_some_pos hids, (Option.some.inj hl).symm⟩
      show Prog.Holds _ _ (if _ then _ else _) _ _
      split
      · exact holds_read rfl rfl fun r' => hdone _
      · exact hdone _
    · exact ⟨rfl, fun l hl => nomatch hl⟩

theorem loadTickState_idle (hs : b.session = none) :
    (loadTickState cfg).Holds execBilling (· = b)
      (fun loaded b' => b' = b ∧ ∀ l old, loaded = some (l, old) →
        cfg.billingDeltaCursorV3Enabled = true ∧ ∃ cp price rate now,
          b.checkpoint.filter Checkpoint.hasIdentities = some cp ∧
            l = rebuiltState cfg cp price rate now) b := by
  refine holds_read rfl rfl fun _ => ?_
  dsimp only
  rw [hs]
  show Prog.Holds _ _ (if _ then _ else _) _ _
  split
  · rename_i hv
    refine Prog.holds_bind.2 ((rebuildFromCheckpoint_idle b).mono fun loaded b' hl => ?_)
    refine ⟨hl.1, fun l old hloaded => ⟨hv, ?_⟩⟩
    cases loaded with
    | none => cases hloaded
    | some l' =>
      obtain ⟨rfl, -⟩ := Prod.mk.inj (Option.some.inj hloaded)
      exact hl.2 l' rfl
  · exact ⟨rfl, fun l old hl => nomatch hl⟩

variable {r : RuntimeStore}

/-- **A tick without a session** that has nothing to rebuild one from writes nothing. -/
theorem tick_idle (hr : r.toBillingStore = b) (hs : b.session = none)
    (h : tickRebuilds cfg r = false) :
    (processBillingCycleInternal cfg).Holds execBilling (· = b) (fun _ b' => b' = b) b := by
  refine holds_read rfl rfl fun _ => ?_
  dsimp only
  split
  · refine Prog.holds_bind.2 ((loadTickState_idle hs).mono fun loaded b' hl => ?_)
    obtain ⟨rfl, hloaded⟩ := hl
    match loaded, hloaded with
    | none, _ => exact rfl
    | some (l, old), hloaded =>
      obtain ⟨hv, cp, price, rate, now, hcp, rfl⟩ := hloaded l old rfl
      -- the cycle stops at the settled key or at the lifecycle
      have hstop : (!isNonTerminalLifecycle
          (rebuiltState cfg cp price rate now).enter.session.lifecycleState ||
            b'.settled) = true := by
        rw [tickRebuilds, hr, hcp, hv] at h
        simp only [Bool.true_and, Option.any_some, Bool.and_eq_false_iff,
          Bool.not_eq_false'] at h
        rcases h with h | h
        · rw [h, Bool.or_true]
        · rw [rebuilt_terminal price rate now h]
          rfl
      refine holds_read rfl rfl fun _ => ?_
      simp [hstop]
  · exact rfl

theorem healTicks_idle (hr : r.toBillingStore = b) (hs : b.session = none)
    (h : tickRebuilds cfg r = false) (n : ℕ) :
    (healTicks cfg n).Holds execBilling (· = b) (fun _ b' => b' = b) b := by
  induction n with
  | zero => exact rfl
  | succ n ih =>
    refine Prog.holds_bind.2 ((tick_idle hr hs h).mono fun result b' hb => ?_)
    subst hb
    split
    · exact ih
    · exact rfl

/-! ### The resolver and the heals -/

/-- **After a resolve** there is a session exactly when there was one or something to rebuild it
from. -/
theorem resolved_session (env : ResolverEnv) (st : CallStore) :
    (st.resolved cfg env).session.isSome = true ↔
      st.session.isSome = true ∨ rebuildable cfg st.toRuntimeStore = true := by
  show ((resolveBillingRuntimeState cfg env st.toRuntimeStore).2.session.isSome = true) ↔ _
  cases hs : st.session with
  | some s => simp [resolveBillingRuntimeState, hs]
  | none =>
    cases hd : liveDurable cfg st.toRuntimeStore with
    | some doc => simp [resolveBillingRuntimeState, rebuildable, hs, hd, reconstructedRuntime]
    | none =>
      by_cases ht : st.terminal = some true
      · simp [resolveBillingRuntimeState, rebuildable, hs, hd, ht]
      grind [resolveBillingRuntimeState, rebuildable, checkpointRuntime]

theorem resolve_idle (env : ResolverEnv) (hs : r.session = none) (h : rebuildable cfg r = false) :
    (resolveBillingRuntimeState cfg env r).2 = r := by
  rw [rebuildable, Bool.or_eq_false_iff, Bool.and_eq_false_iff] at h
  obtain ⟨hd, h⟩ := h
  have hd : liveDurable cfg r = none := Option.not_isSome_iff_eq_none.1 (by simp [hd])
  rcases h with ht | hcp
  · have ht : r.terminal = some true := by simpa using ht
    simp [resolveBillingRuntimeState, hs, hd, ht]
  · have hcp : r.checkpoint.filter Checkpoint.hasIdentities = none :=
      Option.not_isSome_iff_eq_none.1 (by simp [hcp])
    unfold resolveBillingRuntimeState
    rw [hs, hd, hcp]
    split <;> first | rfl | contradiction

theorem healSession_keeps (env : HealEnv) (s : CallSession) (h : st.session.isSome = true) :
    (healSession cfg env s st).session.isSome = true := by
  have hrepair := exec_session_isSome (repairSessionPricingIfNeeded cfg s) env.repairReplies
    (b := st.toBillingStore) h
  unfold healSession
  dsimp only
  split
  · have hresolved : ((st.withBilling _).resolved cfg env.toResolverEnv).session.isSome = true :=
      (resolved_session env.toResolverEnv (st.withBilling _)).2 (.inl hrepair)
    split
    · exact exec_session_isSome _ _ hresolved
    · exact hresolved
  · exact hrepair

/-- **After a heal** there is a session exactly when there was one or something to rebuild it from:
the tombstone is deleted. -/
theorem healLoaded_session (env : HealEnv) (st : CallStore) :
    (healLoaded cfg env st).session.isSome = true ↔
      st.session.isSome = true ∨
        rebuildable cfg { st.toRuntimeStore with terminal := none } = true := by
  have hload : (loadSessionForHeal cfg env.toResolverEnv st).session.isSome = true ↔
      st.session.isSome = true ∨
        rebuildable cfg { st.toRuntimeStore with terminal := none } = true := by
    unfold loadSessionForHeal
    split
    · rename_i hs
      exact ⟨.inl, fun _ => hs⟩
    · exact resolved_session _ _
  rw [← hload]
  unfold healLoaded
  generalize loadSessionForHeal cfg env.toResolverEnv st = loaded
  dsimp only
  split
  · exact Iff.rfl
  · rename_i s hl
    have hlive : loaded.session.isSome = true := by rw [hl]; rfl
    exact ⟨fun _ => hlive, fun _ => healSession_keeps env _ hlive⟩

theorem healSession_idle (env : HealEnv) {hint : CallSession} (hs : st.session = none)
    (hfull : hint.needsFullSessionBootstrap = false) (hprice : 0 < hint.billingPrice)
    (hr : rebuildable cfg st.toRuntimeStore = false)
    (htick : env.ticks = true → tickRebuilds cfg st.toRuntimeStore = false) :
    (healSession cfg env hint st).session = none := by
  have hrepair : repairSessionPricingIfNeeded cfg hint = .ret hint := by
    simp [repairSessionPricingIfNeeded, hfull, hprice]
  have hresolve : st.resolved cfg env.toResolverEnv = st := by
    show st.withRuntime (resolveBillingRuntimeState cfg env.toResolverEnv st.toRuntimeStore).2 = st
    rw [resolve_idle _ hs hr]
    rfl
  unfold healSession
  rw [hrepair]
  show (if _ then (if _ then (CallStore.runBilling (st.resolved cfg _) _ _) else st.resolved cfg _)
    else st).session = none
  rw [hresolve]
  split
  · split
    · rename_i ht
      show ((healTicks cfg 5).exec execBilling env.tickReplies st.toBillingStore).1.session = none
      rw [exec_idle (healTicks_idle rfl hs (htick ht) 5)]
      exact hs
    · exact hs
  · exact hs

/-! ### The start -/

section start

variable (env : StartEnv) (q : StartRequest)

theorem isStaleHolder_sessionOf (hs : st.session = none) (holder : String) :
    isStaleHolder env.now (st.sessionOf callId env holder) = holderGone callId env holder := by
  rw [CallStore.sessionOf, hs, holderGone]

theorem lockCallpair_taken (hs : st.session = none) :
    (lockCallpair callId env q st).1 = true ↔
      ∀ holder, st.callpair (callpairKey q.userFirebaseUid q.creatorFirebaseUid) = some holder →
        holderGone callId env holder = true := by
  unfold lockCallpair
  simp only [isStaleHolder_sessionOf env hs]
  cases st.callpair (callpairKey q.userFirebaseUid q.creatorFirebaseUid) with
  | none => simp
  | some holder => by_cases h : holderGone callId env holder = true <;> simp [h]

theorem lockCallpair_frame :
    (lockCallpair callId env q st).2.toRuntimeStore = st.toRuntimeStore ∧
      (lockCallpair callId env q st).2.slots = st.slots := by
  unfold lockCallpair
  dsimp only
  split
  · exact ⟨rfl, rfl⟩
  · split <;> exact ⟨rfl, rfl⟩

theorem clearOrphanSlot_slots (uid uid' : String) (hs : st.session = none) :
    (clearOrphanSlot callId env uid st).slots uid' =
      if uid' = uid then (st.slots uid).filter fun holder => !holderGone callId env holder
      else st.slots uid' := by
  unfold clearOrphanSlot
  simp only [isStaleHolder_sessionOf env hs]
  cases hslot : st.slots uid with
  | none => by_cases h : uid' = uid <;> simp [h, hslot]
  | some holder =>
    by_cases hgone : holderGone callId env holder = true
    · by_cases h : uid' = uid <;> simp [h, hgone, CallStore.setSlot, Option.filter_some]
    · by_cases h : uid' = uid <;> simp [h, hgone, hslot, Option.filter_some]

theorem clearOrphanSlot_runtime (uid : String) :
    (clearOrphanSlot callId env uid st).toRuntimeStore = st.toRuntimeStore := by
  unfold clearOrphanSlot
  split
  · rfl
  · split <;> rfl

theorem slotFree_iff (uid : String) :
    st.slotFree callId uid = true ↔ ∀ holder, st.slots uid = some holder → holder = callId := by
  simp [CallStore.slotFree, Option.all_eq_true]

theorem slotFree_cleared (hs : st.session = none) {uid : String}
    (huid : uid = q.userFirebaseUid ∨ uid = q.creatorFirebaseUid) :
    (tryClearOrphanActiveCallSlots callId env q st).slotFree callId uid = true ↔
      ∀ holder, st.slots uid = some holder →
        holder = callId ∨ holderGone callId env holder = true := by
  have hs' : (clearOrphanSlot callId env q.userFirebaseUid st).session = none :=
    (congrArg (·.session) (clearOrphanSlot_runtime env q.userFirebaseUid)).trans hs
  have hslot : (tryClearOrphanActiveCallSlots callId env q st).slots uid =
      (st.slots uid).filter fun holder => !holderGone callId env holder := by
    unfold tryClearOrphanActiveCallSlots
    rw [clearOrphanSlot_slots env _ _ hs', clearOrphanSlot_slots env _ _ hs,
      clearOrphanSlot_slots env _ _ hs]
    rcases huid with rfl | rfl
    · by_cases h : q.userFirebaseUid = q.creatorFirebaseUid
      · simp [h, Option.filter_filter]
      · simp [h]
    · by_cases h : q.creatorFirebaseUid = q.userFirebaseUid
      · simp [h, Option.filter_filter]
      · simp [h]
  rw [slotFree_iff, hslot]
  refine forall_congr' fun holder => ?_
  rw [Option.filter_eq_some_iff]
  grind

/-- **The slots are reserved** unless one of them holds another live call. -/
theorem tryReserve_iff (hs : st.session = none) :
    (tryReserveActiveCallSlotsWithOrphanRetry callId env q st).1 = true ↔
      ∀ uid, uid = q.userFirebaseUid ∨ uid = q.creatorFirebaseUid →
        ∀ holder, st.slots uid = some holder →
          holder = callId ∨ holderGone callId env holder = true := by
  have hparties : ∀ P : String → Prop,
      (∀ uid, uid = q.userFirebaseUid ∨ uid = q.creatorFirebaseUid → P uid) ↔
        P q.userFirebaseUid ∧ P q.creatorFirebaseUid := by
    intro P
    simp
  rw [hparties]
  have huser := @slotFree_cleared callId st env q hs _ (.inl rfl)
  have hcreator := @slotFree_cleared callId st env q hs _ (.inr rfl)
  unfold tryReserveActiveCallSlotsWithOrphanRetry tryReserveActiveCallSlots
  by_cases hfirst : (st.slotFree callId q.userFirebaseUid &&
      st.slotFree callId q.creatorFirebaseUid) = true
  · simp_all [slotFree_iff]
  grind

theorem tryReserve_runtime (h : (tryReserveActiveCallSlotsWithOrphanRetry callId env q st).1 = false) :
    (tryReserveActiveCallSlotsWithOrphanRetry callId env q st).2.toRuntimeStore =
      st.toRuntimeStore := by
  unfold tryReserveActiveCallSlotsWithOrphanRetry at h ⊢
  split at h
  · cases h
  · dsimp only at h ⊢
    split at h
    · cases h
    · exact (clearOrphanSlot_runtime env _).trans (clearOrphanSlot_runtime env _)

variable (rs : List BillingReply)

theorem startAlone_reserves (hs : st.session = none) :
    ((startAlone cfg callId env q rs st).1 = true ↔ KeysFree callId env q st) ∧
      ((startAlone cfg callId env q rs st).1 = false →
        (startAlone cfg callId env q rs st).2.session = none) := by
  have htaken := @lockCallpair_taken callId st env q hs
  obtain ⟨hruntime, hslots⟩ := @lockCallpair_frame callId st env q
  unfold startAlone
  generalize lockCallpair callId env q st = locked at htaken hruntime hslots
  obtain ⟨taken, st₁⟩ := locked
  have hs₁ : st₁.session = none := (congrArg (·.session) hruntime).trans hs
  have hreserve := @tryReserve_iff callId st₁ env q hs₁
  have hkept := @tryReserve_runtime callId st₁ env q
  rw [show st₁.slots = st.slots from hslots] at hreserve
  grind [KeysFree]

/-- **A start** reserves the slots exactly when its gates let it through. -/
theorem startBillingSession_reserves :
    (startBillingSession cfg callId env q rs st).1 = true ↔ StartAdmitted callId env q st := by
  unfold startBillingSession
  split
  · rename_i h
    refine ⟨fun hfalse => absurd hfalse Bool.false_ne_true, fun hadm => ?_⟩
    rcases hadm.claimed with hc | ⟨hs, hr⟩
    · rw [hc] at h
      exact absurd h.1.symm Bool.false_ne_true
    · rw [hs, hr] at h
      rcases h.2 with ⟨⟨⟩⟩ | ⟨⟨⟩⟩
  rename_i hclaim
  split
  · rename_i h
    refine ⟨fun hfalse => absurd hfalse Bool.false_ne_true, fun hadm => ?_⟩
    simp [hadm.startLock] at h
  rename_i hlock
  split
  · rename_i h
    refine ⟨fun hfalse => absurd hfalse Bool.false_ne_true, fun hadm => ?_⟩
    simp [hadm.admitted] at h
  rename_i hadmitted
  have hclaimed : env.claimed = true ∨ (st.session = none ∧ env.reclaimed = true) := by
    cases hc : env.claimed with
    | true => exact .inl rfl
    | false =>
      refine .inr ⟨?_, ?_⟩
      · by_contra hs
        exact hclaim ⟨hc, .inl (Option.isSome_iff_ne_none.2 hs)⟩
      · by_contra hr
        exact hclaim ⟨hc, .inr (by simpa using hr)⟩
  have hgates : ∀ st' : CallStore, st'.session = none → st'.slots = st.slots →
      st'.callpair = st.callpair →
      (∀ s, st.session = some s →
        s.isBootstrappingSession = true ∧ 60000 < sessionAgeMs env.now s) →
      ((startAlone cfg callId env q rs st').1 = true ↔ StartAdmitted callId env q st) := by
    intro st' hs' hslots hpair hstale
    rw [(startAlone_reserves env q rs hs').1, KeysFree, hslots, hpair]
    exact ⟨fun hkeys => ⟨hclaimed, by simpa using hlock, by simpa using hadmitted, hstale, hkeys⟩,
      fun hadm => hadm.keys⟩
  split
  · rename_i hs
    exact hgates st hs rfl rfl fun s h => by cases hs.symm.trans h
  · rename_i s hs
    split
    · rename_i hstale
      refine hgates st.deleteSession rfl rfl rfl fun s' h => ?_
      obtain rfl := Option.mem_unique hs h
      exact hstale
    · rename_i hlive
      refine ⟨fun hfalse => absurd hfalse Bool.false_ne_true, fun hadm => ?_⟩
      exact (hlive (hadm.noSession s hs)).elim

theorem startBillingSession_rejected (hs : st.session = none)
    (h : (startBillingSession cfg callId env q rs st).1 = false) :
    (startBillingSession cfg callId env q rs st).2.session = none := by
  revert h
  unfold startBillingSession
  rw [hs]
  split
  · exact fun _ => hs
  split
  · exact fun _ => hs
  split
  · exact fun _ => hs
  · exact (startAlone_reserves env q rs hs).2

end start

/-! ### Sequences -/

theorem not_resurrects_of_blocked {o : BillingOp} (h : OpBlocked cfg callId st o) :
    ¬ Resurrects cfg callId (st, .op o) := by
  rintro (hslots | ⟨hs, hcreated⟩)
  · cases o with
    | start env q rs => exact h ((startBillingSession_reserves env q rs).1 hslots)
    | resolve env | heal env | healLight env sessionHint | tick rs => cases hslots
  have hs : st.session = none := hs
  have hlost : ¬ st.session.isSome = true := by simp [hs]
  cases o with
  | start env q rs =>
    have hrejected : (startBillingSession cfg callId env q rs st).1 = false := by
      simpa using fun hslots => h ((startBillingSession_reserves env q rs).1 hslots)
    have hnone := startBillingSession_rejected env q rs hs hrejected
    exact Option.isSome_iff_ne_none.1 hcreated hnone
  | resolve env =>
    rcases (resolved_session env st).1 hcreated with h' | h'
    · exact hlost h'
    · exact h.elim hlost fun hr => by simp [hr] at h'
  | heal env =>
    rcases (healLoaded_session _ st).1 hcreated with h' | h'
    · exact hlost h'
    · exact h.elim hlost fun hr => by simp [hr] at h'
  | healLight env sessionHint =>
    cases sessionHint with
    | none =>
      rcases (healLoaded_session env st).1 hcreated with h' | h'
      · exact hlost h'
      · exact h.elim hlost fun hr => by simp [hr] at h'
    | some hint =>
      obtain ⟨hfull, hprice, hr, htick⟩ := h.resolve_left hlost
      have hnone := healSession_idle env hs hfull hprice hr htick
      exact Option.isSome_iff_ne_none.1 hcreated hnone
  | tick rs =>
    have hidle := exec_idle (tick_idle rfl hs (h.resolve_left hlost)) rs
    have hnone : (processBillingTick cfg rs st).session = none :=
      (congrArg BillingStore.session hidle).trans hs
    exact Option.isSome_iff_ne_none.1 hcreated hnone

theorem resurrects_of_not_blocked {o : BillingOp} (hdecided : (Step.op o).decided = true)
    (h : ¬ OpBlocked cfg callId st o) : Resurrects cfg callId (st, .op o) := by
  cases o with
  | start env q rs => exact .inl ((startBillingSession_reserves env q rs).2 (not_not.1 h))
  | resolve env =>
    obtain ⟨hs, hr⟩ := not_or.1 h
    exact .inr ⟨by simpa using hs, (resolved_session env st).2 (.inr (by simpa using hr))⟩
  | heal env =>
    obtain ⟨hs, hr⟩ := not_or.1 h
    exact .inr ⟨by simpa using hs, (healLoaded_session _ st).2 (.inr (by simpa using hr))⟩
  | healLight env sessionHint =>
    cases sessionHint with
    | none =>
      obtain ⟨hs, hr⟩ := not_or.1 h
      exact .inr ⟨by simpa using hs, (healLoaded_session env st).2 (.inr (by simpa using hr))⟩
    | some hint => cases hdecided
  | tick rs => cases hdecided

theorem mem_trace {steps : List Step} {e : CallStore × Step}
    (he : e ∈ trace cfg callId steps st) : e.2 ∈ steps := by
  induction steps generalizing st with
  | nil => cases he
  | cons step steps ih =>
    rcases List.mem_cons.1 he with rfl | he
    · exact List.mem_cons_self
    · exact List.mem_cons_of_mem _ (ih he)

/-- **No ended call is resurrected** in a sequence whose operations after an end are blocked; and
where what each operation finds decides on it, in no other. -/
theorem neverResurrected_iff_blocked (cfg : BillingConfig) (callId : String) (steps : List Step)
    (st : CallStore) :
    (After Ends (Blocked cfg callId) (trace cfg callId steps st) →
      NeverResurrected cfg callId (trace cfg callId steps st)) ∧
    ((∀ step ∈ steps, step.decided = true) →
      (NeverResurrected cfg callId (trace cfg callId steps st) ↔
        After Ends (Blocked cfg callId) (trace cfg callId steps st))) := by
  have hsafe : After Ends (Blocked cfg callId) (trace cfg callId steps st) →
      NeverResurrected cfg callId (trace cfg callId steps st) := by
    intro hblocked
    refine hblocked.mono fun e _ he hres => ?_
    obtain ⟨found, step⟩ := e
    cases step with
    | op o => exact not_resurrects_of_blocked he hres
    | settle p | deadLetter | expire k => exact hres
  refine ⟨hsafe, fun hdecided => ⟨fun hnever => ?_, hsafe⟩⟩
  refine hnever.mono fun e hmem he => ?_
  obtain ⟨found, step⟩ := e
  cases step with
  | op o =>
    by_contra hfree
    exact he (resurrects_of_not_blocked (hdecided _ (mem_trace hmem)) hfree)
  | settle p | deadLetter | expire k => trivial

/-! ### An ended call that is resurrected -/

def sampleCall : CallStore where
  toRuntimeStore := sampleLive
  slots := fun _ => none
  callpair := fun _ => none

def sampleEnd : SettleProgress := ⟨7000, some 1, 1, some ("user-uid", "creator-uid")⟩

def sampleLateStart : StartEnv := ⟨8000, true, false, true, true, fun _ => none, some "creator-user"⟩

def sampleLateResolve : ResolverEnv := ⟨8000, some samplePricing⟩

/-- The settled call is started again; its heal deletes the tombstone and rebuilds the session from
the checkpoint; the dead-lettered call is rebuilt from its durable session. -/
theorem resurrected_after_end :
    ¬ NeverResurrected sampleConfig "call" (trace sampleConfig "call"
        [.settle sampleEnd, .op (.start sampleLateStart sampleRequest [])] sampleCall) ∧
      ¬ NeverResurrected sampleConfig "call" (trace sampleConfig "call"
        [.settle sampleEnd, .op (.healLight ⟨sampleLateResolve, false, [], []⟩ none)] sampleCall) ∧
      ¬ NeverResurrected sampleConfig "call" (trace sampleConfig "call"
        [.deadLetter, .op (.resolve sampleLateResolve)] sampleCall) := by
  refine ⟨?_, ?_, ?_⟩
  · refine not_after (n := 1) rfl ⟨_, List.mem_cons_self, trivial⟩ fun h => h (.inl ?_)
    decide +kernel
  · refine not_after (n := 1) rfl ⟨_, List.mem_cons_self, trivial⟩ fun h => h (.inr ⟨?_, ?_⟩)
    · decide +kernel
    · decide +kernel
  · refine not_after (n := 1) rfl ⟨_, List.mem_cons_self, trivial⟩ fun h => h (.inr ⟨?_, ?_⟩)
    · decide +kernel
    · decide +kernel

end VibemeetBackend.EndedCall
