import VibemeetBackend.Billing.Conservation

/-!
# The checkpoint behind the live session

With the delta cursor, a tick moves the checkpoint by `advanceBillingCheckpointCursor` alone, which
never succeeds.  So the checkpoint of a call stays where its start or a pricing repair left it, and
every tick that persists a charge leaves it behind the session.
-/

namespace VibemeetBackend.Billing

open Async

/-! ### What the checkpoint should hold -/

def CheckpointHolds (st : BillingStore) : Prop :=
  ∃ s introMicros walletMicros d, st.session = some s ∧ st.introMicros = some introMicros ∧
    st.walletMicros = some walletMicros ∧ st.checkpoint = some d ∧
    d.totalDeductedMicros = s.totalDeductedMicros ∧ d.totalEarnedMicros = s.totalEarnedMicros ∧
    d.lastProcessedAtMs = s.lastProcessedAt ∧
    d.remainingUserBalanceMicros = introMicros + walletMicros ∧
    d.billingSequence = s.billingSequence

def PersistsCharge (cfg : BillingConfig) (st : BillingStore) (rs : List BillingReply) : Prop :=
  (tickStore cfg st rs).session.map CallSession.totalDeductedMicros ≠
    st.session.map CallSession.totalDeductedMicros

/-- Every `advanceBillingCheckpointCursor` of a tick succeeds. -/
def AdvancesSucceed (cfg : BillingConfig) (st : BillingStore) (rs : List BillingReply) : Prop :=
  ∀ e ∈ (processBillingCycleInternal cfg).events execBilling rs st, ∀ data v,
    e.cmd = .advanceCursor data v → advanceSucceeds data v e.before.checkpoint = true

/-- After each tick of the run that persists its charge, the checkpoint holds what the keys hold and
the tick's advance succeeded. -/
def CheckpointTracks (cfg : BillingConfig) (st : BillingStore) (ticks : List (List BillingReply)) :
    Prop :=
  ∀ done rs rest, ticks = done ++ rs :: rest → PersistsCharge cfg (runTicks cfg done st) rs →
    CheckpointHolds (runTicks cfg (done ++ [rs]) st) ∧
      AdvancesSucceed cfg (runTicks cfg done st) rs

/-! ### The stores of a tick -/

/-- A session of the current schema with total `D`. -/
structure CallSession.HasTotal (D : ℤ) (s : CallSession) : Prop where
  current : billingSessionSchemaVersion ≤ s.schemaVersion
  total : s.totalDeductedMicros = D

variable {s : CallSession}

theorem CallSession.HasTotal.emitted {D : ℤ} (h : s.HasTotal D) (now : ℤ) :
    (s.emitted now).HasTotal D := ⟨h.current, h.total⟩

/-- A store whose session has the total `D`, which the checkpoint does not exceed. -/
structure Uncharged (D : ℤ) (st : BillingStore) : Prop where
  keys : KeysPresent st
  session : ∃ s, st.session = some s ∧ s.HasTotal D
  checkpoint : ∃ d, st.checkpoint = some d ∧ d.totalDeductedMicros ≤ D

/-- A store whose checkpoint has fallen behind `D`, the total of its session. -/
structure Lagging (D : ℤ) (st : BillingStore) : Prop where
  keys : KeysPresent st
  session : ∃ s, st.session = some s ∧ s.HasTotal D
  checkpoint : ∃ d, st.checkpoint = some d ∧ d.totalDeductedMicros < D

theorem Lagging.uncharged {D : ℤ} {st : BillingStore} (h : Lagging D st) : Uncharged D st := by
  obtain ⟨d, hd, hlt⟩ := h.checkpoint
  exact ⟨h.keys, h.session, d, hd, hlt.le⟩

theorem Lagging.not_holds {D : ℤ} {st : BillingStore} (h : Lagging D st) :
    ¬ CheckpointHolds st := by
  obtain ⟨s, hs, htotal⟩ := h.session
  obtain ⟨d, hd, hlt⟩ := h.checkpoint
  rintro ⟨s', _, _, d', hs', -, -, hd', heq, -⟩
  rw [hs, Option.some.injEq] at hs'
  rw [hd, Option.some.injEq] at hd'
  subst hs' hd'
  have := htotal.total
  omega

/-- The commands of a tick before its charge. -/
inductive KeepsTotal (D : ℤ) : BillingCmd → Prop where
  | persistSession {s : CallSession} (h : s.HasTotal D) : KeepsTotal D (.persistSession s)
  | persistAll {s : CallSession} (h : s.HasTotal D) (path : RedisPath) (i w e : ℤ) :
      KeepsTotal D (.persistAll path s i w e)
  | upsertSnapshot {data : CheckpointSnapshot} (h : data.totalDeductedMicros = D) :
      KeepsTotal D (.upsertSnapshot data)
  | advanceCursor (data : CheckpointSnapshot) (v : ℤ) : KeepsTotal D (.advanceCursor data v)

theorem KeepsTotal.uncharged {D : ℤ} {c : BillingCmd} (hc : KeepsTotal D c) (r : BillingReply)
    (st : BillingStore) (h : Uncharged D st) : Uncharged D (execBilling c r st) := by
  have hkeys := execBilling_keysPresent c r st h.keys
  cases hc with
  | persistSession hs => exact ⟨hkeys, ⟨_, rfl, hs⟩, h.checkpoint⟩
  | persistAll hs => exact ⟨hkeys, ⟨_, rfl, hs⟩, h.checkpoint⟩
  | upsertSnapshot hd =>
    obtain ⟨d, hd', ht, -⟩ := upsertSnapshot_totals _ st.checkpoint
    exact ⟨hkeys, h.session, d, hd', (ht.trans hd).le⟩
  | advanceCursor data v =>
    refine ⟨hkeys, h.session, ?_⟩
    show ∃ d, advanceBillingCheckpointCursor data v st.checkpoint = some d ∧ _
    exact h.checkpoint

variable {cfg : BillingConfig} {D : ℤ} {st : BillingStore} {t : TickState}

theorem holds_keepsTotal {α : Type} {c : BillingCmd} {I : BillingStore → Prop}
    {f : BillingReply × BillingStore → BillingProg α} {Q : α → BillingStore → Prop}
    (hc : KeepsTotal D c) (hI : ∀ st, Uncharged D st → I st) (hst : Uncharged D st)
    (h : ∀ r st', Uncharged D st' → (f (r, st)).Holds execBilling I Q st') :
    (issue c >>= f).Holds execBilling I Q st :=
  Prog.holds_command_bind.2 fun r =>
    ⟨hI _ (hc.uncharged r st hst), h r _ (hc.uncharged r st hst)⟩

/-! ### One tick -/

/-- The stores of a tick that found a total of `D`. -/
def TickLag (D : ℤ) (st : BillingStore) : Prop := Uncharged D st ∨ ∃ D', D < D' ∧ Lagging D' st

/-- Every store of a program that starts in `st` is one of these. -/
abbrev KeepsLag (D : ℤ) {α : Type} (p : BillingProg α) (st : BillingStore) : Prop :=
  p.Holds execBilling (TickLag D) (fun _ st' => TickLag D st') st

theorem Lagging.persistSession (h : Lagging D st) (hs : s.HasTotal D) (r : BillingReply) :
    Lagging D (execBilling (.persistSession s) r st) :=
  ⟨h.keys, ⟨s, rfl, hs⟩, h.checkpoint⟩

theorem chargeTick_lag {deduct : ℤ} (hv : cfg.billingDeltaCursorV3Enabled = true)
    (hst : Uncharged D st) (ht : t.session.HasTotal D) (hpos : 0 < deduct) :
    KeepsLag D (chargeTick cfg t deduct) st := by
  unfold chargeTick
  split
  · exact .inl hst
  rw [checkpointCharge, if_pos hv]
  have hcharged : (charge t deduct).session.HasTotal (D + deduct) :=
    ⟨ht.current, congrArg (· + deduct) ht.total⟩
  refine Prog.holds_bind.2 ?_
  refine holds_keepsTotal (.advanceCursor _ _) (fun _ h => .inl h) hst fun r st' hst' => ?_
  -- the keys move to the new total and the checkpoint stays
  refine Prog.holds_command_bind.2 fun r' => ?_
  obtain ⟨d, hd, hle⟩ := hst'.checkpoint
  have hlag : Lagging (D + deduct) (execBilling (.persistAll .tickPersist (charge t deduct).session
      (charge t deduct).introMicros (charge t deduct).walletMicros
      (charge t deduct).earningsMicros) r' st') :=
    ⟨⟨rfl, rfl, rfl⟩, ⟨_, rfl, hcharged⟩, d, hd, by omega⟩
  have hnew : ∀ {st}, Lagging (D + deduct) st → TickLag D st := fun h => .inr ⟨_, by omega, h⟩
  refine ⟨hnew hlag, Prog.holds_bind.2 ?_⟩
  refine (emitUpdate_holds (hnew hlag) fun now r => ?_).mono fun _ st'' h => ?_
  · exact hnew (hlag.persistSession (hcharged.emitted now) r)
  · split <;> exact h

theorem pricedTick_lag {now : ℤ} (hv : cfg.billingDeltaCursorV3Enabled = true)
    (hst : Uncharged D st) (ht : t.session.HasTotal D) :
    KeepsLag D (pricedTick cfg t now) st := by
  have hkeepalive : ∀ result : BillingTickResult, KeepsLag D (do
      maybeEmitBillingKeepaliveIfDue t.session
      return result) st := fun result =>
    Prog.holds_bind.2 ((keepalive_holds (.inl hst) fun now r => .inl
      ((KeepsTotal.persistSession (ht.emitted now)).uncharged r st hst)).mono fun _ st' h => h)
  unfold pricedTick
  dsimp only
  split
  · exact hkeepalive .tickOk
  · refine holds_read rfl (.inl hst) fun r => ?_
    split
    · exact .inl hst
    · split
      · rename_i hpos
        exact chargeTick_lag hv hst ht hpos
      · split
        · exact .inl hst
        · exact hkeepalive .tickOk

theorem Promotes.hasTotal {existing : CallSession} {p : Promotion} (hp : Promotes existing p)
    (h : existing.HasTotal D) : p.session.HasTotal D := by
  obtain ⟨cfg', user, creator, b, startTime, hs⟩ := hp
  rw [hs]
  exact ⟨le_rfl, h.total⟩

theorem repair_uncharged (hst : Uncharged D st) (hs : s.HasTotal D) :
    (repairSessionPricingIfNeeded cfg s).Holds execBilling (Uncharged D)
      (fun s' st' => Uncharged D st' ∧ s'.HasTotal D) st := by
  unfold repairSessionPricingIfNeeded
  split
  · refine Prog.holds_bind.2 ((promotion_holds (fun p hp c hc r st hst => ?_) hst).mono
      fun result st' h => ?_)
    · have htotal := hp.hasTotal hs
      cases hc with
      | session => exact (KeepsTotal.persistSession htotal).uncharged r st hst
      | keys => exact (KeepsTotal.persistAll htotal _ _ _ _).uncharged r st hst
      | checkpoint => exact (KeepsTotal.upsertSnapshot htotal.total).uncharged r st hst
    · split
      · exact ⟨h.1, (h.2 _ rfl).hasTotal hs⟩
      · refine holds_read rfl h.1 fun _ => ?_
        obtain ⟨live, hlive, htotal⟩ := h.1.session
        dsimp only
        rw [hlive]
        show Uncharged D st' ∧ CallSession.HasTotal D (if _ then _ else _)
        split
        · exact ⟨h.1, htotal.current, htotal.total⟩
        · exact ⟨h.1, hs⟩
      · exact ⟨h.1, hs⟩
  · split
    · exact ⟨hst, hs⟩
    · unfold patchSessionPricingOnly
      split
      · exact ⟨hst, hs⟩
      refine holds_read rfl hst fun r => ?_
      dsimp only
      split
      · exact ⟨hst, hs⟩
      split
      · exact ⟨hst, hs⟩
      rename_i p _ _
      have hs' : (patchedPricing s p).HasTotal D := ⟨hs.current, hs.total⟩
      refine holds_keepsTotal (.persistSession hs') (fun _ h => h) hst fun _ st' hst' => ?_
      refine holds_read rfl hst' fun _ => holds_read rfl hst' fun _ => ?_
      exact holds_keepsTotal (.upsertSnapshot hs'.total) (fun _ h => h) hst'
        fun _ st'' hst'' => ⟨hst'', hs'⟩

theorem ownedTick_lag {now : ℤ} (hv : cfg.billingDeltaCursorV3Enabled = true)
    (hst : Uncharged D st) (ht : t.session.HasTotal D) :
    KeepsLag D (ownedTick cfg t now) st := by
  unfold ownedTick
  split
  · exact pricedTick_lag hv hst ht
  · refine Prog.holds_bind.2 (((repair_uncharged hst ht).mono_inv fun _ h => .inl h).mono
      fun s st' h => ?_)
    split
    · exact pricedTick_lag hv h.1 h.2
    · exact .inl h.1

theorem loadedTick_lag (hv : cfg.billingDeltaCursorV3Enabled = true)
    (hst : Uncharged D st) (ht : t.session.HasTotal D) :
    KeepsLag D (loadedTick cfg t false) st := by
  refine holds_read rfl (.inl hst) fun _ => ?_
  dsimp only
  split
  · exact .inl hst
  · refine holds_read rfl (.inl hst) fun rc => holds_read rfl (.inl hst) fun ro => ?_
    split
    · exact .inl hst
    · exact ownedTick_lag hv hst ht

/-- **One tick** with the delta cursor: its stores hold the total it found, or a greater total that
the checkpoint has not reached. -/
theorem tick_lag (hv : cfg.billingDeltaCursorV3Enabled = true) (hst : Uncharged D st) :
    KeepsLag D (processBillingCycleInternal cfg) st := by
  refine holds_read rfl (.inl hst) fun r => ?_
  dsimp only
  split
  · obtain ⟨s, hs, htotal⟩ := hst.session
    refine Prog.holds_bind.2 ((loadTickState_live (.inl hst) hs htotal.current hst.keys).mono
      fun loaded st' h => ?_)
    obtain ⟨rfl, now, rfl⟩ := h
    refine loadedTick_lag hv hst ?_
    simp only [LoadedState.enter, liveState, migrateSession_current _ _ htotal.current]
    exact ⟨htotal.current, htotal.total⟩
  · exact .inl hst

theorem not_holds_of_persistsCharge (hv : cfg.billingDeltaCursorV3Enabled = true)
    (hst : Uncharged D st) {rs : List BillingReply} (hcharge : PersistsCharge cfg st rs) :
    ¬ CheckpointHolds (tickStore cfg st rs) := by
  obtain hun | ⟨D', -, hlag⟩ := (Prog.exec_of_holds (.inl hst) (tick_lag hv hst) rs).1
  · obtain ⟨s, hs, htotal⟩ := hst.session
    obtain ⟨s', hs', htotal'⟩ := hun.session
    refine absurd ?_ hcharge
    simp [tickStore, hs, hs', htotal.total, htotal'.total]
  · exact hlag.not_holds

/-! ### Runs of a started call -/

theorem runTicks_uncharged (hv : cfg.billingDeltaCursorV3Enabled = true)
    (ticks : List (List BillingReply)) (hst : Uncharged D st) :
    ∃ D', Uncharged D' (runTicks cfg ticks st) := by
  induction ticks generalizing D st with
  | nil => exact ⟨D, hst⟩
  | cons rs ticks ih =>
    obtain hun | ⟨D', -, hlag⟩ := (Prog.exec_of_holds (.inl hst) (tick_lag hv hst) rs).1
    · exact ih hun
    · exact ih hlag.uncharged

theorem startSession_uncharged (hv : cfg.billingDeltaCursorV3Enabled = true) (q : StartRequest)
    (st : BillingStore) :
    (startSession cfg q).Holds execBilling (fun _ => True)
      (fun result st' => ∀ s, result = .started s → Uncharged s.totalDeductedMicros st') st := by
  refine holds_read rfl trivial fun r => ?_
  refine Prog.holds_command_bind.2 fun r' => ⟨trivial, ?_⟩
  have hkeys : KeysPresent (execBilling (.persistAll .earlySeed (earlySession cfg q r.now) 0 0 0)
      r' st) := ⟨rfl, rfl, rfl⟩
  refine Prog.holds_bind.2 (((promotion_holds (fun p _ c _ r st h => execBilling_keysPresent c r st h)
    hkeys).mono_inv fun _ _ => trivial).mono fun result st' h => ?_)
  split
  · exact fun s hs => nomatch hs
  · rename_i p
    obtain ⟨cfg', user, creator, b, startTime, hp⟩ := h.2 p rfl
    have hcurrent : billingSessionSchemaVersion ≤ p.session.schemaVersion := by
      rw [hp]
      exact le_rfl
    unfold activateSession
    refine holds_read rfl trivial fun r => ?_
    refine Prog.holds_command_bind.2 fun r' => ⟨trivial, ?_⟩
    refine holds_read rfl trivial fun rp => ?_
    dsimp only
    rw [if_pos hv]
    split
    · exact fun s hs => nomatch hs
    · refine Prog.holds_command_bind.2 fun r'' => ⟨trivial, fun s hs => ?_⟩
      obtain rfl := StartOutcome.started.inj hs
      obtain ⟨d, hd, ht, -⟩ := upsertSnapshot_totals
        ((startedSession p.session r.now).snapshot p.spendableMicros) st'.checkpoint
      exact ⟨h.1, ⟨_, rfl, hcurrent, rfl⟩, d, hd, ht.le⟩

theorem checkpointTracks_iff (cfg : BillingConfig) (hv : cfg.billingDeltaCursorV3Enabled = true)
    (q : StartRequest) (st₀ st : BillingStore) (rs : List BillingReply) (s : CallSession)
    (hstart : (startSession cfg q).exec execBilling rs st₀ = (st, some (.started s)))
    (ticks : List (List BillingReply)) :
    CheckpointTracks cfg st ticks ↔
      ∀ done rs rest, ticks = done ++ rs :: rest →
        ¬ PersistsCharge cfg (runTicks cfg done st) rs := by
  have hstarted := (Prog.exec_of_holds trivial (startSession_uncharged hv q st₀) rs).2 (.started s)
  rw [hstart] at hstarted
  constructor
  · intro h done rs rest hsplit hcharge
    obtain ⟨D, hD⟩ := runTicks_uncharged hv done (hstarted rfl s rfl)
    refine not_holds_of_persistsCharge hv hD hcharge ?_
    have hholds := (h done rs rest hsplit hcharge).1
    rwa [runTicks, List.foldl_append] at hholds
  · intro h done rs rest hsplit hcharge
    exact absurd hcharge (h done rs rest hsplit)

/-- A started call, charged once by a tick five seconds later. -/
def sampleStart : BillingStore × Option StartOutcome :=
  (startSession sampleConfig sampleRequest).exec execBilling
    (List.replicate 10 (sampleReply 1000) ++ { sampleReply 1000 with ok := false } ::
      List.replicate 3 (sampleReply 1000)) emptyStore

theorem charge_misses_checkpoint :
    ¬ CheckpointTracks sampleConfig sampleStart.1 [sampleTick 6000] := by
  have hs : (tickStore sampleConfig sampleStart.1 (sampleTick 6000)).session.map
      CallSession.totalDeductedMicros = some 5000000 := by decide +kernel
  have hd : (tickStore sampleConfig sampleStart.1 (sampleTick 6000)).checkpoint.map
      Checkpoint.totalDeductedMicros = some 0 := by decide +kernel
  have h₀ : sampleStart.1.session.map CallSession.totalDeductedMicros = some 0 := by
    decide +kernel
  intro h
  have hcharge : PersistsCharge sampleConfig sampleStart.1 (sampleTick 6000) := by
    rw [PersistsCharge, hs, h₀]
    simp
  obtain ⟨s, i, w, d, hs', -, -, hd', heq, -⟩ := (h [] _ [] rfl hcharge).1
  change (tickStore sampleConfig sampleStart.1 (sampleTick 6000)).session = some s at hs'
  change (tickStore sampleConfig sampleStart.1 (sampleTick 6000)).checkpoint = some d at hd'
  rw [hs', Option.map_some, Option.some.injEq] at hs
  rw [hd', Option.map_some, Option.some.injEq] at hd
  omega

theorem sampleStart_started :
    (match sampleStart.2 with
      | some (.started _) => true
      | _ => false) = true := by
  decide +kernel

theorem checkpointTracks_iff_sample :
    ∃ s, sampleStart.2 = some (.started s) ∧
      (CheckpointTracks sampleConfig sampleStart.1 [sampleTick 6000] ↔
        ∀ done rs rest, [sampleTick 6000] = done ++ rs :: rest →
          ¬ PersistsCharge sampleConfig (runTicks sampleConfig done sampleStart.1) rs) := by
  have hok := sampleStart_started
  split at hok
  · rename_i s hs
    exact ⟨s, hs, checkpointTracks_iff sampleConfig rfl sampleRequest emptyStore sampleStart.1 _ s
      (Prod.ext rfl hs) _⟩
  · cases hok

end VibemeetBackend.Billing
