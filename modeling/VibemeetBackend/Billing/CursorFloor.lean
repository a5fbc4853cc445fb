import VibemeetBackend.Async.Answers
import VibemeetBackend.Billing.Tick

/-!
# The cursor stays above a floor

A tick charges from the cursor of the session it loads.  When the session and the checkpoint of a
call are at or above a time, ticks whose clock is past it load and leave no cursor below it.
-/

namespace VibemeetBackend.Billing

open Async

/-- A time that was never set counts as zero. -/
def TimeAbove (c x : ℤ) : Prop := x = 0 ∨ c ≤ x

/-- A session of the current schema whose cursor is at or above `c`. -/
structure CallSession.Above (c : ℤ) (s : CallSession) : Prop where
  current : billingSessionSchemaVersion ≤ s.schemaVersion
  cursor : c ≤ s.lastProcessedAt
  start : TimeAbove c s.startTime

/-- A checkpoint from which no cursor below `c` is rebuilt. -/
structure Checkpoint.Above (c : ℤ) (cp : Checkpoint) : Prop where
  start : TimeAbove c cp.startTimeMs
  cursor : TimeAbove c cp.lastProcessedAtMs

structure AtOrAbove (c : ℤ) (st : BillingStore) : Prop where
  session : ∀ s, st.session = some s → s.Above c
  checkpoint : ∀ cp, st.checkpoint = some cp → cp.Above c

/-- The clock of an answer is not before `c`. -/
def ClockFrom (c : ℤ) (r : BillingReply) : Prop := c ≤ r.now

/-- A program under clocks from `c` keeps the stores at or above it. -/
abbrev KeepsAbove (c : ℤ) {α : Type} (p : BillingProg α) (Q : α → Prop) (st : BillingStore) :
    Prop :=
  p.HoldsOn (ClockFrom c) execBilling (AtOrAbove c) (fun a st' => AtOrAbove c st' ∧ Q a) st

variable {cfg : BillingConfig} {c : ℤ} {st : BillingStore} {s : CallSession} {t : TickState}

theorem numOr_above {x d : ℤ} (hx : TimeAbove c x) (hd : c ≤ d) : c ≤ numOr x d := by
  unfold numOr
  obtain rfl | hx := hx
  · exact hd
  · split
    · exact hd
    · exact hx

/-! ### What a command may write -/

/-- A command writes nothing below `c`. -/
def WritesAbove (c : ℤ) : BillingCmd → Prop
  | .persistSession s => s.Above c
  | .persistAll _ s _ _ _ => s.Above c
  | .upsertSnapshot data => TimeAbove c data.startTimeMs ∧ TimeAbove c data.lastProcessedAtMs
  | _ => True

theorem upsertSnapshot_above {data : CheckpointSnapshot} {doc : Option Checkpoint}
    (hstart : TimeAbove c data.startTimeMs) (hcursor : TimeAbove c data.lastProcessedAtMs) :
    ∀ cp, upsertBillingCheckpointSnapshot data doc = some cp → cp.Above c := by
  intro cp hcp
  cases doc with
  | none =>
    cases hcp
    exact ⟨hstart, hcursor⟩
  | some d =>
    cases hcp
    exact ⟨hstart, hcursor⟩

theorem upsertCheckpoint_above {doc : Option Checkpoint} (s : CallSession)
    (h : ∀ cp, doc = some cp → cp.Above c) :
    ∀ cp, upsertBillingCheckpoint s doc = some cp → cp.Above c := by
  intro cp hcp
  cases doc with
  | none =>
    cases hcp
    exact ⟨.inl rfl, .inl rfl⟩
  | some d =>
    cases hcp
    exact ⟨(h d rfl).start, (h d rfl).cursor⟩

theorem exec_atOrAbove {cmd : BillingCmd} (hcmd : WritesAbove c cmd) (r : BillingReply)
    (hst : AtOrAbove c st) : AtOrAbove c (execBilling cmd r st) := by
  cases cmd with
  | persistSession s =>
    refine ⟨?_, hst.checkpoint⟩
    intro s' hs'
    cases hs'
    exact hcmd
  | persistAll path s intro wallet earnings =>
    refine ⟨?_, hst.checkpoint⟩
    intro s' hs'
    cases hs'
    exact hcmd
  | upsertSnapshot data => exact ⟨hst.session, upsertSnapshot_above hcmd.1 hcmd.2⟩
  | upsertCheckpoint s => exact ⟨hst.session, upsertCheckpoint_above s hst.checkpoint⟩
  | advanceCursor data v =>
    have hkept := (advance_rejected data v st.checkpoint).2
    refine ⟨hst.session, ?_⟩
    show ∀ cp, advanceBillingCheckpointCursor data v st.checkpoint = some cp → _
    exact hst.checkpoint
  | deleteLegacyCoins => exact ⟨hst.session, hst.checkpoint⟩
  | _ => exact hst

theorem CallSession.Above.snapshot (h : s.Above c) (remaining : ℤ) :
    WritesAbove c (.upsertSnapshot (s.snapshot remaining)) :=
  ⟨h.start, .inr h.cursor⟩

theorem keepsAbove_command {α : Type} {cmd : BillingCmd}
    {f : BillingReply × BillingStore → BillingProg α} {Q : α → Prop} (hcmd : WritesAbove c cmd)
    (hst : AtOrAbove c st)
    (h : ∀ r, c ≤ r.now → ∀ st', AtOrAbove c st' → KeepsAbove c (f (r, st)) Q st') :
    KeepsAbove c (issue cmd >>= f) Q st := by
  apply Prog.holdsOn_command_bind.2
  intro r hr
  have hstep := exec_atOrAbove hcmd r hst
  exact ⟨hstep, h r hr _ hstep⟩

theorem keepsAbove_bind {α β : Type} {p : BillingProg α} {f : α → BillingProg β} {P : α → Prop}
    {Q : β → Prop} (hp : KeepsAbove c p P st)
    (hf : ∀ a, P a → ∀ st', AtOrAbove c st' → KeepsAbove c (f a) Q st') :
    KeepsAbove c (p >>= f) Q st := by
  apply Prog.holdsOn_bind.2
  apply hp.mono
  intro a st' h
  exact hf a h.2 st' h.1

/-! ### What a tick loads -/

theorem CallSession.Above.normalizeV4 (h : s.Above c) : s.normalizeV4.Above c :=
  ⟨h.current, h.cursor, h.start⟩

variable {now : ℤ}

theorem sessionOfCheckpoint_above {cp : Checkpoint} (hcp : cp.Above c) (hnow : c ≤ now)
    (price rate : ℤ) : (sessionOfCheckpoint cfg cp price rate now).Above c := by
  have hstart : c ≤ numOr cp.startTimeMs now := numOr_above hcp.start hnow
  exact ⟨le_rfl, numOr_above hcp.cursor hstart, .inr hstart⟩

theorem checkpointPricing_above (hst : AtOrAbove c st) (cp : Checkpoint) :
    KeepsAbove c (checkpointPricing cp) (fun _ => True) st := by
  unfold checkpointPricing
  split
  · exact keepsAbove_command trivial hst fun _ _ _ hst' => ⟨hst', trivial⟩
  · exact ⟨hst, trivial⟩

theorem rebuildFromCheckpoint_above (hst : AtOrAbove c st) :
    KeepsAbove c (rebuildFromCheckpoint cfg)
      (fun rebuilt => ∀ l, rebuilt = some l → l.session.Above c) st := by
  refine keepsAbove_command trivial hst fun _ _ st₁ hst₁ => ?_
  dsimp only
  split
  · exact ⟨hst₁, fun l hl => nomatch hl⟩
  rename_i cp hcp
  have habove := hst.checkpoint cp hcp
  unfold buildSessionFromCheckpoint
  split
  · refine keepsAbove_command trivial hst₁ fun rc hrc st₂ hst₂ => ?_
    have hbuilt : ∀ price rate, (sessionOfCheckpoint cfg cp price rate rc.now).Above c :=
      sessionOfCheckpoint_above habove hrc
    refine keepsAbove_bind (checkpointPricing_above hst₂ cp) fun pricing _ st₃ hst₃ => ?_
    refine ⟨hst₃, ?_⟩
    intro l hl
    cases hl
    exact hbuilt _ _
  · exact ⟨hst₁, fun l hl => nomatch hl⟩

theorem loadTickState_atOrAbove (cfg : BillingConfig) (hst : AtOrAbove c st) :
    KeepsAbove c (loadTickState cfg)
      (fun loaded => ∀ l old, loaded = some (l, old) → l.session.Above c ∧ old = false) st := by
  refine keepsAbove_command trivial hst fun _ _ st₀ hst₀ => ?_
  dsimp only
  split
  · split
    · refine keepsAbove_bind (rebuildFromCheckpoint_above hst₀) fun rebuilt hrebuilt st₁ hst₁ => ?_
      refine ⟨hst₁, ?_⟩
      intro l old hl
      obtain ⟨l', hl', heq⟩ := Option.map_eq_some_iff.1 hl
      obtain ⟨rfl, rfl⟩ := Prod.mk.inj heq
      exact ⟨hrebuilt l' hl', rfl⟩
    · exact ⟨hst₀, fun l old hl => nomatch hl⟩
  rename_i raw hraw
  have habove := hst.session raw hraw
  have hcurrent : decide (raw.schemaVersion < billingSessionSchemaVersion) = false :=
    decide_eq_false (not_lt.2 habove.current)
  refine keepsAbove_command trivial hst₀ fun _ _ st₁ hst₁ => ?_
  refine keepsAbove_command trivial hst₁ fun _ _ st₂ hst₂ => ?_
  refine keepsAbove_command trivial hst₂ fun _ _ st₃ hst₃ => ?_
  refine keepsAbove_command trivial hst₃ fun _ _ st₄ hst₄ => ?_
  refine keepsAbove_command trivial hst₄ fun rc _ st₅ hst₅ => ?_
  have hlive : ∀ i w l e, (liveState cfg raw i w l e rc.now).session.Above c := by
    intro i w l e
    show (migrateSession cfg raw e rc.now).1.Above c
    rw [migrateSession_current e rc.now habove.current]
    exact habove.normalizeV4
  split
  · refine keepsAbove_bind (rebuildFromCheckpoint_above hst₅) fun rebuilt hrebuilt st₆ hst₆ => ?_
    refine ⟨hst₆, ?_⟩
    intro l old hl
    cases hl
    refine ⟨?_, hcurrent⟩
    cases rebuilt with
    | none => exact hlive _ _ _ _
    | some l' =>
      have hmerged := hlive st₀.introMicros st₁.walletMicros st₂.legacyCoins st₃.earnings
      exact ⟨hmerged.current, (hrebuilt l' rfl).cursor, hmerged.start⟩
  · refine ⟨hst₅, ?_⟩
    intro l old hl
    cases hl
    exact ⟨hlive _ _ _ _, hcurrent⟩

/-! ### The pricing repair -/

theorem readBalances_above (hst : AtOrAbove c st) (existing : CallSession) (opts : PromoteOpts)
    (b : PromotedBalances) :
    KeepsAbove c (readBalances existing opts b) (fun _ => True) st := by
  unfold readBalances
  split
  · refine keepsAbove_command trivial hst fun _ _ st₁ hst₁ => ?_
    exact keepsAbove_command trivial hst₁ fun _ _ st₂ hst₂ => ⟨hst₂, trivial⟩
  · exact ⟨hst, trivial⟩

theorem seedPromotion_above (hst : AtOrAbove c st) {p : Promotion} (hp : p.session.Above c)
    (fromRuntime : Bool) : KeepsAbove c (seedPromotion p fromRuntime) (fun _ => True) st := by
  unfold seedPromotion
  split
  · refine keepsAbove_command hp hst fun _ _ st₁ hst₁ => ?_
    exact keepsAbove_command (hp.snapshot _) hst₁ fun _ _ st₂ hst₂ => ⟨hst₂, trivial⟩
  · refine keepsAbove_command hp hst fun _ _ st₁ hst₁ => ?_
    exact keepsAbove_command (hp.snapshot _) hst₁ fun _ _ st₂ hst₂ => ⟨hst₂, trivial⟩

theorem promotedSession_above (cfg : BillingConfig) {existing : CallSession}
    (hs : TimeAbove c existing.startTime) (user : PromotedUser) (creator : PromotedCreator)
    (b : PromotedBalances) (hnow : c ≤ now) (preserveStartTime : Bool) :
    (promotedSession cfg existing user creator b
      (if preserveStartTime then numOr existing.startTime now else now)).Above c := by
  have hstart : c ≤ if preserveStartTime then numOr existing.startTime now else now := by
    split
    · exact numOr_above hs hnow
    · exact hnow
  exact ⟨le_rfl, hstart, .inr hstart⟩

theorem promotion_above {existing : CallSession} {opts : PromoteOpts} (hst : AtOrAbove c st)
    (hs : TimeAbove c existing.startTime) :
    KeepsAbove c (promoteBootstrappingSession cfg existing opts)
      (fun result => ∀ p, result = .ok p → p.session.Above c) st := by
  refine keepsAbove_command trivial hst fun _ _ st₀ hst₀ => ?_
  dsimp only
  split
  · exact ⟨hst₀, fun p hp => nomatch hp⟩
  refine keepsAbove_command trivial hst₀ fun _ _ st₁ hst₁ => ?_
  split
  · exact ⟨hst₁, fun p hp => nomatch hp⟩
  rename_i user _
  refine keepsAbove_command trivial hst₁ fun _ _ st₂ hst₂ => ?_
  split
  · exact ⟨hst₂, fun p hp => nomatch hp⟩
  rename_i creator _
  refine keepsAbove_bind (readBalances_above hst₂ _ _ _) fun b _ st₃ hst₃ => ?_
  unfold promoteWith
  split
  · exact ⟨hst₃, fun p hp => nomatch hp⟩
  refine keepsAbove_command trivial hst₃ fun r hr st₄ hst₄ => ?_
  have hp := promotedSession_above cfg hs user creator b hr opts.preserveStartTime
  refine keepsAbove_bind (seedPromotion_above hst₄ hp _) fun _ _ st₅ hst₅ => ⟨hst₅, ?_⟩
  intro p h
  cases h
  exact hp

theorem patchSessionPricingOnly_above (hst : AtOrAbove c st) (hs : s.Above c) :
    KeepsAbove c (patchSessionPricingOnly s) (CallSession.Above c) st := by
  unfold patchSessionPricingOnly
  split
  · exact ⟨hst, hs⟩
  refine keepsAbove_command trivial hst fun r _ st₁ hst₁ => ?_
  dsimp only
  split
  · exact ⟨hst₁, hs⟩
  split
  · exact ⟨hst₁, hs⟩
  rename_i p _ _
  have hs' : (patchedPricing s p).Above c := ⟨hs.current, hs.cursor, hs.start⟩
  refine keepsAbove_command hs' hst₁ fun _ _ st₂ hst₂ => ?_
  refine keepsAbove_command trivial hst₂ fun _ _ st₃ hst₃ => ?_
  refine keepsAbove_command trivial hst₃ fun _ _ st₄ hst₄ => ?_
  exact keepsAbove_command (hs'.snapshot _) hst₄ fun _ _ st₅ hst₅ => ⟨hst₅, hs'⟩

theorem adoptPromoted_above (hst : AtOrAbove c st) (hs : s.Above c) :
    KeepsAbove c (adoptPromoted s) (CallSession.Above c) st := by
  refine keepsAbove_command trivial hst fun _ _ st₁ hst₁ => ?_
  dsimp only
  split
  · exact ⟨hst₁, hs⟩
  rename_i live hlive
  have habove := hst.session live hlive
  refine ⟨hst₁, ?_⟩
  show (if 0 < live.billingPrice then s.assign live else s).Above c
  split
  · exact ⟨habove.current, habove.cursor, habove.start⟩
  · exact hs

theorem repair_above (hst : AtOrAbove c st) (hs : s.Above c) :
    KeepsAbove c (repairSessionPricingIfNeeded cfg s) (CallSession.Above c) st := by
  unfold repairSessionPricingIfNeeded
  split
  · refine keepsAbove_bind (promotion_above hst hs.start) fun result hresult st₁ hst₁ => ?_
    split
    · exact ⟨hst₁, hresult _ rfl⟩
    · exact adoptPromoted_above hst₁ hs
    · exact ⟨hst₁, hs⟩
  · split
    · exact ⟨hst, hs⟩
    · exact patchSessionPricingOnly_above hst hs

/-! ### One tick -/

theorem keepalive_above (hst : AtOrAbove c st) (hs : s.Above c) :
    KeepsAbove c (maybeEmitBillingKeepaliveIfDue s) (fun _ => True) st := by
  refine keepsAbove_command trivial hst fun r _ st₁ hst₁ => ?_
  dsimp only
  split
  · have hemitted : (s.emitted r.now).Above c := ⟨hs.current, hs.cursor, hs.start⟩
    exact keepsAbove_command hemitted hst₁ fun _ _ st₂ hst₂ => ⟨hst₂, trivial⟩
  · exact ⟨hst₁, trivial⟩

theorem emitUpdate_above (hst : AtOrAbove c st) (ht : t.session.Above c) :
    KeepsAbove c (emitUpdate t) (fun _ => True) st := by
  refine keepsAbove_command trivial hst fun r _ st₁ hst₁ => ?_
  dsimp only
  split
  · have hemitted : (t.session.emitted r.now).Above c := ⟨ht.current, ht.cursor, ht.start⟩
    exact keepsAbove_command hemitted hst₁ fun _ _ st₂ hst₂ => ⟨hst₂, trivial⟩
  · exact keepalive_above hst₁ ht

theorem charge_above {deduct : ℤ} (ht : t.session.Above c) (hprice : 0 < t.session.billingPrice)
    (hpos : 0 < deduct) : (charge t deduct).session.Above c := by
  have hcovered : 0 ≤ timeCoveredMs t.session.billingPrice deduct :=
    Int.ediv_nonneg (by omega) hprice.le
  have hcursor := ht.cursor
  refine ⟨ht.current, ?_, ht.start⟩
  show c ≤ t.session.lastProcessedAt + timeCoveredMs t.session.billingPrice deduct
  omega

theorem checkpointCharge_above (hst : AtOrAbove c st) (ht : t.session.Above c) :
    KeepsAbove c (checkpointCharge cfg t) (fun t' => t'.session.Above c) st := by
  unfold checkpointCharge
  split
  · exact keepsAbove_command trivial hst fun _ _ st₁ hst₁ => ⟨hst₁, ht⟩
  · refine keepsAbove_command trivial hst fun r _ st₁ hst₁ => ?_
    dsimp only
    split
    · have hmarked : (t.session.checkpointed r.now).Above c := ⟨ht.current, ht.cursor, ht.start⟩
      exact keepsAbove_command trivial hst₁ fun _ _ st₂ hst₂ => ⟨hst₂, hmarked⟩
    · exact ⟨hst₁, ht⟩

theorem persistCharge_above (hst : AtOrAbove c st) (ht : t.session.Above c) :
    KeepsAbove c (persistCharge t) (fun _ => True) st := by
  refine keepsAbove_command ht hst fun _ _ st₁ hst₁ => ?_
  refine keepsAbove_bind (emitUpdate_above hst₁ ht) fun _ _ st₂ hst₂ => ?_
  split
  · exact ⟨hst₂, trivial⟩
  · exact ⟨hst₂, trivial⟩

theorem pricedTick_above (hst : AtOrAbove c st) (ht : t.session.Above c)
    (hprice : 0 < t.session.billingPrice) :
    KeepsAbove c (pricedTick cfg t now) (fun _ => True) st := by
  have hkeepalive : ∀ result : BillingTickResult, ∀ st', AtOrAbove c st' → KeepsAbove c (do
      maybeEmitBillingKeepaliveIfDue t.session
      return result) (fun _ => True) st' := by
    intro result st' hst'
    exact keepsAbove_bind (keepalive_above hst' ht) fun _ _ st₂ hst₂ => ⟨hst₂, trivial⟩
  unfold pricedTick
  dsimp only
  split
  · exact hkeepalive .tickOk st hst
  refine keepsAbove_command trivial hst fun r _ st₁ hst₁ => ?_
  split
  · exact ⟨hst₁, trivial⟩
  split
  · rename_i hpos
    have hcharged := charge_above ht hprice hpos
    unfold chargeTick
    split
    · exact ⟨hst₁, trivial⟩
    · refine keepsAbove_bind (checkpointCharge_above hst₁ hcharged) fun t' ht' st₂ hst₂ => ?_
      exact persistCharge_above hst₂ ht'
  · split
    · exact ⟨hst₁, trivial⟩
    · exact hkeepalive .tickOk st₁ hst₁

theorem ownedTick_above (hst : AtOrAbove c st) (ht : t.session.Above c) :
    KeepsAbove c (ownedTick cfg t now) (fun _ => True) st := by
  unfold ownedTick
  split
  · rename_i hprice
    exact pricedTick_above hst ht hprice
  · refine keepsAbove_bind (repair_above hst ht) fun s hs st₁ hst₁ => ?_
    split
    · rename_i hprice
      exact pricedTick_above (t := t.withSession s) hst₁ hs hprice
    · exact ⟨hst₁, trivial⟩

theorem loadedTick_above (hst : AtOrAbove c st) (ht : t.session.Above c) :
    KeepsAbove c (loadedTick cfg t false) (fun _ => True) st := by
  refine keepsAbove_command trivial hst fun _ _ st₁ hst₁ => ?_
  dsimp only
  split
  · exact ⟨hst₁, trivial⟩
  refine keepsAbove_command trivial hst₁ fun _ _ st₂ hst₂ => ?_
  refine keepsAbove_command trivial hst₂ fun _ _ st₃ hst₃ => ?_
  split
  · exact ⟨hst₃, trivial⟩
  · exact ownedTick_above hst₃ ht

/-- **One tick** under clocks from `c` keeps the stores at or above it. -/
theorem tick_atOrAbove (cfg : BillingConfig) (hst : AtOrAbove c st) :
    KeepsAbove c (processBillingCycleInternal cfg) (fun _ => True) st := by
  refine keepsAbove_command trivial hst fun _ _ st₁ hst₁ => ?_
  dsimp only
  split
  · refine keepsAbove_bind (loadTickState_atOrAbove cfg hst₁) fun loaded hloaded st₂ hst₂ => ?_
    split
    · exact ⟨hst₂, trivial⟩
    · obtain ⟨hl, rfl⟩ := hloaded _ _ rfl
      exact loadedTick_above hst₂ hl.normalizeV4
  · exact ⟨hst₁, trivial⟩

/-- **The run.** -/
theorem runTicks_atOrAbove (cfg : BillingConfig) (hst : AtOrAbove c st)
    (ticks : List (List BillingReply))
    (hclock : ∀ rs ∈ ticks, ∀ r ∈ rs, c ≤ r.now) : AtOrAbove c (runTicks cfg ticks st) := by
  induction ticks generalizing st with
  | nil => exact hst
  | cons rs ticks ih =>
    have htick := Prog.exec_of_holdsOn hst (tick_atOrAbove cfg hst)
      (hclock rs List.mem_cons_self)
    apply ih htick.1
    intro rs' hrs'
    exact hclock rs' (List.mem_cons_of_mem rs hrs')

end VibemeetBackend.Billing
