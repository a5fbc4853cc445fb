import VibemeetBackend.Async.Answers
import VibemeetBackend.Billing.Tick

/-!
# Invariants of billing ticks

A property of what a cycle holds, and what its parts must keep of it for a run of ticks to keep it.
-/

namespace VibemeetBackend.Billing

open Async

/-- The price and the rate of a rebuild, under answers that satisfy a condition. -/
def BackfilledFrom (Answer : BillingReply → Prop) (cp : Checkpoint) (pricing : ℤ × ℤ) : Prop :=
  ∃ p, (∀ q, p = some q → ∃ r, Answer r ∧ r.pricing = some q) ∧ pricing = backfilledPricing cp p

def RebuiltFrom (cfg : BillingConfig) (Answer : BillingReply → Prop) (cp : Checkpoint)
    (l : LoadedState) : Prop :=
  ∃ pricing r, BackfilledFrom Answer cp pricing ∧ Answer r ∧
    l = rebuiltState cfg cp pricing.1 pricing.2 r.now

/-- The funding source and the rate of a cycle are those of a state with the property: its own, or
one that had no price and was repaired. -/
def TickState.EnteredWith (Held : LoadedState → Prop) (t : TickState) : Prop :=
  ∃ l : LoadedState, Held l ∧ (l.session = t.session ∨ l.session.billingPrice ≤ 0) ∧
    t.introPromoBilling = (l.session.introPromoActive == some true) ∧
    t.creatorEarningsPerSecondMicros = l.session.creatorEarningsPerSecondMicros.getD 0

def LoadedState.withSession (l : LoadedState) (s : CallSession) : LoadedState :=
  { l with session := s }

/-- A property of a session and its balances that the parts of a cycle keep. -/
structure TickRule (cfg : BillingConfig) where
  /-- What is assumed of the answers. -/
  Answer : BillingReply → Prop
  Held : LoadedState → Prop
  Doc : Checkpoint → Prop
  live : Bool
  /-- So are the balance keys. -/
  keyed : Bool
  live_of_keyed : keyed = true → live = true
  current : ∀ {l}, Held l → billingSessionSchemaVersion ≤ l.session.schemaVersion
  unkeyed : keyed = false → ∀ {l l'}, Held l → l'.session = l.session → Held l'
  nonneg : keyed = true → ∀ {l}, Held l →
    0 ≤ l.introMicros ∧ 0 ≤ l.walletMicros ∧ 0 ≤ l.earningsMicros
  priced : keyed = true → ∀ {l}, Held l → 0 < l.session.billingPrice
  normalized : ∀ {l}, Held l → Held (l.withSession l.session.normalizeV4)
  emitted : ∀ {l}, Held l → ∀ now, Held (l.withSession (l.session.emitted now))
  checkpointed : ∀ {l}, Held l → ∀ now, Held (l.withSession (l.session.checkpointed now))
  charged : ∀ {t : TickState} {r}, Held t.toLoadedState → t.EnteredWith Held →
    0 < t.session.billingPrice → Answer r →
    0 < actualDeduct t (tickDeltaMs cfg t.session r.now) →
    durationLimitReached (charge t (actualDeduct t (tickDeltaMs cfg t.session r.now))).session =
      false →
    Held (charge t (actualDeduct t (tickDeltaMs cfg t.session r.now))).toLoadedState
  snapshot : ∀ {l}, Held l → ∀ {doc}, (∀ d, doc = some d → Doc d) → ∀ remaining cp,
    upsertBillingCheckpointSnapshot (l.session.snapshot remaining) doc = some cp → Doc cp
  periodic : ∀ {l}, Held l → ∀ {doc}, (∀ d, doc = some d → Doc d) → ∀ cp,
    upsertBillingCheckpoint l.session doc = some cp → Doc cp
  rebuilt : live = false → ∀ {cp l}, Doc cp → RebuiltFrom cfg Answer cp l → Held l
  merged : keyed = false → ∀ {cp l l'}, Held l → Doc cp → RebuiltFrom cfg Answer cp l' →
    Held (mergeRebuilt l l')
  patched : ∀ {l r p}, Held l → l.session.billingPrice ≤ 0 → Answer r → r.pricing = some p →
    Held (l.withSession (patchedPricing l.session p))
  assigned : ∀ {l l'}, Held l → l.session.billingPrice ≤ 0 → Held l' →
    Held (l.withSession (l.session.assign l'.session))
  promoted : ∀ {l r rc creator}, Held l → l.session.billingPrice ≤ 0 → Answer rc →
    rc.creator = some creator → Answer r →
    ∀ user b (preserveStartTime : Bool),
    Held (l.withSession (promotedSession cfg l.session user creator b
      (if preserveStartTime then numOr l.session.startTime r.now else r.now)))

def BillingStore.state (st : BillingStore) (s : CallSession) : LoadedState where
  session := s
  introMicros := st.introMicros.getD 0
  walletMicros := st.walletMicros.getD 0
  earningsMicros := st.earnings.getD 0

structure BillingStore.Has (st : BillingStore) (l : LoadedState) : Prop where
  session : st.session = some l.session
  intro : st.introMicros = some l.introMicros
  wallet : st.walletMicros = some l.walletMicros
  earnings : st.earnings = some l.earningsMicros

theorem BillingStore.Has.keys {st : BillingStore} {l : LoadedState} (h : st.Has l) :
    KeysPresent st := by
  simp [KeysPresent, h.intro, h.wallet, h.earnings]

theorem BillingStore.Has.state {st : BillingStore} {l : LoadedState} (h : st.Has l) :
    st.state l.session = l := by
  rw [BillingStore.state, h.intro, h.wallet, h.earnings]
  rfl

namespace TickRule

variable {cfg : BillingConfig} {I : TickRule cfg} {st : BillingStore} {l : LoadedState}
  {t : TickState}

structure Kept (I : TickRule cfg) (st : BillingStore) : Prop where
  session : ∀ s, st.session = some s → I.Held (st.state s)
  checkpoint : ∀ cp, st.checkpoint = some cp → I.Doc cp
  live : I.live = true → st.session.isSome
  keys : I.keyed = true → KeysPresent st

def Matches (I : TickRule cfg) (l : LoadedState) (st : BillingStore) : Prop :=
  I.keyed = true → st.introMicros = some l.introMicros ∧ st.walletMicros = some l.walletMicros ∧
    st.earnings = some l.earningsMicros

abbrev Keeps (I : TickRule cfg) {α : Type} (p : BillingProg α) (Q : α → BillingStore → Prop)
    (st : BillingStore) : Prop :=
  p.HoldsOn I.Answer execBilling I.Kept Q st

variable {s : CallSession}

theorem held_of_session (h : I.Held l) (hkeyed : I.keyed = false) (hs : l.session = s) (i w e : ℤ) :
    I.Held ⟨s, i, w, e⟩ :=
  I.unkeyed hkeyed h hs.symm

/-! ### Commands -/

theorem keeps_read {α : Type} {c : BillingCmd} {f : BillingReply × BillingStore → BillingProg α}
    {Q : α → BillingStore → Prop} (hc : c.reads = true) (hst : I.Kept st)
    (h : ∀ r, I.Answer r → I.Keeps (f (r, st)) Q st) : I.Keeps (issue c >>= f) Q st := by
  apply Prog.holdsOn_command_bind.2
  intro r hr
  rw [execBilling_reads hc]
  exact ⟨hst, h r hr⟩

theorem keeps_write {α : Type} {c : BillingCmd} {f : BillingReply × BillingStore → BillingProg α}
    {Q : α → BillingStore → Prop} (hc : ∀ r, I.Kept (execBilling c r st))
    (h : ∀ r st', I.Kept st' → st' = execBilling c r st → I.Keeps (f (r, st)) Q st') :
    I.Keeps (issue c >>= f) Q st := by
  apply Prog.holdsOn_command_bind.2
  intro r _
  exact ⟨hc r, h r _ (hc r) rfl⟩

theorem kept_persistSession (hst : I.Kept st) (hm : I.Matches l st) (h : I.Held (l.withSession s))
    (r : BillingReply) :
    I.Kept (execBilling (.persistSession s) r st) where
  session := by
    intro s' hs'
    cases hs'
    cases hkeyed : I.keyed with
    | false => exact held_of_session h hkeyed rfl _ _ _
    | true =>
      obtain ⟨hi, hw, he⟩ := hm hkeyed
      show I.Held ⟨s, st.introMicros.getD 0, st.walletMicros.getD 0, st.earnings.getD 0⟩
      rw [hi, hw, he]
      exact h
  checkpoint := hst.checkpoint
  live := fun _ => rfl
  keys := hst.keys

theorem kept_persistAll (hst : I.Kept st) {path : RedisPath} {i w e : ℤ} (h : I.Held ⟨s, i, w, e⟩)
    (r : BillingReply) :
    I.Kept (execBilling (.persistAll path s i w e) r st) where
  session := by
    intro s' hs'
    cases hs'
    exact h
  checkpoint := hst.checkpoint
  live := fun _ => rfl
  keys := fun _ => ⟨rfl, rfl, rfl⟩

theorem kept_upsertSnapshot (hst : I.Kept st) (h : I.Held l) (remaining : ℤ) (r : BillingReply) :
    I.Kept (execBilling (.upsertSnapshot (l.session.snapshot remaining)) r st) :=
  ⟨hst.session, I.snapshot h hst.checkpoint remaining, hst.live, hst.keys⟩

theorem kept_upsertCheckpoint (hst : I.Kept st) (h : I.Held l) (r : BillingReply) :
    I.Kept (execBilling (.upsertCheckpoint l.session) r st) :=
  ⟨hst.session, I.periodic h hst.checkpoint, hst.live, hst.keys⟩

theorem kept_advanceCursor (hst : I.Kept st) (data : CheckpointSnapshot) (v : ℤ)
    (r : BillingReply) : I.Kept (execBilling (.advanceCursor data v) r st) := by
  refine ⟨hst.session, ?_, hst.live, hst.keys⟩
  show ∀ cp, advanceBillingCheckpointCursor data v st.checkpoint = some cp → _
  exact hst.checkpoint

/-! ### What a cycle loads -/

theorem checkpointPricing_backfilled (hst : I.Kept st) (cp : Checkpoint) :
    I.Keeps (checkpointPricing cp)
      (fun pricing st' => st' = st ∧ BackfilledFrom I.Answer cp pricing) st := by
  unfold checkpointPricing
  split
  · apply keeps_read rfl hst
    intro r hr
    exact ⟨rfl, r.pricing, fun q hq => ⟨r, hr, hq⟩, rfl⟩
  · exact ⟨rfl, none, (fun q hq => nomatch hq), rfl⟩

theorem rebuildFromCheckpoint_rebuilt (hst : I.Kept st) :
    I.Keeps (rebuildFromCheckpoint cfg)
      (fun rebuilt st' => st' = st ∧ ∀ l, rebuilt = some l →
        ∃ cp, I.Doc cp ∧ RebuiltFrom cfg I.Answer cp l) st := by
  apply keeps_read rfl hst
  intro _ _
  dsimp only
  split
  · exact ⟨rfl, fun l hl => nomatch hl⟩
  rename_i cp hcp
  have hdoc := hst.checkpoint cp hcp
  unfold buildSessionFromCheckpoint
  split
  · apply keeps_read rfl hst
    intro r hr
    apply Prog.holdsOn_bind.2
    apply (checkpointPricing_backfilled hst cp).mono
    intro pricing st' h
    refine ⟨h.1, ?_⟩
    intro l hl
    cases hl
    exact ⟨cp, hdoc, pricing, r, h.2, hr, rfl⟩
  · exact ⟨rfl, fun l hl => nomatch hl⟩

theorem liveState_held (hst : I.Kept st) (hs : st.session = some s) (now : ℤ) :
    I.Held (liveState cfg s st.introMicros st.walletMicros st.legacyCoins st.earnings now) ∧
      I.Matches (liveState cfg s st.introMicros st.walletMicros st.legacyCoins st.earnings now)
        st := by
  have hheld := hst.session s hs
  have hcurrent : billingSessionSchemaVersion ≤ s.schemaVersion := I.current hheld
  have hsession : (liveState cfg s st.introMicros st.walletMicros st.legacyCoins st.earnings
      now).session = s.normalizeV4 := by
    show (migrateSession cfg s st.earnings now).1 = _
    rw [migrateSession_current _ _ hcurrent]
  cases hkeyed : I.keyed with
  | false =>
    refine ⟨I.unkeyed hkeyed (I.normalized hheld) hsession, ?_⟩
    intro h
    simp [hkeyed] at h
  | true =>
    obtain ⟨hi, hw, he⟩ := hst.keys hkeyed
    obtain ⟨i, hi⟩ := Option.isSome_iff_exists.1 hi
    obtain ⟨w, hw⟩ := Option.isSome_iff_exists.1 hw
    obtain ⟨e, he⟩ := Option.isSome_iff_exists.1 he
    have hstate : st.state s = ⟨s, i, w, e⟩ := by
      rw [BillingStore.state, hi, hw, he]
      rfl
    rw [hstate] at hheld
    obtain ⟨hi₀, hw₀, he₀⟩ := I.nonneg hkeyed hheld
    have hlive : liveState cfg s st.introMicros st.walletMicros st.legacyCoins st.earnings now =
        ⟨s.normalizeV4, i, w, e⟩ := by
      simp [hi, hw, he, liveState, liveBalances, migrateSession_current _ _ hcurrent,
        max_eq_right hi₀, max_eq_right hw₀, max_eq_right he₀]
    rw [hlive]
    exact ⟨I.normalized hheld, fun _ => ⟨hi, hw, he⟩⟩

/-- **The load** only reads; what it returns has the property and needs no migration. -/
theorem loadTickState_kept (hst : I.Kept st) :
    I.Keeps (loadTickState cfg)
      (fun loaded st' => st' = st ∧ ∀ l old, loaded = some (l, old) →
        I.Held l ∧ I.Matches l st ∧ old = false) st := by
  apply keeps_read rfl hst
  intro _ _
  dsimp only
  split
  · rename_i hnone
    have hlive : I.live = false := by
      apply Bool.eq_false_iff.2
      intro h
      have hsome := hst.live h
      simp [hnone] at hsome
    split
    · apply Prog.holdsOn_bind.2
      apply (rebuildFromCheckpoint_rebuilt hst).mono
      intro rebuilt st' h
      refine ⟨h.1, ?_⟩
      intro l old hl
      obtain ⟨l', hl', heq⟩ := Option.map_eq_some_iff.1 hl
      obtain ⟨rfl, rfl⟩ := Prod.mk.inj heq
      obtain ⟨cp, hdoc, hrebuilt⟩ := h.2 l' hl'
      refine ⟨I.rebuilt hlive hdoc hrebuilt, ?_, rfl⟩
      intro hkeyed
      simp [I.live_of_keyed hkeyed] at hlive
    · exact ⟨rfl, fun l old hl => nomatch hl⟩
  rename_i raw hraw
  have hold : decide (raw.schemaVersion < billingSessionSchemaVersion) = false :=
    decide_eq_false (not_lt.2 (I.current (hst.session raw hraw)))
  apply keeps_read rfl hst
  intro _ _
  apply keeps_read rfl hst
  intro _ _
  apply keeps_read rfl hst
  intro _ _
  apply keeps_read rfl hst
  intro _ _
  apply keeps_read rfl hst
  intro r _
  obtain ⟨hheld, hmatches⟩ := liveState_held hst hraw r.now
  split
  · rename_i hmissing
    have hkeyed : I.keyed = false := by
      apply Bool.eq_false_iff.2
      intro hkeyed
      obtain ⟨hi, hw, he⟩ := hst.keys hkeyed
      simp [← Option.not_isSome, hi, hw, he] at hmissing
    apply Prog.holdsOn_bind.2
    apply (rebuildFromCheckpoint_rebuilt hst).mono
    intro rebuilt st' h
    refine ⟨h.1, ?_⟩
    intro l old hl
    cases hl
    refine ⟨?_, fun hkeyed' => ?_, hold⟩
    · cases rebuilt with
      | none => exact hheld
      | some l' =>
        obtain ⟨cp, hdoc, hrebuilt⟩ := h.2 l' rfl
        exact I.merged hkeyed hheld hdoc hrebuilt
    · simp [hkeyed] at hkeyed'
  · refine ⟨rfl, ?_⟩
    intro l old hl
    cases hl
    exact ⟨hheld, hmatches, hold⟩

/-! ### The pricing repair -/

theorem readBalances_kept (hst : I.Kept st) (existing : CallSession) (opts : PromoteOpts)
    (b : PromotedBalances) : I.Keeps (readBalances existing opts b) (fun _ st' => st' = st) st := by
  unfold readBalances
  split
  · apply keeps_read rfl hst
    intro _ _
    apply keeps_read rfl hst
    intro _ _
    exact rfl
  · exact rfl

theorem adoptPromoted_kept (hst : I.Kept st) (hl : I.Held l) (hprice : l.session.billingPrice ≤ 0) :
    I.Keeps (adoptPromoted l.session)
      (fun s st' => I.Kept st' ∧ I.Held (l.withSession s)) st := by
  apply keeps_read rfl hst
  intro _ _
  dsimp only
  split
  · exact ⟨hst, hl⟩
  rename_i live hlive
  refine ⟨hst, ?_⟩
  show I.Held (l.withSession (if 0 < live.billingPrice then l.session.assign live else l.session))
  split
  · exact I.assigned hl hprice (hst.session live hlive)
  · exact hl

section repair

variable {s : CallSession} (hkeyed : I.keyed = false)

include hkeyed

theorem not_matches (l : LoadedState) (st : BillingStore) : I.Matches l st := by
  intro h
  simp [hkeyed] at h

theorem seedPromotion_kept (hst : I.Kept st) {p : Promotion}
    (hp : I.Held (l.withSession p.session)) (fromRuntime : Bool) :
    I.Keeps (seedPromotion p fromRuntime) (fun _ st' => I.Kept st') st := by
  have hcheckpoint : ∀ st', I.Kept st' → I.Keeps (do
      let _ ← issue (.upsertSnapshot (p.session.snapshot p.spendableMicros))
      pure ()) (fun _ st'' => I.Kept st'') st' := by
    intro st' hst'
    apply keeps_write (kept_upsertSnapshot hst' hp _)
    intro _ st'' hst'' _
    exact hst''
  unfold seedPromotion
  split
  · apply keeps_write (kept_persistSession hst (not_matches hkeyed l st) hp)
    intro _ st' hst' _
    exact hcheckpoint st' hst'
  · apply keeps_write (kept_persistAll hst (held_of_session hp hkeyed rfl _ _ _))
    intro _ st' hst' _
    exact hcheckpoint st' hst'

theorem promotion_kept {opts : PromoteOpts} (hst : I.Kept st) (hl : I.Held l)
    (hprice : l.session.billingPrice ≤ 0) :
    I.Keeps (promoteBootstrappingSession cfg l.session opts)
      (fun result st' => I.Kept st' ∧
        ∀ p, result = .ok p → I.Held (l.withSession p.session)) st := by
  apply keeps_read rfl hst
  intro _ _
  dsimp only
  split
  · exact ⟨hst, fun p hp => nomatch hp⟩
  apply keeps_read rfl hst
  intro ru _
  split
  · exact ⟨hst, fun p hp => nomatch hp⟩
  rename_i user _
  apply keeps_read rfl hst
  intro rc hrc
  split
  · exact ⟨hst, fun p hp => nomatch hp⟩
  rename_i creator hcreator
  have hfound : rc.creator = some creator := by
    unfold promotionCreator at hcreator
    split at hcreator
    · cases hcreator
    · rename_i found hrc'
      split at hcreator
      · cases hcreator
      split at hcreator
      · cases hcreator
      split at hcreator
      · cases hcreator
      · cases hcreator
        exact hrc'
  apply Prog.holdsOn_bind.2
  apply (readBalances_kept hst _ _ _).mono
  intro b st' hst'
  subst hst'
  unfold promoteWith
  split
  · exact ⟨hst, fun p hp => nomatch hp⟩
  apply keeps_read rfl hst
  intro r hr
  have hp := I.promoted hl hprice hrc hfound hr user b opts.preserveStartTime
  apply Prog.holdsOn_bind.2
  apply (seedPromotion_kept hkeyed hst hp _).mono
  intro _ st' hst'
  refine ⟨hst', ?_⟩
  intro p h
  cases h
  exact hp

theorem patchSessionPricingOnly_kept (hst : I.Kept st) (hl : I.Held l)
    (hprice : l.session.billingPrice ≤ 0) :
    I.Keeps (patchSessionPricingOnly l.session)
      (fun s st' => I.Kept st' ∧ I.Held (l.withSession s)) st := by
  unfold patchSessionPricingOnly
  split
  · exact ⟨hst, hl⟩
  apply keeps_read rfl hst
  intro r hr
  dsimp only
  split
  · exact ⟨hst, hl⟩
  rename_i p hp
  split
  · exact ⟨hst, hl⟩
  have hpatched := I.patched hl hprice hr hp
  apply keeps_write (kept_persistSession hst (not_matches hkeyed l st) hpatched)
  intro _ st₁ hst₁ _
  apply keeps_read rfl hst₁
  intro _ _
  apply keeps_read rfl hst₁
  intro _ _
  apply keeps_write (kept_upsertSnapshot hst₁ hpatched _)
  intro _ st₂ hst₂ _
  exact ⟨hst₂, hpatched⟩

/-- **The repair** of a session without a price. -/
theorem repair_kept (hst : I.Kept st) (hl : I.Held l) (hprice : l.session.billingPrice ≤ 0) :
    I.Keeps (repairSessionPricingIfNeeded cfg l.session)
      (fun s st' => I.Kept st' ∧ I.Held (l.withSession s)) st := by
  unfold repairSessionPricingIfNeeded
  split
  · apply Prog.holdsOn_bind.2
    apply (promotion_kept hkeyed hst hl hprice).mono
    intro result st' h
    split
    · exact ⟨h.1, h.2 _ rfl⟩
    · exact adoptPromoted_kept h.1 hl hprice
    · exact ⟨h.1, hl⟩
  · split
    · exact ⟨hst, hl⟩
    · exact patchSessionPricingOnly_kept hkeyed hst hl hprice

end repair

/-! ### One tick -/

theorem emitted_kept (hst : I.Kept st) (hl : I.Held l) (hm : I.Matches l st) (now : ℤ)
    (r : BillingReply) : I.Kept (execBilling (.persistSession (l.session.emitted now)) r st) :=
  kept_persistSession hst hm (I.emitted hl now) r

theorem keepalive_kept (hst : I.Kept st) (hl : I.Held l) (hm : I.Matches l st) :
    I.Keeps (maybeEmitBillingKeepaliveIfDue l.session) (fun _ st' => I.Kept st') st :=
  (keepalive_holds hst (emitted_kept hst hl hm)).on

theorem checkpointCharge_kept (hst : I.Kept st) (ht : I.Held t.toLoadedState) :
    I.Keeps (checkpointCharge cfg t)
      (fun t' st' => I.Kept st' ∧ I.Held t'.toLoadedState) st := by
  unfold checkpointCharge
  split
  · apply keeps_write (kept_advanceCursor hst _ _)
    intro _ st' hst' _
    exact ⟨hst', ht⟩
  · apply keeps_read rfl hst
    intro r _
    dsimp only
    split
    · apply keeps_write (kept_upsertCheckpoint hst ht)
      intro _ st' hst' _
      exact ⟨hst', I.checkpointed ht r.now⟩
    · exact ⟨hst, ht⟩

theorem persistCharge_kept (hst : I.Kept st) (ht : I.Held t.toLoadedState) :
    I.Keeps (persistCharge t) (fun _ st' => I.Kept st') st := by
  apply keeps_write (kept_persistAll hst ht)
  intro r st' hst' heq
  have hm : I.Matches t.toLoadedState st' := by
    intro _
    rw [heq]
    exact ⟨rfl, rfl, rfl⟩
  apply Prog.holdsOn_bind.2
  apply ((emitUpdate_holds hst' (emitted_kept hst' ht hm)).on).mono
  intro _ st'' hst''
  split
  · exact hst''
  · exact hst''

theorem pricedTick_kept (hst : I.Kept st) (ht : I.Held t.toLoadedState)
    (hentered : t.EnteredWith I.Held) (hm : I.Matches t.toLoadedState st)
    (hprice : 0 < t.session.billingPrice) {r : BillingReply} (hr : I.Answer r) :
    I.Keeps (pricedTick cfg t r.now) (fun _ st' => I.Kept st') st := by
  have hkeepalive : I.Keeps (do
      maybeEmitBillingKeepaliveIfDue t.session
      return BillingTickResult.tickOk) (fun _ st' => I.Kept st') st := by
    apply Prog.holdsOn_bind.2
    exact keepalive_kept hst ht hm
  unfold pricedTick
  dsimp only
  split
  · exact hkeepalive
  apply keeps_read rfl hst
  intro _ _
  split
  · exact hst
  split
  · rename_i hpos
    unfold chargeTick
    split
    · exact hst
    · rename_i hlimit
      have hcharged := I.charged ht hentered hprice hr hpos (Bool.eq_false_iff.2 hlimit)
      apply Prog.holdsOn_bind.2
      apply (checkpointCharge_kept hst hcharged).mono
      intro t' st' h
      exact persistCharge_kept h.1 h.2
  split
  · exact hst
  · exact hkeepalive

theorem ownedTick_kept (hst : I.Kept st) (ht : I.Held t.toLoadedState)
    (hentered : t.EnteredWith I.Held) (hm : I.Matches t.toLoadedState st) {r : BillingReply}
    (hr : I.Answer r) : I.Keeps (ownedTick cfg t r.now) (fun _ st' => I.Kept st') st := by
  unfold ownedTick
  split
  · rename_i hprice
    exact pricedTick_kept hst ht hentered hm hprice hr
  rename_i hprice
  have hkeyed : I.keyed = false := by
    apply Bool.eq_false_iff.2
    intro h
    exact hprice (I.priced h ht)
  apply Prog.holdsOn_bind.2
  apply (repair_kept hkeyed hst ht (not_lt.1 hprice)).mono
  intro s st' h
  split
  · rename_i hpriced
    obtain ⟨l, hl, hl', hintro, hrate⟩ := hentered
    -- the funding source and the rate are still those of the session without a price
    have hentered' : (t.withSession s).EnteredWith I.Held := by
      refine ⟨l, hl, .inr ?_, hintro, hrate⟩
      obtain hl' | hl' := hl'
      · rw [hl']
        exact not_lt.1 hprice
      · exact hl'
    exact pricedTick_kept h.1 h.2 hentered' (not_matches hkeyed _ _) hpriced hr
  · exact h.1

theorem loadedTick_kept (hst : I.Kept st) (ht : I.Held t.toLoadedState)
    (hentered : t.EnteredWith I.Held) (hm : I.Matches t.toLoadedState st) :
    I.Keeps (loadedTick cfg t false) (fun _ st' => I.Kept st') st := by
  apply keeps_read rfl hst
  intro _ _
  dsimp only
  split
  · exact hst
  apply keeps_read rfl hst
  intro rc hrc
  apply keeps_read rfl hst
  intro ro _
  split
  · exact hst
  · exact ownedTick_kept hst ht hentered hm hrc

/-- **One tick.** -/
theorem tick_kept (I : TickRule cfg) (hst : I.Kept st) :
    I.Keeps (processBillingCycleInternal cfg) (fun _ st' => I.Kept st') st := by
  apply keeps_read rfl hst
  intro r _
  dsimp only
  split
  · apply Prog.holdsOn_bind.2
    apply (loadTickState_kept hst).mono
    intro loaded st' h
    obtain ⟨rfl, hloaded⟩ := h
    split
    · exact hst
    · rename_i l old
      obtain ⟨hl, hm, rfl⟩ := hloaded l old rfl
      have henter : I.Held l.enter.toLoadedState := I.normalized hl
      have hentered : l.enter.EnteredWith I.Held := ⟨_, henter, .inl rfl, by
        show _ = (some (l.session.introPromoActive.getD false) == some true)
        unfold LoadedState.enter
        cases l.session.introPromoActive <;> rfl, rfl⟩
      exact loadedTick_kept hst henter hentered hm
  · exact hst

/-- **A run of ticks.** -/
theorem runTicks_kept (I : TickRule cfg) (hst : I.Kept st) (ticks : List (List BillingReply))
    (hticks : ∀ rs ∈ ticks, ∀ r ∈ rs, I.Answer r) : I.Kept (runTicks cfg ticks st) := by
  induction ticks generalizing st with
  | nil => exact hst
  | cons rs ticks ih =>
    have htick := Prog.exec_of_holdsOn hst (I.tick_kept hst) (hticks rs List.mem_cons_self)
    apply ih htick.1
    intro rs' hrs'
    exact hticks rs' (List.mem_cons_of_mem rs hrs')

end TickRule

/-! ### Sessions with a price and all keys -/

/-- A rule for sessions that no tick migrates, repairs or rebuilds. -/
structure KeyedRule (cfg : BillingConfig) where
  Answer : BillingReply → Prop
  Held : LoadedState → Prop
  current : ∀ {l}, Held l → billingSessionSchemaVersion ≤ l.session.schemaVersion
  priced : ∀ {l}, Held l → 0 < l.session.billingPrice
  nonneg : ∀ {l}, Held l → 0 ≤ l.introMicros ∧ 0 ≤ l.walletMicros ∧ 0 ≤ l.earningsMicros
  normalized : ∀ {l}, Held l → Held (l.withSession l.session.normalizeV4)
  emitted : ∀ {l}, Held l → ∀ now, Held (l.withSession (l.session.emitted now))
  checkpointed : ∀ {l}, Held l → ∀ now, Held (l.withSession (l.session.checkpointed now))
  charged : ∀ {t : TickState} {r}, Held t.toLoadedState →
    t.introPromoBilling = (t.session.introPromoActive == some true) →
    t.creatorEarningsPerSecondMicros = t.session.creatorEarningsPerSecondMicros.getD 0 →
    Answer r → 0 < actualDeduct t (tickDeltaMs cfg t.session r.now) →
    Held (charge t (actualDeduct t (tickDeltaMs cfg t.session r.now))).toLoadedState

namespace KeyedRule

variable {cfg : BillingConfig} {st : BillingStore}

def Stored (K : KeyedRule cfg) (st : BillingStore) : Prop := ∃ l, st.Has l ∧ K.Held l

def toTickRule (K : KeyedRule cfg) : TickRule cfg where
  Answer := K.Answer
  Held := K.Held
  Doc := fun _ => True
  live := true
  keyed := true
  live_of_keyed := id
  current := K.current
  unkeyed := by
    intro h
    cases h
  nonneg := fun _ => K.nonneg
  priced := fun _ => K.priced
  normalized := K.normalized
  emitted := K.emitted
  checkpointed := K.checkpointed
  charged := by
    intro t r ht hentered _ hr hpos _
    obtain ⟨l, hl, hsession, hintro, hrate⟩ := hentered
    have hown : l.session = t.session := by
      obtain h | h := hsession
      · exact h
      · exact absurd h (not_le.2 (K.priced hl))
    rw [hown] at hintro hrate
    exact K.charged ht hintro hrate hr hpos
  snapshot := fun _ _ _ _ _ _ => trivial
  periodic := fun _ _ _ _ _ => trivial
  rebuilt := by
    intro h
    cases h
  merged := by
    intro h
    cases h
  patched := fun hl hprice => absurd hprice (not_le.2 (K.priced hl))
  assigned := fun hl hprice => absurd hprice (not_le.2 (K.priced hl))
  promoted := fun hl hprice => absurd hprice (not_le.2 (K.priced hl))

theorem stored_kept (K : KeyedRule cfg) : K.Stored st ↔ K.toTickRule.Kept st := by
  constructor
  · intro ⟨l, hl, hheld⟩
    refine ⟨?_, fun _ _ => trivial, fun _ => by rw [hl.session]; rfl, fun _ => hl.keys⟩
    intro s hs
    obtain rfl := Option.some.inj (hl.session.symm.trans hs)
    rw [hl.state]
    exact hheld
  · intro h
    obtain ⟨s, hs⟩ := Option.isSome_iff_exists.1 (h.live rfl)
    obtain ⟨hi, hw, he⟩ := h.keys rfl
    obtain ⟨i, hi⟩ := Option.isSome_iff_exists.1 hi
    obtain ⟨w, hw⟩ := Option.isSome_iff_exists.1 hw
    obtain ⟨e, he⟩ := Option.isSome_iff_exists.1 he
    have hhas : st.Has ⟨s, i, w, e⟩ := ⟨hs, hi, hw, he⟩
    have hheld := h.session s hs
    rw [hhas.state] at hheld
    exact ⟨_, hhas, hheld⟩

/-- **A run of ticks.** -/
theorem runTicks_stored (K : KeyedRule cfg) (hst : K.Stored st) (ticks : List (List BillingReply))
    (hticks : ∀ rs ∈ ticks, ∀ r ∈ rs, K.Answer r) : K.Stored (runTicks cfg ticks st) :=
  K.stored_kept.2 (K.toTickRule.runTicks_kept (K.stored_kept.1 hst) ticks hticks)

end KeyedRule

end VibemeetBackend.Billing
