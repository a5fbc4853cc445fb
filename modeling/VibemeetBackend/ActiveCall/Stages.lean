import VibemeetBackend.ActiveCall.Start

/-!
# The stages of a start

A start deletes its orchestrator claim only after it found no session of the call or once it holds
the call-pair lock, and it reserves, seeds and promotes only once it holds that lock, which it never
deletes.
-/

namespace VibemeetBackend.ActiveCall

open Async Flow Billing EndedCall

/-- `callpairKey` of the participants. -/
abbrev pairKeyOf (q : StartRequest) : String × String :=
  callpairKey q.userFirebaseUid q.creatorFirebaseUid

inductive StartStage where
  | fresh
  | missed
  /-- It took the call-pair lock. -/
  | locked
  deriving DecidableEq

def StageAllows (callId : String) (q : StartRequest) (φ : StartStage) : ActiveCallCmd → Prop
  | .query | .lockStart _ _ | .unlockStart _ _ => True
  | .clearSeed id => id = callId
  | .claimOrchestrator id => φ ≠ .locked ∧ id = callId
  | .delOrchestrator id => φ ≠ .fresh ∧ id = callId
  | .lockPair key id => φ ≠ .locked ∧ key = pairKeyOf q ∧ id = callId
  | .recoverPair _ _ | .recoverPairDel _ => φ ≠ .locked
  | .reserve _ _ | .recoverSlot _ | .delSlot _ | .billing _ _ | .finish _ _ => φ = .locked
  | _ => False

def nextStage (callId : String) (φ : StartStage) (c : ActiveCallCmd) (r : ActiveCallReply)
    (s : ActiveCallStore) : StartStage :=
  match c with
  | .query => if φ = .fresh ∧ (s.session callId).isNone = true then .missed else φ
  | .lockPair key _ => if r.delivered = true ∧ s.callpair key = none then .locked else φ
  | _ => φ

noncomputable abbrev startStage (callId : String) (q : StartRequest) :
    StartStage → ActiveCallCmd → ActiveCallReply → ActiveCallStore → Option StartStage :=
  guarded (StageAllows callId q) (nextStage callId)

variable {f : ActiveCallReply × ActiveCallStore → ActiveCallFlow α} {ok : ActiveCallReply → Bool}
  {c : ActiveCallCmd}

/-! ### Once the lock is held -/

section locked

variable {callId token : String} {q : StartRequest} {α : Type}

attribute [local simp] StageAllows

abbrev KeepsLock (callId : String) (q : StartRequest) (p : ActiveCallFlow α) : Prop :=
  Issues (fun _ => True) (StageAllows callId q .locked) p

theorem keepsLock_call {err : String} (hc : StageAllows callId q .locked c)
    (hf : ∀ r s, KeepsLock callId q (f (r, s))) : KeepsLock callId q (call ok err c >>= f) :=
  issues_call_bind hc fun r s _ => hf r s

theorem tryClearOrphanSlot_keepsLock (uid : String) :
    KeepsLock callId q (tryClearOrphanSlot uid) := by
  refine keepsLock_call trivial fun r s => ?_
  dsimp only
  split
  · exact issues_pure ()
  refine keepsLock_call trivial fun r s => ?_
  split <;> simp [quiet, run]

variable (p : Parties)

theorem tryReserveActiveCallSlots_keepsLock :
    KeepsLock callId q (tryReserveActiveCallSlots callId p) := by
  simp [run, tryReserveActiveCallSlots]

theorem tryReserveActiveCallSlotsWithOrphanRetry_keepsLock :
    KeepsLock callId q (tryReserveActiveCallSlotsWithOrphanRetry callId p) := by
  apply issues_bind (tryReserveActiveCallSlots_keepsLock p)
  simp [tryClearOrphanSlot_keepsLock, run, tryClearOrphanActiveCallSlots,
    tryReserveActiveCallSlots]

theorem releaseSlotIfOurs_keepsLock (uid : String) (read : Option String) :
    KeepsLock callId q (releaseSlotIfOurs callId uid read) := by
  simp [releaseSlotIfOurs, quiet, run]

theorem releaseActiveCallSlotsIfOurs_keepsLock :
    KeepsLock callId q (releaseActiveCallSlotsIfOurs callId p) := by
  simp [releaseSlotIfOurs_keepsLock, run, releaseActiveCallSlotsIfOurs]

theorem finish_keepsLock : KeepsLock callId q (finish callId p) := by
  simp [quiet, finish]

theorem undo_keepsLock (seeded releaseSlots : Bool) (e : String) :
    KeepsLock callId q (undo callId q seeded releaseSlots e) := by
  simp [undo, releaseActiveCallSlotsIfOurs_keepsLock, quiet]

theorem cleanUp_keepsLock (seeded releaseSlots : Bool) (e : String) :
    KeepsLock callId q (cleanUp callId q seeded releaseSlots e) :=
  issues_bind (finish_keepsLock _) fun _ => undo_keepsLock seeded releaseSlots e

theorem promoteFailed_keepsLock (reason : Option PromoteFailure) :
    KeepsLock callId q (promoteFailed callId q reason) := by
  have hrelease : KeepsLock callId q (do
      finish callId (partiesOf q)
      releaseActiveCallSlotsIfOurs callId (partiesOf q) : ActiveCallFlow Unit) :=
    issues_bind (finish_keepsLock _) fun _ => releaseActiveCallSlotsIfOurs_keepsLock _
  cases reason with
  | none => exact finish_keepsLock _
  | some reason =>
    cases reason with
    | userNotFound | creatorNotFound => exact cleanUp_keepsLock _ _ _
    | invalidParticipants | creatorDisabled | insufficientCoins => exact hrelease
    | concurrentPromote => exact finish_keepsLock _

theorem runBilling_keepsLock (c : BillingCmd) : KeepsLock callId q (runBilling callId c) := by
  simp [run, runBilling]

theorem promote_keepsLock (cfg : BillingConfig) (early : CallSession) :
    KeepsLock callId q (promote cfg callId early) := by
  apply issues_tryCatch
  · have hwrap : ∀ c, StageAllows callId q .locked (.billing callId c) := fun _ => rfl
    exact issues_bind (issues_focusFlow hwrap _) fun _ => issues_pure _
  simp

theorem promoted_keepsLock (p : Promotion) : KeepsLock callId q (promoted callId q p) := by
  have hactivate : KeepsLock callId q (activate callId p) := by
    simp [runBilling_keepsLock, quiet, activate]
  apply issues_bind (issues_attempt hactivate)
  intro result
  split
  · exact cleanUp_keepsLock _ _ _
  apply issues_bind (finish_keepsLock _)
  intro _
  split
  · exact issues_tryCatch (releaseActiveCallSlotsIfOurs_keepsLock _) (undo_keepsLock _ _)
  simp [quiet]

theorem seedAndPromote_keepsLock (cfg : BillingConfig) :
    KeepsLock callId q (seedAndPromote cfg callId q) := by
  have hseed : KeepsLock callId q (do
      let read ← quiet .query
      let early := earlySession cfg q read.1.now
      let _ ← runBilling callId (.persistAll .earlySeed early 0 0 0)
      pure early) := by
    simp [quiet, run, runBilling]
  apply issues_bind (issues_attempt hseed)
  intro seed
  split
  · exact cleanUp_keepsLock _ _ _
  apply issues_bind (issues_attempt (promote_keepsLock cfg _))
  intro result
  split
  · exact cleanUp_keepsLock _ _ _
  · exact promoteFailed_keepsLock none
  · exact promoteFailed_keepsLock _
  · exact promoted_keepsLock _

theorem nextStage_locked (c : ActiveCallCmd) (r : ActiveCallReply) (s : ActiveCallStore) :
    nextStage callId .locked c r s = .locked := by
  cases c with
  | query =>
    have hne : ¬ (StartStage.locked = .fresh ∧ (s.session callId).isNone = true) :=
      fun h => nomatch h.1
    rw [nextStage, if_neg hne]
  | lockPair key id =>
    show (if _ then StartStage.locked else StartStage.locked) = .locked
    split
    · rfl
    · rfl
  | _ => rfl

end locked

/-! ### Before the lock is held -/

section stages

variable {cfg : BillingConfig} {callId token : String} {q : StartRequest} {φ : StartStage}
  {α : Type}

abbrev KeepsStages (callId : String) (q : StartRequest) (φ : StartStage) (f : ActiveCallFlow α) :
    Prop :=
  Follows (startStage callId q) φ f (fun _ _ => True) fun _ _ => True

theorem keepsStages_call {err : String} (hc : StageAllows callId q φ c)
    (hf : ∀ r s, ok r = true → KeepsStages callId q (nextStage callId φ c r s) (f (r, s))) :
    KeepsStages callId q φ (call ok err c >>= f) :=
  follows_guarded_bind hc (fun _ _ => trivial) hf

theorem keepsStages_of_locked {p : ActiveCallFlow α} (hp : KeepsLock callId q p) :
    KeepsStages callId q .locked p := by
  have hkeep := follows_of_issues (δ := startStage callId q) (φ := .locked) hp
    fun c hc r s => (guarded_of hc).trans (congrArg some (nextStage_locked c r s))
  exact hkeep.mono (fun _ _ _ => trivial) fun _ _ _ => trivial

def RecoversPair : ActiveCallCmd → Prop
  | .query | .recoverPair _ _ | .recoverPairDel _ => True
  | _ => False

theorem recoversPair_call {err : String} (hc : RecoversPair c)
    (hf : ∀ r s, Issues (fun _ => True) RecoversPair (f (r, s))) :
    Issues (fun _ => True) RecoversPair (call ok err c >>= f) :=
  issues_call_bind hc fun r s _ => hf r s

theorem tryClearStaleCallpairLock_recovers (key : String × String) :
    Issues (fun _ => True) RecoversPair (tryClearStaleCallpairLock key) := by
  refine recoversPair_call trivial fun r s => ?_
  dsimp only
  split
  · exact issues_pure false
  refine recoversPair_call trivial fun r s => ?_
  split <;> simp [RecoversPair, quiet, run, releasePair]

theorem nextStage_query_ne (callId : String) (hφ : φ ≠ .locked) (r : ActiveCallReply)
    (s : ActiveCallStore) :
    nextStage callId φ .query r s ≠ .locked := by
  show (if _ then StartStage.missed else φ) ≠ .locked
  split
  · exact nofun
  · exact hφ

theorem recover_follows {p : ActiveCallFlow α} (hp : Issues (fun _ => True) RecoversPair p)
    (hφ : φ ≠ .locked) :
    Follows (startStage callId q) φ p (fun _ φ' => φ' ≠ .locked) fun _ φ' => φ' ≠ .locked := by
  apply follows_within (R := fun ψ : StartStage => ψ ≠ .locked) hp hφ
  intro c hc ψ r s hψ
  cases c with
  | query => exact ⟨_, guarded_of trivial, nextStage_query_ne callId hψ r s⟩
  | recoverPair | recoverPairDel => exact ⟨ψ, guarded_of hψ, hψ⟩
  | _ => exact hc.elim

theorem startAlone_stages (hφ : φ ≠ .locked) :
    KeepsStages callId q φ (startAlone cfg callId q) := by
  have hrest : KeepsLock callId q (do
      if (← tryReserveActiveCallSlotsWithOrphanRetry callId (partiesOf q)) = true then
        seedAndPromote cfg callId q
      else pure () : ActiveCallFlow Unit) := by
    apply issues_bind (tryReserveActiveCallSlotsWithOrphanRetry_keepsLock _)
    intro reserved
    split
    · exact seedAndPromote_keepsLock cfg
    · exact issues_pure ()
  have htaken : ∀ (ψ : StartStage) (r : ActiveCallReply) (s : ActiveCallStore), r.ok = true →
      s.callpair (pairKeyOf q) = none →
      nextStage callId ψ (.lockPair (pairKeyOf q) callId) r s = .locked := by
    intro ψ r s hr hs
    have hdelivered : r.delivered = true := (Bool.and_eq_true_iff.1 hr).1
    exact if_pos ⟨hdelivered, hs⟩
  refine keepsStages_call ⟨hφ, rfl, rfl⟩ fun r s hr => ?_
  dsimp only
  split
  · rename_i hfree
    rw [htaken φ r s hr hfree]
    exact keepsStages_of_locked hrest
  rename_i hheld
  have hstay : nextStage callId φ (.lockPair (pairKeyOf q) callId) r s = φ :=
    if_neg fun h => hheld h.2
  rw [hstay]
  apply follows_bind
  apply (recover_follows (tryClearStaleCallpairLock_recovers _) hφ).mono
  · intro cleared ψ hψ
    split
    · refine keepsStages_call ⟨hψ, rfl, rfl⟩ fun r s hr => ?_
      cases hs : s.callpair (callpairKey q.userFirebaseUid q.creatorFirebaseUid) with
      | none =>
        rw [htaken ψ r s hr hs]
        exact keepsStages_of_locked hrest
      | some holder => exact trivial
    · exact trivial
  · intro e ψ hψ
    trivial

theorem startLocked_stages (hφ : φ ≠ .locked) :
    KeepsStages callId q φ (startLocked cfg callId q) := by
  refine keepsStages_call trivial fun r s _ => ?_
  dsimp only
  split
  · exact trivial
  refine keepsStages_call trivial fun r' s' _ => ?_
  have hne := nextStage_query_ne callId (nextStage_query_ne callId hφ r s) r' s'
  split
  · exact startAlone_stages hne
  split
  · refine keepsStages_call rfl fun r s _ => ?_
    split
    · exact startAlone_stages hne
    · exact trivial
  · exact trivial

/-- **The stages of a start.** -/
theorem startBillingSession_stages :
    KeepsStages callId q .fresh (startBillingSession cfg callId token q) := by
  have hclaimed : ∀ (claimed : Bool) (ψ : StartStage), ψ ≠ .locked →
      KeepsStages callId q ψ (if claimed = true then do
        let locked ← run (.lockStart callId token)
        if (locked.2.startLock callId).isSome = true then pure ()
        else do
          let result ← attempt (startLocked cfg callId q)
          let _ ← quiet (.unlockStart callId token)
          ExceptT.mk (pure result)
        else pure ()) := by
    intro claimed ψ hψ
    split
    · refine keepsStages_call trivial fun r s _ => ?_
      split
      · exact trivial
      · apply follows_bind
        apply follows_attempt
        apply (startLocked_stages hψ).mono
        · intro _ ψ' _
          exact keepsStages_call trivial fun r s _ => trivial
        · intro _ ψ' _
          exact keepsStages_call trivial fun r s _ => trivial
    · exact trivial
  have hfresh : StartStage.fresh ≠ .locked := by decide
  have hmissed_ne : StartStage.missed ≠ .locked := by decide
  have hmissed_fresh : StartStage.missed ≠ .fresh := by decide
  refine keepsStages_call ⟨hfresh, rfl⟩ fun r s _ => ?_
  dsimp only
  split
  · exact hclaimed true .fresh hfresh
  refine keepsStages_call trivial fun r' s' _ => ?_
  split
  · exact hclaimed false _ (nextStage_query_ne callId hfresh r' s')
  rename_i hnone
  have hmissed : nextStage callId .fresh .query r' s' = .missed := by
    apply if_pos
    exact ⟨rfl, by simpa using hnone⟩
  show KeepsStages callId q (nextStage callId .fresh .query r' s') _
  rw [hmissed]
  refine keepsStages_call ⟨hmissed_fresh, rfl⟩ fun _ _ _ => ?_
  exact keepsStages_call ⟨hmissed_ne, rfl⟩ fun _ _ _ => hclaimed _ .missed hmissed_ne

end stages

end VibemeetBackend.ActiveCall
