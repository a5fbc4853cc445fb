import VibemeetBackend.Async.Watch
import VibemeetBackend.ActiveCall.Start

/-!
# Why a start deletes a slot

The slots that a start deletes are its own, or the orphans that `tryClearOrphanActiveCallSlots` found.
Neither deletion compares, so what it rests on is what the start has read.
-/

namespace VibemeetBackend.ActiveCall

open Async Flow Billing EndedCall

/-- What a start has read since it last wrote anything but a deletion of its own slots. -/
abbrev Reads : Type := List (ActiveCallReply × ActiveCallStore)

def Reads.next (w : Reads) (c : ActiveCallCmd) (r : ActiveCallReply) (s : ActiveCallStore) : Reads :=
  match c with
  | .query => w ++ [(r, s)]
  | .delSlot _ => w
  | _ => []

/-- A slot is deleted when it named the call itself, or a call whose session was gone or stale; slots
are reserved and released for the call itself. -/
def Justified (callId : String) (w : Reads) : ActiveCallCmd → Prop
  | .delSlot uid => ∃ x ∈ w, x.2.slots uid = some callId
  | .recoverSlot uid =>
    ∃ holder, (∃ x ∈ w, x.2.slots uid = some holder) ∧
      ∃ x ∈ w, isStaleHolder x.1.now (x.2.session holder) = true
  | .releaseSlot _ id | .reserve id _ => id = callId
  | .expireSlot _ => False
  | _ => True

/-- The protocol: every command is justified. -/
noncomputable abbrev slotReads (callId : String) :
    Reads → ActiveCallCmd → ActiveCallReply → ActiveCallStore → Option Reads :=
  guarded (Justified callId) Reads.next

variable {callId : String}

/-- Every deletion is justified, whatever was read before. -/
abbrev IsJustified {α : Type} (callId : String) (p : ActiveCallFlow α) : Prop :=
  Anytime (slotReads callId) p

variable {ok : ActiveCallReply → Bool} {α : Type}
  {f : ActiveCallReply × ActiveCallStore → ActiveCallFlow α}

theorem justified_call {err : String} {c : ActiveCallCmd} (hc : ∀ w, Justified callId w c)
    (hf : ∀ r s, IsJustified callId (f (r, s))) : IsJustified callId (call ok err c >>= f) :=
  anytime_call_bind (fun w _ _ => ⟨_, guarded_of (hc w)⟩) hf

/-! ### Recovery -/

theorem follows_query {w : Reads} {err : String}
    (hf : ∀ r s, Follows (slotReads callId) (w ++ [(r, s)]) (f (r, s)) (fun _ _ => True)
      fun _ _ => True) :
    Follows (slotReads callId) w (call ok err .query >>= f) (fun _ _ => True)
      fun _ _ => True :=
  follows_guarded_bind trivial (fun _ _ => trivial) fun r s _ => hf r s

theorem follows_deletion {w : Reads} {err : String} {c : ActiveCallCmd}
    (hc : Justified callId w c)
    (hf : ∀ r s, Follows (slotReads callId) (w.next c r s) (f (r, s)) (fun _ _ => True)
      fun _ _ => True) :
    Follows (slotReads callId) w (call ok err c >>= f) (fun _ _ => True)
      fun _ _ => True :=
  follows_guarded_bind hc (fun _ _ => trivial) fun r s _ => hf r s

theorem tryClearOrphanSlot_justified (uid : String) :
    IsJustified callId (tryClearOrphanSlot uid) := by
  intro w
  refine follows_query fun r₀ s₀ => ?_
  dsimp only
  split
  · exact anytime_pure () _
  rename_i holder hholder
  refine follows_query fun r₁ s₁ => ?_
  split
  · rename_i hstale
    refine follows_deletion ⟨holder, ⟨(r₀, s₀), ?_, hholder⟩, (r₁, s₁), ?_, hstale⟩ fun _ _ => ?_
    · simp
    · exact List.mem_concat_self
    · exact follows_query fun _ _ => trivial
  · exact anytime_pure () _

variable (p : Parties)

theorem tryClearOrphanActiveCallSlots_justified :
    IsJustified callId (tryClearOrphanActiveCallSlots p) :=
  anytime_bind (tryClearOrphanSlot_justified p.1) fun _ => tryClearOrphanSlot_justified p.2

theorem releaseSlotIfOurs_justified {w : Reads} (uid : String) {read : Option String}
    (hread : ∃ x ∈ w, x.2.slots uid = read) :
    Follows (slotReads callId) w (releaseSlotIfOurs callId uid read)
      (fun _ w' => ∀ x ∈ w, x ∈ w') fun _ _ => True := by
  rw [releaseSlotIfOurs]
  split
  · rename_i hours
    rw [hours] at hread
    refine follows_guarded_bind hread (fun _ _ => trivial) fun _ _ _ => ?_
    refine follows_guarded_bind trivial (fun _ _ => trivial) fun _ _ _ => ?_
    exact fun x hx => List.mem_append_left _ hx
  · exact fun x hx => hx

theorem releaseActiveCallSlotsIfOurs_justified :
    IsJustified callId (releaseActiveCallSlotsIfOurs callId p) := by
  intro w
  refine follows_query fun r₀ s₀ => follows_query fun r₁ s₁ => ?_
  refine follows_bind ((releaseSlotIfOurs_justified p.1 ⟨(r₀, s₀), ?_, rfl⟩).mono ?_
    fun _ _ _ => trivial)
  · simp
  · intro _ w' hw'
    have hmem : (r₁, s₁) ∈ w' := hw' _ (List.mem_append_right _ List.mem_cons_self)
    exact (releaseSlotIfOurs_justified p.2 ⟨(r₁, s₁), hmem, rfl⟩).mono (fun _ _ _ => trivial)
      fun _ _ _ => trivial

theorem releasePair_justified (key : String × String) (holder : String) :
    IsJustified callId (releasePair key holder) := by
  refine justified_call (fun _ => trivial) fun _ _ => justified_call (fun _ => trivial) fun _ s => ?_
  dsimp only
  split
  · exact justified_call (fun _ => trivial) fun _ _ => justified_call (fun _ => trivial) fun _ _ =>
      anytime_pure ()
  · exact justified_call (fun _ => trivial) fun _ _ => anytime_pure ()

theorem tryClearStaleCallpairLock_justified (key : String × String) :
    IsJustified callId (tryClearStaleCallpairLock key) := by
  refine justified_call (fun _ => trivial) fun _ s => ?_
  dsimp only
  split
  · exact anytime_pure _
  refine justified_call (fun _ => trivial) fun r s => ?_
  split
  · exact anytime_bind (releasePair_justified key _) fun _ => anytime_pure _
  · exact anytime_pure _

/-! ### A start -/

section start

variable (cfg : BillingConfig) (token : String) (q : StartRequest)

theorem finish_justified : IsJustified callId (finish callId p) :=
  justified_call (fun _ => trivial) fun _ _ => anytime_pure ()

theorem undo_justified (seeded releaseSlots : Bool) (e : String) :
    IsJustified callId (undo callId q seeded releaseSlots e) := by
  have hrelease : IsJustified callId (do
      if releaseSlots = true then releaseActiveCallSlotsIfOurs callId (partiesOf q)
      throw e : ActiveCallFlow Unit) := by
    split
    · exact anytime_bind (releaseActiveCallSlotsIfOurs_justified _) fun _ =>
        anytime_throw e
    · exact anytime_throw e
  rw [undo]
  split
  · exact justified_call (fun _ => trivial) fun _ _ => justified_call (fun _ => trivial)
      fun _ _ => hrelease
  · exact justified_call (fun _ => trivial) fun _ _ => hrelease

theorem cleanUp_justified (seeded releaseSlots : Bool) (e : String) :
    IsJustified callId (cleanUp callId q seeded releaseSlots e) :=
  anytime_bind (finish_justified _) fun _ => undo_justified q seeded releaseSlots e

theorem promoteFailed_justified (reason : Option PromoteFailure) :
    IsJustified callId (promoteFailed callId q reason) := by
  have hreleased : IsJustified callId (do
      finish callId (partiesOf q)
      releaseActiveCallSlotsIfOurs callId (partiesOf q) : ActiveCallFlow Unit) :=
    anytime_bind (finish_justified _) fun _ => releaseActiveCallSlotsIfOurs_justified _
  cases reason with
  | none => exact finish_justified _
  | some reason =>
    cases reason with
    | userNotFound | creatorNotFound => exact cleanUp_justified q _ _ _
    | invalidParticipants | creatorDisabled | insufficientCoins => exact hreleased
    | concurrentPromote => exact finish_justified _

theorem runBilling_justified {c : BillingCmd} {f : BillingReply × BillingStore → ActiveCallFlow α}
    (hf : ∀ x, IsJustified callId (f x)) : IsJustified callId (runBilling callId c >>= f) :=
  anytime_bind (justified_call (fun _ => trivial) fun _ _ => anytime_pure _) hf

theorem promoted_justified (p : Promotion) : IsJustified callId (promoted callId q p) := by
  have hactivate : IsJustified callId (activate callId p) :=
    justified_call (fun _ => trivial) fun _ _ => runBilling_justified fun _ =>
      runBilling_justified fun _ => anytime_pure _
  refine anytime_bind (anytime_attempt hactivate) fun result => ?_
  split
  · exact cleanUp_justified q _ _ _
  refine anytime_bind (finish_justified _) fun _ => ?_
  split
  · exact anytime_tryCatch (releaseActiveCallSlotsIfOurs_justified _) fun e =>
      undo_justified q _ _ e
  · exact justified_call (fun _ => trivial) fun _ _ => anytime_pure ()

theorem promote_justified (early : CallSession) :
    IsJustified callId (promote cfg callId early) := by
  refine anytime_tryCatch (anytime_bind (anytime_focusFlow ?_ _) fun _ =>
    anytime_pure _) fun e => ?_
  · exact fun w c r s => ⟨_, guarded_of trivial⟩
  · split
    · exact anytime_pure _
    · exact anytime_throw e

theorem seedAndPromote_justified : IsJustified callId (seedAndPromote cfg callId q) := by
  have hseed : IsJustified callId (do
      let read ← quiet .query
      let early := earlySession cfg q read.1.now
      let _ ← runBilling callId (.persistAll .earlySeed early 0 0 0)
      pure early : ActiveCallFlow CallSession) :=
    justified_call (fun _ => trivial) fun _ _ => runBilling_justified fun _ => anytime_pure _
  refine anytime_bind (anytime_attempt hseed) fun seed => ?_
  split
  · exact cleanUp_justified q _ _ _
  refine anytime_bind (anytime_attempt (promote_justified cfg _)) fun result => ?_
  split
  · exact cleanUp_justified q _ _ _
  · exact promoteFailed_justified q _
  · exact promoteFailed_justified q _
  · exact promoted_justified q _

theorem tryReserveActiveCallSlots_justified :
    IsJustified callId (tryReserveActiveCallSlots callId p) :=
  justified_call (fun _ => rfl) fun _ _ => anytime_pure _

theorem tryReserveActiveCallSlotsWithOrphanRetry_justified :
    IsJustified callId (tryReserveActiveCallSlotsWithOrphanRetry callId p) := by
  refine anytime_bind (tryReserveActiveCallSlots_justified p) fun reserved => ?_
  split
  · exact anytime_pure _
  · exact anytime_bind (tryClearOrphanActiveCallSlots_justified p) fun _ =>
      tryReserveActiveCallSlots_justified p

theorem startAlone_justified : IsJustified callId (startAlone cfg callId q) := by
  have hlocked : ∀ locked : Bool, IsJustified callId (do
      if locked = true then
        if (← tryReserveActiveCallSlotsWithOrphanRetry callId (partiesOf q)) = true then
          seedAndPromote cfg callId q
        else pure ()
      else pure () : ActiveCallFlow Unit) := by
    intro locked
    split
    · refine anytime_bind (tryReserveActiveCallSlotsWithOrphanRetry_justified _) fun _ => ?_
      split
      · exact seedAndPromote_justified cfg q
      · exact anytime_pure ()
    · exact anytime_pure ()
  refine justified_call (fun _ => trivial) fun _ s => ?_
  dsimp only
  split
  · exact hlocked true
  refine anytime_bind (tryClearStaleCallpairLock_justified _) fun cleared => ?_
  split
  · exact justified_call (fun _ => trivial) fun _ s => hlocked _
  · exact hlocked false

theorem startLocked_justified : IsJustified callId (startLocked cfg callId q) := by
  refine justified_call (fun _ => trivial) fun r _ => ?_
  dsimp only
  split
  · exact anytime_pure ()
  refine justified_call (fun _ => trivial) fun r s => ?_
  split
  · exact startAlone_justified cfg q
  split
  · refine justified_call (fun _ => trivial) fun r _ => ?_
    split
    · exact startAlone_justified cfg q
    · exact anytime_pure ()
  · exact anytime_pure ()

/-- **Every deletion of a start is justified.** -/
theorem startBillingSession_justified :
    IsJustified callId (startBillingSession cfg callId token q) := by
  have hclaimed : ∀ claimed : Bool, IsJustified callId (do
      if claimed = true then do
        let locked ← run (.lockStart callId token)
        if (locked.2.startLock callId).isSome = true then pure ()
        else do
          let result ← attempt (startLocked cfg callId q)
          let _ ← quiet (.unlockStart callId token)
          ExceptT.mk (pure result)
      else pure () : ActiveCallFlow Unit) := by
    intro claimed
    split
    · refine justified_call (fun _ => trivial) fun _ s => ?_
      split
      · exact anytime_pure ()
      · refine anytime_bind (anytime_attempt (startLocked_justified cfg q)) fun result => ?_
        exact justified_call (fun _ => trivial) fun _ _ => anytime_mk result
    · exact anytime_pure ()
  refine justified_call (fun _ => trivial) fun _ s => ?_
  dsimp only
  split
  · exact hclaimed true
  refine justified_call (fun _ => trivial) fun _ s => ?_
  split
  · exact hclaimed false
  · exact justified_call (fun _ => trivial) fun _ _ => justified_call (fun _ => trivial) fun _ s =>
      hclaimed _

end start

theorem deleteBillingSessionRedisKeys_justified :
    IsJustified callId (deleteBillingSessionRedisKeys callId p) :=
  justified_call (fun _ => trivial) fun _ _ => justified_call (fun _ => rfl) fun _ _ =>
    justified_call (fun _ => rfl) fun _ _ => justified_call (fun _ => trivial) fun _ _ =>
      anytime_pure ()

end VibemeetBackend.ActiveCall
