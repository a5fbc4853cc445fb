import VibemeetBackend.Async.Watch
import VibemeetBackend.FeedRank.Index

/-!
# What the requests of the feed have to do

How far a request is with an entry of the index, and that no request returns before it is done.
-/

namespace VibemeetBackend.FeedRank

open Async Flow
open Moments (Text ObjectId)
open Presence

/-! ### What a request has to do -/

/-- How far a transition is: it has cleared the slot of a creator, it has written another state, or
it has found the creator to tell the index about. -/
inductive Step
  | settled
  | cleared (uid : Text)
  | landed (uid : Text) (state : CreatorPresenceState)
  | writes (uid : Text) (score : ℤ) (id : ObjectId)
  deriving DecidableEq

namespace Step

def uid : Step → Option Text
  | .settled => none
  | .cleared uid | .landed uid _ | .writes uid _ _ => some uid

def found (step : Step) (row : Option Creator) : Step :=
  match step, row with
  | .landed uid state, some row =>
    .writes uid (encodeFeedRankScore (some state) row.createdAt) row.id
  | _, _ => .settled

end Step

/-- The creator whom a request has deleted and is to remove, and the step of its transition. -/
structure Phase where
  gone : Option ObjectId
  step : Step
  deriving DecidableEq

namespace Phase

def start : Phase := ⟨none, .settled⟩

def next (φ : Phase) (c : FeedCmd) (r : FeedReply) (s : FeedStore) : Phase :=
  match c with
  | .presence uid .clearCreatorActiveCallSlotIfStale =>
    if r.cleared then { φ with step := .cleared uid } else φ
  | .presence uid (.exec t) =>
    { φ with step := if t.statusChanged then .landed uid t.nextState else .settled }
  | .findByUid uid => { φ with step := φ.step.found (s.findByUid uid) }
  | .zadd _ _ => { φ with step := .settled }
  | .zrem _ => { φ with gone := none }
  | .findByIdAndDelete id => { φ with gone := some id }
  | _ => φ

end Phase

def Permits (φ : Phase) : FeedCmd → Prop
  | .presence uid .clearCreatorActiveCallSlotIfStale | .presence uid (.exec _) =>
    φ.step = .settled ∨ φ.step = .cleared uid
  | .findByUid uid => ∃ state, φ.step = .landed uid state
  | .zadd score id => ∃ uid, φ.step = .writes uid score id
  | .zrem id => φ.gone = some id
  | .findByIdAndDelete _ => φ.gone = none
  | _ => True

abbrev FeedEvent : Type := Phase × Event FeedCmd FeedReply FeedStore

/-! ### The requests follow the protocol -/

section protocol

variable {α β : Type} {φ : Phase} {Q : α → Phase → Prop} {cfg : FeedConfig} {uid : Text}

abbrev FeedFollows (φ : Phase) (p : FeedFlow α) (Q : α → Phase → Prop) : Prop :=
  Follows (guarded Permits Phase.next) φ p Q fun _ _ => False

theorem issue_follows {c : FeedCmd} {f : FeedReply × FeedStore → FeedFlow α} (hc : Permits φ c)
    (h : ∀ r s, FeedFollows (φ.next c r s) (f (r, s)) Q) : FeedFollows φ (issue c >>= f) Q :=
  fun r s => ⟨_, guarded_of hc, h r s⟩

theorem call_follows {p : FeedFlow β} {f : β → FeedFlow α} {R : β → Phase → Prop}
    (hp : FeedFollows φ p R) (hf : ∀ b φ', R b φ' → FeedFollows φ' (f b) Q) :
    FeedFollows φ (p >>= f) Q := by
  apply follows_bind
  exact hp.mono hf fun _ _ h => h

theorem onKeys_bind (p : PresenceFlow β) (f : β → PresenceFlow α) :
    onKeys uid (p >>= f) = onKeys uid p >>= fun b => onKeys uid (f b) := by
  show Prog.focus _ _ _ (p.run >>= ExceptT.bindCont f) = p.run.focus _ _ _ >>= _
  rw [Prog.focus_bind]
  apply congrArg
  funext x
  cases x with
  | _ => rfl

variable {f : PresenceReply × PresenceStore → PresenceFlow α}

theorem query_follows {c : PresenceCmd} (hc : Permits φ (.presence uid c))
    (h : ∀ r s, FeedFollows (φ.next (.presence uid c) r s)
      (onKeys uid (f (r.presence, s.keys uid))) Q) : FeedFollows φ (onKeys uid (query c >>= f)) Q :=
  fun r s => ⟨_, guarded_of hc, h r s⟩

theorem keysIssue_follows {c : PresenceCmd} (hc : Permits φ (.presence uid c))
    (h : ∀ r s, FeedFollows (φ.next (.presence uid c) r s)
      (onKeys uid (f (r.presence, s.keys uid))) Q) :
    FeedFollows φ (onKeys uid (issue c >>= f)) Q :=
  fun r s => ⟨_, guarded_of hc, h r s⟩

theorem keysNow_follows {f : ℤ → PresenceFlow α}
    (h : ∀ now, FeedFollows φ (onKeys uid (f now)) Q) :
    FeedFollows φ (onKeys uid (dateNow >>= f)) Q :=
  fun r _ => ⟨_, guarded_of trivial, h r.now⟩

theorem keys_follows {p : PresenceFlow β} {f : β → PresenceFlow α} {R : β → Phase → Prop}
    (hp : FeedFollows φ (onKeys uid p) R)
    (hf : ∀ b φ', R b φ' → FeedFollows φ' (onKeys uid (f b)) Q) :
    FeedFollows φ (onKeys uid (p >>= f)) Q := by
  rw [onKeys_bind]
  exact call_follows hp hf

def Written (g : Option ObjectId) (uid : Text) (x : Transition × Bool) (φ : Phase) : Prop :=
  φ = ⟨g, if x.2 = true ∧ x.1.statusChanged = true then .landed uid x.1.nextState else .settled⟩

variable {g : Option ObjectId}

theorem writePresence_follows {step : Step} {t : Transition} (attempts : ℕ)
    (hstep : step = .settled ∨ step = .cleared uid) :
    FeedFollows ⟨g, step⟩ (onKeys uid (writePresence t (1 + attempts)))
      fun _ φ' => φ' = ⟨g, if t.statusChanged then .landed uid t.nextState else .settled⟩ := by
  rw [Nat.add_comm]
  apply keysIssue_follows
  · exact hstep
  intro r s
  exact rfl

theorem reconcileSlot_follows (eventType : PresenceTransitionEventType) :
    FeedFollows ⟨g, .settled⟩ (onKeys uid (reconcileSlot eventType)) fun _ φ' =>
      φ' = ⟨g, .settled⟩ ∨ eventType ≠ .heartbeat ∧ φ' = ⟨g, .cleared uid⟩ := by
  unfold reconcileSlot
  split
  · rename_i hreconcile
    apply query_follows
    · exact .inl rfl
    intro r _
    have hevent : eventType ≠ .heartbeat := by
      rintro rfl
      cases hreconcile
    show (if r.cleared then _ else _) = _ ∨ _ ∧ (if r.cleared then _ else _) = _
    cases r.cleared with
    | true => exact .inr ⟨hevent, rfl⟩
    | false => exact .inl rfl
  · exact .inl rfl

theorem transitionWritten_follows (cfg : PresenceConfig) (eventType : PresenceTransitionEventType)
    (source : String) :
    FeedFollows ⟨g, .settled⟩ (onKeys uid (transitionWritten cfg eventType source))
      (Written g uid) := by
  apply keys_follows (R := fun _ φ' => φ' = ⟨g, .settled⟩)
  · apply query_follows
    · trivial
    intro _ _
    apply keysNow_follows
    intro _
    apply keysNow_follows
    intro _
    exact rfl
  rintro current _ rfl
  apply keys_follows (reconcileSlot_follows eventType)
  intro _ φ' hφ'
  apply query_follows
  · trivial
  intro _ s
  show FeedFollows φ' _ _
  apply keysNow_follows
  intro now
  apply keys_follows (R := fun skip φ'' => φ'' = φ' ∧ (skip = true → eventType = .heartbeat))
  · unfold heartbeatTtlSkip
    split
    · rename_i hheartbeat
      apply query_follows
      · trivial
      intro _ _
      exact ⟨rfl, fun _ => hheartbeat.1⟩
    · exact ⟨rfl, fun h => absurd h Bool.false_ne_true⟩
  rintro skip _ ⟨hsame, hskip⟩
  rw [hsame]
  split
  · rename_i hskipped
    obtain rfl | ⟨hevent, -⟩ := hφ'
    · exact rfl
    · exact absurd (hskip hskipped) hevent
  · have hstep : ∃ step, φ' = ⟨g, step⟩ ∧ (step = .settled ∨ step = .cleared uid) := by
      obtain rfl | ⟨-, rfl⟩ := hφ'
      · exact ⟨_, rfl, .inl rfl⟩
      · exact ⟨_, rfl, .inr rfl⟩
    obtain ⟨step, rfl, hstep⟩ := hstep
    apply keys_follows (writePresence_follows _ hstep)
    rintro _ _ rfl
    apply query_follows
    · trivial
    intro _ _
    apply query_follows
    · trivial
    intro _ _
    apply query_follows
    · trivial
    intro _ _
    show (⟨g, _⟩ : Phase) = ⟨g, _⟩
    simp only [true_and]

theorem rankUpdate_follows {x : Transition × Bool} (hφ : Written g uid x φ) :
    FeedFollows φ (rankUpdate uid x.1 x.2) fun _ φ' => φ' = ⟨g, .settled⟩ := by
  unfold rankUpdate
  rw [hφ]
  by_cases hchanged : x.2 = true ∧ x.1.statusChanged = true
  · rw [if_pos hchanged, if_pos hchanged]
    apply issue_follows
    · exact ⟨_, rfl⟩
    intro _ s
    show FeedFollows ⟨g, Step.found _ (s.findByUid uid)⟩ _ _
    dsimp only
    cases s.findByUid uid with
    | none => exact rfl
    | some row =>
      apply issue_follows
      · exact ⟨uid, rfl⟩
      intro _ _
      exact rfl
  · rw [if_neg hchanged, if_neg hchanged]
    exact rfl

theorem transitionSent_follows (t : Transition) (written : Bool) :
    FeedFollows φ (onKeys uid (transitionSent t written)) fun _ φ' => φ' = φ := by
  unfold transitionSent
  split
  · apply keys_follows (R := fun _ φ' => φ' = φ)
    · unfold emitCreatorStatus
      split
      · apply keys_follows (R := fun _ φ' => φ' = φ)
        · unfold creatorSummary
          split
          · apply query_follows
            · trivial
            intro _ _
            exact rfl
          · exact rfl
        rintro _ _ rfl
        apply keysIssue_follows
        · trivial
        intro _ _
        exact rfl
      · exact rfl
    rintro _ _ rfl
    exact rfl
  · exact rfl

theorem transitionRanked_follows (uid : Text) (eventType : PresenceTransitionEventType)
    (source : String) :
    FeedFollows ⟨g, .settled⟩ (transitionRanked cfg uid eventType source)
      fun _ φ' => φ' = ⟨g, .settled⟩ := by
  apply call_follows (transitionWritten_follows _ _ _)
  intro x φ' hφ'
  apply call_follows (rankUpdate_follows hφ')
  rintro _ _ rfl
  apply call_follows (transitionSent_follows x.1 x.2)
  rintro _ _ rfl
  exact rfl

theorem staffTransition_follows (creator : Creator) (eventType : PresenceTransitionEventType)
    (source : String) :
    FeedFollows ⟨g, .settled⟩ (staffTransition cfg creator eventType source)
      fun _ φ' => φ' = ⟨g, .settled⟩ := by
  unfold staffTransition
  cases creator.staffUid with
  | none => exact rfl
  | some uid => exact transitionRanked_follows uid eventType source

def PresenceCmd.Idle : PresenceCmd → Prop
  | .clearCreatorActiveCallSlotIfStale | .exec _ => False
  | _ => True

theorem keysProgram_follows {p : Prog PresenceCmd PresenceReply PresenceStore Unit}
    (hp : p.Issues (fun _ => True) PresenceCmd.Idle) :
    FeedFollows φ (onKeys uid (ExceptT.mk (p >>= fun _ => .ret (.ok ())))) fun _ φ' => φ' = φ := by
  induction p with
  | ret a => exact rfl
  | act c k ih =>
    intro r s
    have hidle : Permits φ (.presence uid c) ∧ φ.next (.presence uid c) r s = φ := by
      have hc := hp.1
      cases c <;> first | exact hc.elim | exact ⟨trivial, rfl⟩
    refine ⟨φ, ?_, ih r.presence (s.keys uid) (hp.2 _ _ trivial)⟩
    rw [guarded_of hidle.1, hidle.2]

theorem dateNow_idle : Issues (fun _ => True) PresenceCmd.Idle dateNow :=
  ⟨trivial, fun _ _ _ => trivial⟩

theorem getBatch_idle (cfg : PresenceConfig) (healTarget : Bool) :
    (presenceProgram cfg (.getBatch healTarget)).Issues (fun _ => True) PresenceCmd.Idle := by
  apply Prog.issues_bind
  · show Issues _ _ (getBatchCreatorPresence cfg healTarget)
    apply issues_bind
    · exact ⟨trivial, fun _ _ _ => trivial⟩
    rintro ⟨rb, sb⟩
    apply issues_bind
    · exact ⟨trivial, fun _ _ _ => trivial⟩
    rintro ⟨rm, sm⟩
    apply issues_bind
    · exact ⟨trivial, fun _ _ _ => trivial⟩
    rintro ⟨ra, sa⟩
    dsimp only
    split
    · apply issues_bind dateNow_idle
      intro _
      apply issues_bind dateNow_idle
      intro _
      apply issues_bind dateNow_idle
      intro _
      split
      · exact ⟨trivial, fun _ _ _ => ⟨trivial, fun _ _ _ => trivial⟩⟩
      · trivial
    · trivial
  · intro _
    trivial

/-- **Every request follows the protocol**, and has nothing left to do when it returns. -/
theorem feedProgram_follows (cfg : FeedConfig) (q : FeedRequest) :
    (feedProgram cfg q).Follows (guarded Permits Phase.next) .start
      fun _ φ => φ = .start := by
  have hflow : FeedFollows .start (feedFlow cfg q) fun _ φ => φ = .start := by
    cases q with
    | presence uid q =>
      cases q with
      | transition eventType source => exact transitionRanked_follows uid eventType source
      | getBatch healTarget => exact keysProgram_follows (getBatch_idle _ _)
      | expire key | setAvailability base | setActiveCall callId =>
        exact keysProgram_follows ⟨trivial, fun _ _ _ => trivial⟩
    | createCreator c =>
      apply issue_follows
      · trivial
      intro _ _
      exact rfl
    | deactivateCreator id =>
      apply issue_follows
      · trivial
      intro _ s
      dsimp only
      cases s.creators.get id with
      | none => exact rfl
      | some creator =>
        apply issue_follows
        · trivial
        intro _ _
        exact staffTransition_follows creator _ _
    | reactivateCreator id =>
      apply issue_follows
      · trivial
      intro _ s
      dsimp only
      cases s.creators.get id with
      | none => exact rfl
      | some creator =>
        apply issue_follows
        · trivial
        intro _ _
        exact staffTransition_follows creator _ _
    | deleteCreator id =>
      apply issue_follows
      · trivial
      intro _ s
      dsimp only
      cases s.creators.get id with
      | none => exact rfl
      | some creator =>
        apply issue_follows
        · rfl
        intro _ _
        apply call_follows (staffTransition_follows creator _ _)
        rintro _ _ rfl
        apply issue_follows
        · rfl
        intro _ _
        exact rfl
    | deleteMyAccount id =>
      apply issue_follows
      · trivial
      intro _ _
      exact rfl
  apply Prog.follows_bind.2
  apply Prog.Follows.mono hflow
  intro x φ hx
  cases x with
  | ok a => exact hx
  | error e => exact hx.elim

end protocol

end VibemeetBackend.FeedRank
