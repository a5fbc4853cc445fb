import VibemeetBackend.Async.Watch
import VibemeetBackend.Onboarding.Transition

/-!
# Stages only move forward

Whole runs of stage events and permission decisions, in any order and with any ids, with answers that
are lost and requests that stop for good anywhere.
-/

namespace VibemeetBackend.Onboarding

open Async Flow

/-! ### What may change -/

def User.rank (u : User) : ℕ := stageRank u.stage u.onboardingFlowVersion

/-- A request may move a user to a stage: by the transitions of the version, or past them. -/
def Permitted (cfg : Config) (q : Request) (u : User) (toStage : Stage) : Prop :=
  match q with
  | .stageEvent q =>
    isAllowedTransition u.stage toStage
      (resolveEffectiveFlowVersion u.onboardingFlowVersion q.requestFlowVersion) = true
  | .decision q =>
    isAllowedTransition u.stage toStage
        (resolveEffectiveFlowVersion u.onboardingFlowVersion q.requestFlowVersion) = true ∨
      ((mayRolloutFastForward cfg q.event u.stage u q.clientAppVersion q.now).isSome = true ∧
        toStage = .completed)

def Processed (u : User) : Request → Prop
  | .stageEvent q =>
    mutationProcessed u q.clientMutationId = true ∨
      ((present q.idempotencyKey).any fun k => u.lastOnboardingStageIdempotencyKey == some k) = true
  | .decision q =>
    mutationProcessed u q.clientMutationId = true ∨
      u.lastPermissionsDecisionRequestId = some q.requestId

def Guarded (u : User) : Request → Prop
  | .stageEvent q => Processed u (.stageEvent q)
  | .decision q =>
    (u.stage ≠ .completed ∧ mutationProcessed u q.clientMutationId = true) ∨
      u.lastPermissionsDecisionRequestId = some q.requestId

variable {flowVersion : FlowVersion} {fromStage toStage : Stage}

theorem rank_lt_of_allowed (h : isAllowedTransition fromStage toStage flowVersion = true)
    (hne : toStage ≠ fromStage) :
    stageRank fromStage flowVersion < stageRank toStage flowVersion := by
  revert h hne
  cases flowVersion <;> cases fromStage <;> cases toStage <;> decide

variable {cfg : Config} {u : User}

theorem stage_of_fastForward {event : TransitionEvent} {version : Option String} {now : ℤ}
    (h : (mayRolloutFastForward cfg event fromStage u version now).isSome = true) :
    fromStage = .welcome ∨ fromStage = .bonus := by
  grind [mayRolloutFastForward]

variable {q : Request}

/-- **A permitted change is a step forward.** -/
theorem Permitted.rank_lt (h : Permitted cfg q u toStage) (hne : toStage ≠ u.stage) :
    u.rank < stageRank toStage u.onboardingFlowVersion := by
  cases q with
  | stageEvent q =>
    have hlt := rank_lt_of_allowed h hne
    exact hlt
  | decision q =>
    rcases h with h | ⟨h, rfl⟩
    · have hlt := rank_lt_of_allowed h hne
      exact hlt
    · show stageRank u.stage .v1 < stageRank .completed .v1
      rcases stage_of_fastForward h with hstage | hstage
      · rw [hstage]
        decide
      · rw [hstage]
        decide

/-! ### Plans -/

structure Planned (cfg : Config) (q : Request) (u₀ : User) (filter : Filter) (set : UserSet) :
    Prop where
  fromStage : filter.fromStage = u₀.stage
  stage : ∀ toStage, set.onboardingStage = some toStage →
    toStage ≠ u₀.stage ∧ Permitted cfg q u₀ toStage
  version : ∀ v, set.onboardingFlowVersion = some v →
    v = .v2 ∧ (set.onboardingStage.isSome = true ∨ u₀.stage = .permissions)
  ids : ∀ u, filter.matches u = true → ¬ Guarded u q

theorem raisedVersion_v2 {v : FlowVersion} (h : raisedVersion flowVersion u = some v) :
    v = .v2 := by
  unfold raisedVersion at h
  split at h
  · exact (Option.some.inj h).symm
  · cases h

theorem differs_mutation {id : Option String}
    (h : differs u.lastOnboardingTransitionRequestId (present id) = true) :
    mutationProcessed u id = false := by
  unfold mutationProcessed
  cases hid : present id with
  | none => rfl
  | some x =>
    rw [hid] at h
    simpa [differs] using h

theorem differs_key {last id : Option String} (h : differs last id = true) :
    (id.any fun k => last == some k) = false := by
  cases id with
  | none => rfl
  | some x => simpa [differs] using h

theorem differs_request {last : Option String} {id : String} (h : differs last (some id) = true) :
    last ≠ some id := by
  simpa [differs] using h

theorem matches_parts {f : Filter} (h : f.matches u = true) :
    u.stage = f.fromStage ∧ differs u.lastOnboardingStageIdempotencyKey f.idempotencyKey = true ∧
      differs u.lastPermissionsDecisionRequestId f.requestId = true ∧
      differs u.lastOnboardingTransitionRequestId f.clientMutationId = true := by
  unfold Filter.matches at h
  rw [Bool.and_eq_true, Bool.and_eq_true, Bool.and_eq_true] at h
  obtain ⟨⟨⟨hstage, hkey⟩, hrequest⟩, hmutation⟩ := h
  refine ⟨?_, hkey, hrequest, hmutation⟩
  rw [Bool.or_eq_true, Bool.and_eq_true, beq_iff_eq, beq_iff_eq, beq_iff_eq] at hstage
  rw [User.stage]
  rcases hstage with h | ⟨hfrom, h⟩
  · rw [h]
    rfl
  · rw [h, hfrom]
    rfl

variable {u₀ : User} {conflict done : User → TransitionResult} {filter : Filter} {set : UserSet}

theorem stageEventPlan_planned {q : StageEvent}
    (h : stageEventPlan cfg q u₀ = .update filter set done conflict) :
    Planned cfg (.stageEvent q) u₀ filter set := by
  unfold stageEventPlan at h
  dsimp only at h
  split at h
  · cases h
  split at h
  · cases h
  split at h
  · cases h
  split at h
  · cases h
  split at h
  · cases h
  rename_i hallowed
  split at h
  · cases h
  rename_i hne
  obtain ⟨rfl, rfl, -, -⟩ := Plan.update.inj h
  constructor
  · rfl
  · intro toStage hstage
    cases hstage
    refine ⟨fun heq => hne heq.symm, ?_⟩
    rwa [Bool.not_eq_false] at hallowed
  · intro v hv
    exact ⟨raisedVersion_v2 hv, .inl rfl⟩
  · intro u hu hguarded
    obtain ⟨-, hkey, -, hmutation⟩ := matches_parts hu
    rcases hguarded with h | h
    · rw [differs_mutation hmutation] at h
      cases h
    · rw [differs_key hkey] at h
      cases h

theorem decision_ids {q : Decision} (hrequest : filter.requestId = some q.requestId)
    (hmutation : filter.clientMutationId = present q.clientMutationId) :
    ∀ u, filter.matches u = true → ¬ Guarded u (.decision q) := by
  intro u hu hguarded
  obtain ⟨-, -, hdecision, hid⟩ := matches_parts hu
  rw [hrequest] at hdecision
  rw [hmutation] at hid
  rcases hguarded with ⟨-, h⟩ | h
  · rw [differs_mutation hid] at h
    cases h
  · exact differs_request hdecision h

theorem reconcilePlan_planned {q : Decision} (hstage : u₀.stage = .completed)
    (h : reconcilePlan q = .update filter set done conflict) :
    Planned cfg (.decision q) u₀ filter set := by
  obtain ⟨rfl, rfl, -, -⟩ := Plan.update.inj h
  constructor
  · exact hstage.symm
  · exact fun _ h => nomatch h
  · exact fun _ h => nomatch h
  · intro u hu hguarded
    obtain ⟨hcompleted, -, hdecision, -⟩ := matches_parts hu
    rcases hguarded with ⟨hne, -⟩ | h
    · exact hne hcompleted
    · exact differs_request hdecision h

theorem stage_of_stay {q : Decision} (hstage : u₀.stage ≠ .completed)
    (h : u₀.stage = toNextStageFromEvent q.event flowVersion) : u₀.stage = .permissions := by
  rw [h] at hstage ⊢
  unfold Decision.event at hstage ⊢
  cases hd : q.decision with
  | accept =>
    rw [hd] at hstage
    exact absurd rfl hstage
  | notNow => rfl

theorem decisionPlan_planned {q : Decision}
    (h : decisionPlan cfg q u₀ = .update filter set done conflict) :
    Planned cfg (.decision q) u₀ filter set := by
  unfold decisionPlan at h
  dsimp only at h
  split at h
  · cases h
  split at h
  · cases h
  split at h
  · rename_i hstage
    exact reconcilePlan_planned hstage h
  rename_i hcompleted
  split at h
  · rename_i hallowed
    split at h
    · rename_i hne
      obtain ⟨rfl, rfl, -, -⟩ := Plan.update.inj h
      constructor
      · rfl
      · intro toStage hto
        cases hto
        exact ⟨fun heq => hne heq.symm, .inl hallowed⟩
      · intro v hv
        exact ⟨raisedVersion_v2 hv, .inl rfl⟩
      · exact decision_ids rfl rfl
    · rename_i hstay
      obtain ⟨rfl, rfl, -, -⟩ := Plan.update.inj h
      constructor
      · rfl
      · exact fun _ h => nomatch h
      · intro v hv
        exact ⟨raisedVersion_v2 hv, .inr (stage_of_stay hcompleted (not_not.1 hstay))⟩
      · exact decision_ids rfl rfl
  · split at h
    · rename_i hff
      obtain ⟨rfl, rfl, -, -⟩ := Plan.update.inj h
      constructor
      · rfl
      · intro toStage hto
        cases hto
        exact ⟨fun heq => hcompleted heq.symm, .inr ⟨hff, rfl⟩⟩
      · intro v hv
        exact ⟨raisedVersion_v2 hv, .inl rfl⟩
      · exact decision_ids rfl rfl
    · cases h

theorem plan_planned (h : q.plan cfg u₀ = .update filter set done conflict) :
    Planned cfg q u₀ filter set := by
  cases q with
  | stageEvent q => exact stageEventPlan_planned h
  | decision q => exact decisionPlan_planned h

theorem plan_processed (h : Processed u q) : q.plan cfg u = .answer (replayResult u) := by
  cases q with
  | stageEvent q =>
    show stageEventPlan cfg q u = _
    unfold stageEventPlan
    dsimp only
    split
    · rfl
    rename_i hmutation
    rw [if_pos (h.resolve_left hmutation)]
  | decision q =>
    show decisionPlan cfg q u = _
    unfold decisionPlan
    dsimp only
    split
    · rfl
    rename_i hmutation
    rw [if_pos (h.resolve_left hmutation)]

/-! ### Users since they were read -/

/-- How far a user has come since he was read: a stage on, or still there with the same version, or
at the permissions, whose transitions are the same in both. -/
structure Forward (u₀ u : User) : Prop where
  stage : u₀.rank < u.rank ∨ (u.stage = u₀.stage ∧
    (u.onboardingFlowVersion = u₀.onboardingFlowVersion ∨ u.stage = .permissions))
  seen : u₀.onboardingPermissionSeenAt.isSome = true → u.onboardingPermissionSeenAt.isSome = true

theorem Forward.refl (u : User) : Forward u u := ⟨.inr ⟨rfl, .inl rfl⟩, fun h => h⟩

theorem Forward.rank_le (h : Forward u₀ u) : u₀.rank ≤ u.rank := by
  rcases h.stage with h | ⟨h, -⟩
  · omega
  · show stageRank u₀.stage .v1 ≤ stageRank u.stage .v1
    rw [h]

theorem rank_of_stage (h : u.stage = u₀.stage) : u.rank = u₀.rank := by
  show stageRank u.stage .v1 = stageRank u₀.stage .v1
  rw [h]

theorem Forward.trans {u' : User} (h : Forward u₀ u) (h' : Forward u u') : Forward u₀ u' := by
  constructor
  · have hle := h.rank_le
    have hle' := h'.rank_le
    rcases h.stage with hlt | ⟨hstage, hversion⟩
    · exact .inl (by omega)
    rcases h'.stage with hlt' | ⟨hstage', hversion'⟩
    · exact .inl (by omega)
    · refine .inr ⟨hstage'.trans hstage, ?_⟩
      rcases hversion' with hversion' | hpermissions
      · rw [hversion', hstage']
        exact hversion
      · exact .inr hpermissions
  · exact fun hseen => h'.seen (h.seen hseen)

theorem isAllowed_permissions (toStage : Stage) (v w : FlowVersion) :
    isAllowedTransition .permissions toStage v = isAllowedTransition .permissions toStage w := by
  cases v <;> cases w <;> rfl

theorem allowed_forward (h : Forward u₀ u) (hstage : u.stage = u₀.stage) (toStage : Stage)
    (v : FlowVersion) :
    isAllowedTransition u.stage toStage (resolveEffectiveFlowVersion u.onboardingFlowVersion v) =
      isAllowedTransition u₀.stage toStage
        (resolveEffectiveFlowVersion u₀.onboardingFlowVersion v) := by
  rcases h.stage with hlt | ⟨-, hversion | hpermissions⟩
  · rw [rank_of_stage hstage] at hlt
    omega
  · rw [hstage, hversion]
  · rw [← hstage, hpermissions]
    exact isAllowed_permissions _ _ _

theorem fastForward_forward {event : TransitionEvent} {version : Option String} {now : ℤ}
    (h : Forward u₀ u)
    (hff : (mayRolloutFastForward cfg event fromStage u₀ version now).isSome = true) :
    (mayRolloutFastForward cfg event fromStage u version now).isSome = true := by
  unfold mayRolloutFastForward at hff ⊢
  split at hff
  · cases hff
  rename_i hevent
  rw [if_neg hevent]
  split at hff
  · cases hff
  rename_i hfrom
  rw [if_neg hfrom]
  split at hff
  · cases hff
  split at hff
  · cases hff
  rename_i hdeadline
  rw [if_neg hdeadline]
  by_cases hseen : u.onboardingPermissionSeenAt.isSome = true
  · rw [if_pos hseen]
    rfl
  · rw [if_neg hseen]
    rw [if_neg fun h₀ => hseen (h.seen h₀)] at hff
    exact hff

theorem Permitted.forward (hp : Permitted cfg q u₀ toStage) (h : Forward u₀ u)
    (hstage : u.stage = u₀.stage) : Permitted cfg q u toStage := by
  cases q with
  | stageEvent q =>
    show isAllowedTransition _ _ _ = true
    rw [allowed_forward h hstage]
    exact hp
  | decision q =>
    rcases hp with hp | ⟨hff, hto⟩
    · apply Or.inl
      rw [allowed_forward h hstage]
      exact hp
    · apply Or.inr
      rw [hstage]
      exact ⟨fastForward_forward h hff, hto⟩

/-- **A write to a user who has come forward** moves him forward, by a change that is permitted for
the user as he is, and none of the ids that guard it is the last of its kind. -/
theorem Planned.apply (hplan : Planned cfg q u₀ filter set) (h : Forward u₀ u)
    (hu : filter.matches u = true) :
    Forward u (set.apply u) ∧
      ((set.apply u).stage ≠ u.stage → Permitted cfg q u (set.apply u).stage) := by
  have hstage : u.stage = u₀.stage := (matches_parts hu).1.trans hplan.fromStage
  have hseen : u.onboardingPermissionSeenAt.isSome = true →
      (set.apply u).onboardingPermissionSeenAt.isSome = true := by
    intro hsome
    show (set.onboardingPermissionSeenAt <|> u.onboardingPermissionSeenAt).isSome = true
    cases set.onboardingPermissionSeenAt with
    | none => exact hsome
    | some _ => rfl
  cases hset : set.onboardingStage with
  | none =>
    have hsame : (set.apply u).stage = u.stage := by
      rw [User.stage, UserSet.apply, hset]
      rfl
    refine ⟨⟨.inr ⟨hsame, ?_⟩, hseen⟩, fun hne => absurd hsame hne⟩
    cases hversion : set.onboardingFlowVersion with
    | none =>
      apply Or.inl
      rw [UserSet.apply, hversion]
      rfl
    | some v =>
      apply Or.inr
      rw [hsame, hstage]
      refine (hplan.version v hversion).2.resolve_left ?_
      rw [hset]
      exact Bool.false_ne_true
  | some toStage =>
    have hto : (set.apply u).stage = toStage := by
      rw [User.stage, UserSet.apply, hset]
      rfl
    obtain ⟨hne, hp⟩ := hplan.stage toStage hset
    have hpermitted := hp.forward h hstage
    rw [← hstage] at hne
    rw [hto]
    refine ⟨⟨.inl ?_, hseen⟩, fun _ => hpermitted⟩
    show stageRank u.stage .v1 < stageRank (set.apply u).stage .v1
    rw [hto]
    exact hpermitted.rank_lt hne

/-! ### Answers -/

/-- The answer of a request whose write has found nothing: the user as read again. -/
structure Reports (u : User) (result : TransitionResult) : Prop where
  user : result.user = u
  ignored : result.ignored = true
  fromStage : result.fromStage = u.stage
  toStage : result.toStage = u.stage

theorem reports_conflict (u : User) (replay : Bool) : Reports u (conflictResult u replay) :=
  ⟨rfl, rfl, rfl, rfl⟩

theorem stage_of_completed (h : Forward u₀ u) (hstage : u₀.stage = .completed) :
    u.stage = .completed := by
  have hle : stageRank u₀.stage .v1 ≤ stageRank u.stage .v1 := h.rank_le
  rw [hstage] at hle
  cases hu : u.stage with
  | completed => rfl
  | welcome | bonus | permissions =>
    rw [hu] at hle
    revert hle
    decide

theorem plan_answer {result : TransitionResult} (h : q.plan cfg u₀ = .answer result) :
    result.metrics.atomicConflictReplay = false := by
  have hanswer : ∀ r : TransitionResult, r.metrics.atomicConflictReplay = false →
      Plan.answer r = .answer result → result.metrics.atomicConflictReplay = false := by
    intro r hr heq
    obtain rfl := Plan.answer.inj heq
    exact hr
  cases q with
  | stageEvent q =>
    have h : stageEventPlan cfg q u₀ = .answer result := h
    unfold stageEventPlan at h
    dsimp only at h
    repeat' split at h
    all_goals first
      | exact hanswer _ rfl h
      | cases h
  | decision q =>
    have h : decisionPlan cfg q u₀ = .answer result := h
    unfold decisionPlan reconcilePlan at h
    dsimp only at h
    repeat' split at h
    all_goals first
      | exact hanswer _ rfl h
      | cases h

theorem plan_results (h : q.plan cfg u₀ = .update filter set done conflict) :
    (∀ u, (done u).metrics.atomicConflictReplay = false) ∧
      ∀ u, Forward u₀ u → Reports u (conflict u) := by
  cases q with
  | stageEvent q =>
    have h : stageEventPlan cfg q u₀ = .update filter set done conflict := h
    unfold stageEventPlan at h
    dsimp only at h
    repeat' split at h
    all_goals cases h
    exact ⟨fun _ => rfl, fun u _ => reports_conflict u _⟩
  | decision q =>
    have h : decisionPlan cfg q u₀ = .update filter set done conflict := h
    unfold decisionPlan at h
    dsimp only at h
    split at h
    · cases h
    split at h
    · cases h
    split at h
    · rename_i hstage
      cases h
      refine ⟨fun _ => rfl, fun u hforward => ?_⟩
      have hcompleted := stage_of_completed hforward hstage
      exact ⟨rfl, rfl, hcompleted.symm, hcompleted.symm⟩
    · repeat' split at h
      all_goals cases h
      all_goals exact ⟨fun _ => rfl, fun u _ => reports_conflict u _⟩

/-! ### Requests -/

structure Phase where
  q : Request
  first : Option User
  latest : Option User

def Phase.start (q : Request) : Phase := ⟨q, none, none⟩

def Phase.next (φ : Phase) (c : Cmd) (r : Reply) (s : Users) : Phase :=
  match c with
  | .findOne firebaseUid =>
    if r.delivered = true then
      { φ with first := φ.first <|> s.get firebaseUid, latest := s.get firebaseUid }
    else φ
  | _ => φ

variable {s : Users} {φ : Phase} {r : Reply}

theorem next_findOne {firebaseUid : String} (hr : r.delivered = true) :
    φ.next (.findOne firebaseUid) r s =
      { φ with first := φ.first <|> s.get firebaseUid, latest := s.get firebaseUid } := if_pos hr

theorem next_findOneAndUpdate (φ : Phase) (firebaseUid : String) (filter : Filter) (set : UserSet)
    (r : Reply) (s : Users) : φ.next (.findOneAndUpdate firebaseUid filter set) r s = φ := rfl

/-- The request reads its user, writes what it has planned for the user that it has read, and answers
with the plan's answer, or, when it has planned a write, with the user as written or as read again. -/
def Allows (cfg : Config) (φ : Phase) : Cmd → Prop
  | .findOne firebaseUid => firebaseUid = φ.q.firebaseUid
  | .findOneAndUpdate firebaseUid filter set => firebaseUid = φ.q.firebaseUid ∧
      ∃ u₀ done conflict, φ.first = some u₀ ∧ φ.q.plan cfg u₀ = .update filter set done conflict
  | .respond result => ∃ u₀, φ.first = some u₀ ∧
      match φ.q.plan cfg u₀ with
      | .answer planned => result = planned
      | .update filter set done conflict =>
        (∃ u, filter.matches u = true ∧ result = done (set.apply u)) ∨
          ∃ latest, φ.latest = some latest ∧ result = conflict latest

theorem transition_follows (cfg : Config) (q : Request) :
    Follows (guarded (Allows cfg) Phase.next) (.start q) (transition cfg q)
      (fun _ _ => True) fun _ _ => True := by
  have hrespond : ∀ (φ : Phase) (result : TransitionResult), Allows cfg φ (.respond result) →
      Follows (guarded (Allows cfg) Phase.next) φ (respond result) (fun _ _ => True)
        fun _ _ => True := by
    intro φ result h
    apply follows_guarded_bind h
    · exact fun _ _ => trivial
    · exact fun _ _ _ => trivial
  apply follows_guarded_bind
  · show q.firebaseUid = q.firebaseUid
    rfl
  · exact fun _ _ => trivial
  intro r s hr
  rw [Reply.ok, Bool.and_eq_true] at hr
  rw [next_findOne hr.1]
  dsimp only
  split
  · trivial
  rename_i user huser
  rw [huser]
  split
  · rename_i result hplan
    apply hrespond
    refine ⟨user, rfl, ?_⟩
    show match q.plan cfg user with | .answer planned => _ | .update .. => _
    rw [hplan]
  rename_i filter set done conflict hplan
  apply follows_guarded_bind
  · exact ⟨rfl, user, done, conflict, rfl, hplan⟩
  · exact fun _ _ => trivial
  intro _ s' _
  split
  · rename_i u hu
    apply hrespond
    refine ⟨user, rfl, ?_⟩
    show match q.plan cfg user with | .answer planned => _ | .update .. => _
    rw [hplan]
    exact .inl ⟨u, (Option.filter_eq_some_iff.1 hu).2, rfl⟩
  · apply follows_guarded_bind
    · show q.firebaseUid = q.firebaseUid
      rfl
    · exact fun _ _ => trivial
    intro r' s'' hr'
    rw [Reply.ok, Bool.and_eq_true] at hr'
    rw [next_findOne hr'.1, next_findOneAndUpdate]
    split
    · trivial
    rename_i latest hlatest
    rw [hlatest]
    apply hrespond
    refine ⟨user, rfl, ?_⟩
    show match q.plan cfg user with | .answer planned => _ | .update .. => _
    rw [hplan]
    exact .inr ⟨latest, rfl, rfl⟩

theorem program_follows (cfg : Config) (q : Request) :
    (program cfg q).Follows (guarded (Allows cfg) Phase.next) (.start q) fun _ _ => True := by
  cases q with
  | stageEvent q => exact Follows.run (transition_follows cfg (.stageEvent q))
  | decision q => exact Follows.run (transition_follows cfg (.decision q))

/-! ### Steps -/

/-- Every user is as far as before, or further. -/
def Advances (s t : Users) : Prop :=
  ∀ firebaseUid u, s.get firebaseUid = some u → ∃ u', t.get firebaseUid = some u' ∧ Forward u u'

theorem Advances.refl (s : Users) : Advances s s := fun _ u hu => ⟨u, hu, .refl u⟩

theorem Advances.trans {t t' : Users} (h : Advances s t) (h' : Advances t t') : Advances s t' := by
  intro firebaseUid u hu
  obtain ⟨u', hu', hforward⟩ := h firebaseUid u hu
  obtain ⟨u'', hu'', hforward'⟩ := h' firebaseUid u' hu'
  exact ⟨u'', hu'', hforward.trans hforward'⟩

theorem exec_cases (c : Cmd) (r : Reply) (s : Users) :
    c.exec r s = s ∨ ∃ firebaseUid filter set u, c = .findOneAndUpdate firebaseUid filter set ∧
      s.get firebaseUid = some u ∧ filter.matches u = true ∧ c.exec r s = s.put (set.apply u) := by
  unfold Cmd.exec
  split
  · exact .inl rfl
  split
  · exact .inl rfl
  · exact .inl rfl
  · rename_i firebaseUid filter set
    split
    · rename_i u hu
      obtain ⟨hget, hmatches⟩ := Option.filter_eq_some_iff.1 hu
      exact .inr ⟨firebaseUid, filter, set, u, rfl, hget, hmatches, rfl⟩
    · exact .inl rfl

theorem get_written {firebaseUid : String} (set : UserSet) (hu : s.get firebaseUid = some u)
    (firebaseUid' : String) :
    (s.put (set.apply u)).get firebaseUid' =
      if firebaseUid = firebaseUid' then some (set.apply u) else s.get firebaseUid' := by
  rw [Mongo.Unique.get_put]
  have hkey : (set.apply u).firebaseUid = firebaseUid := (Mongo.Unique.mem_of_get hu).2
  rw [hkey]

/-- The user has come forward since the request has read him. -/
structure Seen (φ : Phase) (s : Users) : Prop where
  first : ∀ u₀, φ.first = some u₀ → ∃ u, s.get φ.q.firebaseUid = some u ∧ Forward u₀ u
  latest : ∀ u₀ u₁, φ.first = some u₀ → φ.latest = some u₁ → Forward u₀ u₁

theorem Seen.start (q : Request) (s : Users) : Seen (.start q) s :=
  ⟨fun _ h => (nomatch h), fun _ _ h => (nomatch h)⟩

theorem Seen.mono {t : Users} (h : Seen φ s) (hst : Advances s t) : Seen φ t := by
  refine ⟨?_, h.latest⟩
  intro u₀ hu₀
  obtain ⟨u, hu, hforward⟩ := h.first u₀ hu₀
  obtain ⟨u', hu', hforward'⟩ := hst _ u hu
  exact ⟨u', hu', hforward.trans hforward'⟩

structure Moves (cfg : Config) (φ : Phase) (e : Event Cmd Reply Users) : Prop where
  rank : ∀ firebaseUid u, e.before.get firebaseUid = some u →
    ∃ u', e.after.get firebaseUid = some u' ∧ u.rank ≤ u'.rank
  permitted : ∀ firebaseUid u u', e.before.get firebaseUid = some u →
    e.after.get firebaseUid = some u' → u'.stage ≠ u.stage →
    φ.q.firebaseUid = firebaseUid ∧ Permitted cfg φ.q u u'.stage
  /-- A request does not write over its own ids. -/
  guarded : e.after ≠ e.before →
    ∃ u, e.before.get φ.q.firebaseUid = some u ∧ ¬ Guarded u φ.q
  replay : ∀ u₀, φ.first = some u₀ → Processed u₀ φ.q →
    e.after = e.before ∧ ∀ result, e.cmd = .respond result → result = replayResult u₀
  /-- A request whose write has found nothing answers with the user that it has read again. -/
  conflict : ∀ result, e.cmd = .respond result → result.metrics.atomicConflictReplay = true →
    ∃ u, φ.latest = some u ∧ Reports u result

structure Writes (cfg : Config) (φ : Phase) (s : Users) (filter : Filter) (set : UserSet)
    (u : User) : Prop where
  get : s.get φ.q.firebaseUid = some u
  forward : Forward u (set.apply u)
  permitted : (set.apply u).stage ≠ u.stage → Permitted cfg φ.q u (set.apply u).stage
  guarded : ¬ Guarded u φ.q
  unprocessed : ∀ u₀, φ.first = some u₀ → ¬ Processed u₀ φ.q

/-- **What an allowed command can do**: nothing, or a write that moves the user of the request
forward. -/
theorem allowed_cases {c : Cmd} (hA : Allows cfg φ c) (h : Seen φ s) :
    c.exec r s = s ∨ ∃ filter set u, c.exec r s = s.put (set.apply u) ∧
      Writes cfg φ s filter set u := by
  rcases exec_cases c r s with hs | ⟨firebaseUid, filter, set, u, rfl, hu, hmatches, hs⟩
  · exact .inl hs
  apply Or.inr
  obtain ⟨rfl, u₀, done, conflict, hfirst, hplan⟩ := hA
  obtain ⟨u', hu', hforward⟩ := h.first u₀ hfirst
  obtain rfl := Option.mem_unique hu hu'
  have hplanned := plan_planned hplan
  obtain ⟨hforward', hpermitted⟩ := hplanned.apply hforward hmatches
  refine ⟨filter, set, u, hs, hu, hforward', hpermitted, hplanned.ids u hmatches, ?_⟩
  intro u₁ hu₁ hprocessed
  rw [hfirst] at hu₁
  cases hu₁
  rw [plan_processed hprocessed] at hplan
  cases hplan

theorem Writes.advances (h : Writes cfg φ s filter set u) : Advances s (s.put (set.apply u)) := by
  intro firebaseUid u₁ hu₁
  rw [get_written set h.get]
  split
  · rename_i heq
    rw [← heq, h.get] at hu₁
    cases hu₁
    exact ⟨_, rfl, h.forward⟩
  · exact ⟨u₁, hu₁, .refl u₁⟩

theorem allowed_advances {c : Cmd} (hA : Allows cfg φ c) (h : Seen φ s) :
    Advances s (c.exec r s) := by
  rcases allowed_cases (r := r) hA h with hs | ⟨filter, set, u, hs, hw⟩
  · rw [hs]
    exact .refl s
  · rw [hs]
    exact hw.advances

theorem Seen.next {c : Cmd} (h : Seen φ s) (hA : Allows cfg φ c) :
    Seen (φ.next c r s) (c.exec r s) := by
  have hmono := h.mono (allowed_advances (r := r) hA h)
  cases c with
  | findOne firebaseUid =>
    obtain rfl : firebaseUid = φ.q.firebaseUid := hA
    have hexec : (Cmd.findOne φ.q.firebaseUid).exec r s = s := by
      unfold Cmd.exec
      split <;> rfl
    rw [hexec] at hmono ⊢
    cases hr : r.delivered with
    | false =>
      rw [Phase.next, hr]
      exact hmono
    | true =>
      rw [next_findOne hr]
      cases hfirst : φ.first with
      | none =>
        constructor
        · intro u₀ hu₀
          exact ⟨u₀, hu₀, .refl u₀⟩
        · intro u₀ u₁ hu₀ hu₁
          obtain rfl := Option.mem_unique hu₀ hu₁
          exact .refl u₀
      | some u =>
        obtain ⟨u', hu', hforward⟩ := h.first u hfirst
        constructor
        · intro u₀ hu₀
          cases hu₀
          exact ⟨u', hu', hforward⟩
        · intro u₀ u₁ hu₀ hu₁
          cases hu₀
          obtain rfl := Option.mem_unique hu' hu₁
          exact hforward
  | _ => exact hmono

theorem moves {c : Cmd} (hA : Allows cfg φ c) (h : Seen φ s) :
    Moves cfg φ ⟨s, c, r, c.exec r s⟩ := by
  constructor
  · intro firebaseUid u hu
    obtain ⟨u', hu', hforward⟩ := allowed_advances (r := r) hA h firebaseUid u hu
    exact ⟨u', hu', hforward.rank_le⟩
  · intro firebaseUid u u' hu hu' hne
    rcases allowed_cases (r := r) hA h with hs | ⟨filter, set, u₁, hs, hw⟩
    · rw [hs, hu] at hu'
      cases hu'
      exact absurd rfl hne
    · rw [hs, get_written set hw.get] at hu'
      split at hu'
      · rename_i heq
        rw [← heq, hw.get] at hu
        cases hu
        cases hu'
        exact ⟨heq, hw.permitted hne⟩
      · rw [hu] at hu'
        cases hu'
        exact absurd rfl hne
  · intro hne
    rcases allowed_cases (r := r) hA h with hs | ⟨filter, set, u, -, hw⟩
    · exact absurd hs hne
    · exact ⟨u, hw.get, hw.guarded⟩
  · intro u₀ hu₀ hprocessed
    constructor
    · rcases allowed_cases (r := r) hA h with hs | ⟨filter, set, u, -, hw⟩
      · exact hs
      · exact absurd hprocessed (hw.unprocessed u₀ hu₀)
    · rintro result rfl
      obtain ⟨u₁, hu₁, hanswer⟩ := hA
      obtain rfl := Option.mem_unique hu₀ hu₁
      rw [plan_processed hprocessed] at hanswer
      exact hanswer
  · rintro result rfl hconflict
    obtain ⟨u₀, hu₀, hanswer⟩ := hA
    split at hanswer
    · rename_i planned hplan
      rw [hanswer, plan_answer hplan] at hconflict
      cases hconflict
    · rename_i filter set done conflict hplan
      obtain ⟨hdone, hreports⟩ := plan_results hplan
      rcases hanswer with ⟨u, -, rfl⟩ | ⟨latest, hlatest, rfl⟩
      · rw [hdone] at hconflict
        cases hconflict
      · exact ⟨latest, hlatest, hreports latest (h.latest u₀ latest hu₀ hlatest)⟩

/-! ### Runs -/

abbrev onboarding (cfg : Config) (s : Users) (ms : List (Move Request Reply)) :
    Watched Phase Cmd Reply Users :=
  (Watched.start s).play Phase.next Phase.start Cmd.exec (program cfg) ms

/-- No user is ever at a lower stage than before, and each command of the run moves them as it
should. -/
structure ForwardOnly (cfg : Config) (s : Users) (ms : List (Move Request Reply)) : Prop where
  rank : ∀ firebaseUid u, s.get firebaseUid = some u →
    ∃ u', (onboarding cfg s ms).pool.store.get firebaseUid = some u' ∧ u.rank ≤ u'.rank
  moves : ∀ x ∈ (onboarding cfg s ms).log, Moves cfg x.1 x.2

/-- **Onboarding stages only move forward**, and a request whose id is the last one of its kind
changes nothing and reports the user as he is. -/
theorem forwardOnly_run (cfg : Config) (s : Users) (ms : List (Move Request Reply)) :
    ForwardOnly cfg s ms := by
  let J : List Phase → List (Phase × Event Cmd Reply Users) → Users → Prop := fun φs l t =>
    Advances s t ∧ (∀ φ ∈ φs, Seen φ t) ∧ ∀ x ∈ l, Moves cfg x.1 x.2
  have hspawn : ∀ φs l t q, J φs l t → J (φs ++ [.start q]) l t := by
    intro φs l t q hJ
    refine ⟨hJ.1, ?_, hJ.2.2⟩
    exact Pool.forall_snoc hJ.2.1 (.start q t)
  have hstep : ∀ φs l t (i : ℕ) φ c r, J φs l t → φs[i]? = some φ → Allows cfg φ c → True →
      J (φs.set i (φ.next c r t)) (l ++ [(φ, ⟨t, c, r, Cmd.exec c r t⟩)]) (Cmd.exec c r t) := by
    intro φs l t i φ c r hJ hi hA _
    have hseen := hJ.2.1 φ (List.mem_of_getElem? hi)
    have hadvances := allowed_advances (r := r) hA hseen
    refine ⟨hJ.1.trans hadvances, ?_, ?_⟩
    · apply Pool.forall_set
      · intro φ' hφ'
        exact (hJ.2.1 φ' hφ').mono hadvances
      · exact hseen.next hA
    · exact Pool.forall_snoc hJ.2.2 (moves hA hseen)
  obtain ⟨-, -, hadvances, -, hmoves⟩ := Watched.play_phased J (fun _ => True)
    (program_follows cfg) ⟨.refl s, fun _ h => (nomatch h), fun _ h => (nomatch h)⟩ hspawn hstep ms
    fun _ _ => trivial
  constructor
  · intro firebaseUid u hu
    obtain ⟨u', hu', hforward⟩ := hadvances firebaseUid u hu
    exact ⟨u', hu', hforward.rank_le⟩
  · exact hmoves

/-! ### Replays after other requests -/

def answers (log : List (Event Cmd Reply Users)) : List TransitionResult :=
  log.filterMap fun e =>
    match e.cmd with
    | .respond result => some result
    | _ => none

def newUser (flowVersion : FlowVersion) : User :=
  ⟨"u1", .stage .welcome, flowVersion, none, none, none, none, none, none, .unknown, .unknown,
    .unknown, none, none, none⟩

def notNow (requestId : String) (cameraMicStatus : PermissionStatus) (now : ℤ) : Request :=
  .decision ⟨"u1", .notNow, requestId, some cameraMicStatus, none, none, .v2, none, now⟩

def seenEvent (event : TransitionEvent) (idempotencyKey : Option String) (now : ℤ) : Request :=
  .stageEvent ⟨"u1", event, idempotencyKey, none, .v1, now⟩

def inTurn (qs : List Request) : List (Move Request Reply) :=
  qs.zipIdx.flatMap fun (q, i) => .spawn q :: List.replicate 3 (.step i ⟨true, true⟩)

def turns (flowVersion : FlowVersion) (qs : List Request) : Pool Cmd Reply Users :=
  (Pool.start (Mongo.Unique.empty.insert (newUser flowVersion))).play Cmd.exec
    (program ⟨.logOnly, none, ""⟩) (inTurn qs)

/-- A decision that is replayed after another one is made again, and what it said about the camera is
stored again; a stage event that is replayed after another one reports the stage of the other. -/
theorem replayed_again :
    let qs := [notNow "r1" .denied 10, notNow "r2" .granted 20]
    let events := [seenEvent .welcomeSeen (some "k1") 10, seenEvent .bonusSeen none 20]
    ((turns .v2 qs).store.get "u1").map (·.cameraMicPermissionStatus) = some .granted ∧
      ((turns .v2 (qs ++ [notNow "r1" .denied 30])).store.get "u1").map
        (·.cameraMicPermissionStatus) = some .denied ∧
      (answers (turns .v2 (qs ++ [notNow "r1" .denied 30])).log).map (·.ignored) =
        [false, false, false] ∧
      (answers (turns .v1 (events ++ [seenEvent .welcomeSeen (some "k1") 30])).log).map
        (·.toStage) = [.bonus, .permissions, .permissions] ∧
      (answers (turns .v1 (events ++ [seenEvent .welcomeSeen (some "k1") 30])).log).map
        (·.idempotentReplay) = [none, none, some true] := by
  decide +kernel

end VibemeetBackend.Onboarding
