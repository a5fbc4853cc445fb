import VibemeetBackend.Async.Flow
import VibemeetBackend.Billing.Session
import VibemeetBackend.Mongo.Unique

/-!
# Onboarding transitions

`onboarding-transition.service.ts`: the stages of the onboarding of a user, the transitions that each
flow version allows, and the two requests that make them.  Each request reads the user, decides, and
updates the user with a filter on the stage and the ids that it has read.
-/

namespace VibemeetBackend.Onboarding

open Async
open Billing (trim)

/-! ### Stages -/

/-- `OnboardingStageCanonical`. -/
inductive Stage where
  | welcome | bonus | permissions | completed
  deriving DecidableEq, Repr

/-- A stored stage: a canonical one, the old spelling of `permissions`, or anything else. -/
inductive StoredStage where
  | stage (s : Stage)
  | permission
  | other
  deriving DecidableEq, Repr

def canonicalizeStage : StoredStage → Stage
  | .stage s => s
  | .permission => .permissions
  | .other => .welcome

inductive FlowVersion where
  | v1 | v2
  deriving DecidableEq, Repr

inductive TransitionEvent where
  | welcomeSeen | bonusSeen | permissionsNotNow | permissionsAccept
  deriving DecidableEq

inductive StrictMode where
  | logOnly | softEnforce | hardEnforce
  deriving DecidableEq

def v1Allowed : Stage → List Stage
  | .welcome => [.bonus]
  | .bonus => [.permissions]
  | .permissions => [.completed]
  | .completed => []

def v2Allowed : Stage → List Stage
  | .welcome => [.permissions]
  | .bonus => [.permissions]
  | .permissions => [.completed]
  | .completed => []

def stageRank (stage : Stage) (_flowVersion : FlowVersion) : ℕ :=
  match stage with
  | .welcome => 1
  | .bonus => 2
  | .permissions => 3
  | .completed => 4

def resolveEffectiveFlowVersion : FlowVersion → FlowVersion → FlowVersion
  | .v1, requestVersion => requestVersion
  | .v2, _ => .v2

def getAllowedTransitions : FlowVersion → Stage → List Stage
  | .v1 => v1Allowed
  | .v2 => v2Allowed

def toNextStageFromEvent (event : TransitionEvent) (flowVersion : FlowVersion) : Stage :=
  match event with
  | .welcomeSeen => if flowVersion = .v2 then .permissions else .bonus
  | .bonusSeen => .permissions
  | .permissionsAccept => .completed
  | .permissionsNotNow => .permissions

def isAllowedTransition (fromStage toStage : Stage) (flowVersion : FlowVersion) : Bool :=
  fromStage == toStage || (getAllowedTransitions flowVersion fromStage).contains toStage

/-! ### Documents -/

inductive PermissionStatus where
  | unknown | granted | denied | permanentlyDenied
  deriving DecidableEq

/-- `permissionOnboardingStatus`. -/
inductive OnboardingOutcome where
  | unknown | accepted | skipped

/-- The onboarding fields of a `User` document; a missing flow version reads as the first. -/
structure User where
  firebaseUid : String
  onboardingStage : StoredStage
  onboardingFlowVersion : FlowVersion
  onboardingWelcomeSeenAt : Option ℤ
  onboardingBonusSeenAt : Option ℤ
  onboardingPermissionSeenAt : Option ℤ
  onboardingCompletedAt : Option ℤ
  permissionsIntroAcceptedAt : Option ℤ
  permissionsLastCheckedAt : Option ℤ
  cameraMicPermissionStatus : PermissionStatus
  notificationPermissionStatus : PermissionStatus
  permissionOnboardingStatus : OnboardingOutcome
  lastPermissionsDecisionRequestId : Option String
  lastOnboardingStageIdempotencyKey : Option String
  lastOnboardingTransitionRequestId : Option String

def User.stage (u : User) : Stage := canonicalizeStage u.onboardingStage

abbrev Users : Type := Mongo.Unique User.firebaseUid

/-- The fields of a `$set`. -/
structure UserSet where
  onboardingStage : Option Stage := none
  onboardingFlowVersion : Option FlowVersion := none
  onboardingWelcomeSeenAt : Option ℤ := none
  onboardingBonusSeenAt : Option ℤ := none
  onboardingPermissionSeenAt : Option ℤ := none
  onboardingCompletedAt : Option ℤ := none
  permissionsIntroAcceptedAt : Option ℤ := none
  permissionsLastCheckedAt : Option ℤ := none
  cameraMicPermissionStatus : Option PermissionStatus := none
  notificationPermissionStatus : Option PermissionStatus := none
  permissionOnboardingStatus : Option OnboardingOutcome := none
  lastPermissionsDecisionRequestId : Option String := none
  lastOnboardingStageIdempotencyKey : Option String := none
  lastOnboardingTransitionRequestId : Option String := none

def UserSet.apply (set : UserSet) (u : User) : User :=
  { u with
    onboardingStage := (set.onboardingStage.map .stage).getD u.onboardingStage
    onboardingFlowVersion := set.onboardingFlowVersion.getD u.onboardingFlowVersion
    onboardingWelcomeSeenAt := set.onboardingWelcomeSeenAt <|> u.onboardingWelcomeSeenAt
    onboardingBonusSeenAt := set.onboardingBonusSeenAt <|> u.onboardingBonusSeenAt
    onboardingPermissionSeenAt := set.onboardingPermissionSeenAt <|> u.onboardingPermissionSeenAt
    onboardingCompletedAt := set.onboardingCompletedAt <|> u.onboardingCompletedAt
    permissionsIntroAcceptedAt := set.permissionsIntroAcceptedAt <|> u.permissionsIntroAcceptedAt
    permissionsLastCheckedAt := set.permissionsLastCheckedAt <|> u.permissionsLastCheckedAt
    cameraMicPermissionStatus :=
      set.cameraMicPermissionStatus.getD u.cameraMicPermissionStatus
    notificationPermissionStatus :=
      set.notificationPermissionStatus.getD u.notificationPermissionStatus
    permissionOnboardingStatus :=
      set.permissionOnboardingStatus.getD u.permissionOnboardingStatus
    lastPermissionsDecisionRequestId :=
      set.lastPermissionsDecisionRequestId <|> u.lastPermissionsDecisionRequestId
    lastOnboardingStageIdempotencyKey :=
      set.lastOnboardingStageIdempotencyKey <|> u.lastOnboardingStageIdempotencyKey
    lastOnboardingTransitionRequestId :=
      set.lastOnboardingTransitionRequestId <|> u.lastOnboardingTransitionRequestId }

/-- The filter of an update: the stage that was read, and ids that are not the last ones. -/
structure Filter where
  fromStage : Stage
  idempotencyKey : Option String
  requestId : Option String
  clientMutationId : Option String

/-- `{ $ne: id }`, when there is an id. -/
def differs (last id : Option String) : Bool := id.isNone || last != id

def Filter.matches (f : Filter) (u : User) : Bool :=
  (u.onboardingStage == .stage f.fromStage ||
      f.fromStage == .permissions && u.onboardingStage == .permission) &&
    differs u.lastOnboardingStageIdempotencyKey f.idempotencyKey &&
    differs u.lastPermissionsDecisionRequestId f.requestId &&
    differs u.lastOnboardingTransitionRequestId f.clientMutationId

/-! ### Fast forward -/

def leadingNumber (cs : List Char) : Option (ℕ × List Char) :=
  let digits := cs.takeWhile Char.isDigit
  if digits = [] then none
  else some (digits.foldl (fun n c => 10 * n + (c.toNat - '0'.toNat)) 0, cs.drop digits.length)

def afterDot : List Char → Option (List Char)
  | '.' :: rest => some rest
  | _ => none

/-- `/^(\d+)\.(\d+)\.(\d+)/`. -/
def parseSemverParts (version : String) : Option (ℕ × ℕ × ℕ) := do
  let (major, rest) ← leadingNumber (trim version).toList
  let rest ← afterDot rest
  let (minor, rest) ← leadingNumber rest
  let rest ← afterDot rest
  let (patch, _) ← leadingNumber rest
  pure (major, minor, patch)

def semverLt (clientVersion minVersion : String) : Bool :=
  match parseSemverParts clientVersion, parseSemverParts minVersion with
  | some (a₀, a₁, a₂), some (b₀, b₁, b₂) =>
    if a₀ ≠ b₀ then a₀ < b₀ else if a₁ ≠ b₁ then a₁ < b₁ else a₂ < b₂
  | _, _ => false

structure Config where
  strictMode : StrictMode
  /-- `ONBOARDING_FAST_FORWARD_UNTIL`. -/
  rolloutDeadline : Option ℤ
  /-- `MIN_FIXED_CLIENT_VERSION`. -/
  minFixedClientVersion : String

inductive RolloutFastForwardGuard where
  | permissionSeenAt | legacyClient

/-- A client-supplied text that is not empty. -/
def present (x : Option String) : Option String := x.filter fun s => s ≠ ""

def mayRolloutFastForward (cfg : Config) (event : TransitionEvent) (fromStage : Stage) (user : User)
    (clientAppVersion : Option String) (now : ℤ) : Option RolloutFastForwardGuard :=
  if event ≠ .permissionsAccept then none
  else if fromStage ≠ .welcome ∧ fromStage ≠ .bonus then none
  else
    match cfg.rolloutDeadline with
    | none => none
    | some deadline =>
      if deadline < now then none
      else if user.onboardingPermissionSeenAt.isSome = true then some .permissionSeenAt
      else
        match present clientAppVersion with
        | none => none
        | some version =>
          if cfg.minFixedClientVersion ≠ "" ∧ semverLt version cfg.minFixedClientVersion = true then
            some .legacyClient
          else none

/-! ### Results -/

structure Metrics where
  invalidTransition : Bool
  idempotentReplay : Bool
  success : Bool
  atomicConflictReplay : Bool

structure TransitionResult where
  user : User
  fromStage : Stage
  toStage : Stage
  ignored : Bool
  idempotentReplay : Option Bool := none
  invalidTransition : Option Bool := none
  invalidReason : Option String := none
  rolloutFastForward : Option Bool := none
  metrics : Metrics

def Stage.text : Stage → String
  | .welcome => "welcome"
  | .bonus => "bonus"
  | .permissions => "permissions"
  | .completed => "completed"

def invalidTransitionResult (user : User) (fromStage : Stage) (invalidReason : String)
    (mode : StrictMode) : TransitionResult :=
  { user, fromStage
    toStage := fromStage
    ignored := mode != .hardEnforce
    invalidTransition := some true
    invalidReason := some invalidReason
    metrics := ⟨true, false, false, false⟩ }

def replayResult (user : User) : TransitionResult :=
  { user
    fromStage := user.stage
    toStage := user.stage
    ignored := true
    idempotentReplay := some true
    metrics := ⟨false, true, false, false⟩ }

def conflictResult (latest : User) (idempotentReplay : Bool) : TransitionResult :=
  { user := latest
    fromStage := latest.stage
    toStage := latest.stage
    ignored := true
    idempotentReplay := some idempotentReplay
    metrics := ⟨false, idempotentReplay, false, true⟩ }

def successResult (fromStage toStage : Stage) (rolloutFastForward : Option Bool) (updated : User) :
    TransitionResult :=
  { user := updated, fromStage, toStage
    ignored := false
    rolloutFastForward := rolloutFastForward
    metrics := ⟨false, false, true, false⟩ }

/-- What a request does about the user that it has read. -/
inductive Plan where
  | answer (result : TransitionResult)
  | update (filter : Filter) (set : UserSet) (success conflict : User → TransitionResult)

/-- `checkTransitionMutationDedup`. -/
def mutationProcessed (user : User) (clientMutationId : Option String) : Bool :=
  (present clientMutationId).any fun id => user.lastOnboardingTransitionRequestId == some id

/-! ### Stage events -/

structure StageEvent where
  firebaseUid : String
  event : TransitionEvent
  idempotencyKey : Option String
  clientMutationId : Option String
  requestFlowVersion : FlowVersion
  now : ℤ

def raisedVersion (flowVersion : FlowVersion) (user : User) : Option FlowVersion :=
  if flowVersion = .v2 ∧ user.onboardingFlowVersion ≠ .v2 then some .v2 else none

def dateIf (condition : Bool) (now : ℤ) : Option ℤ := if condition = true then some now else none

def buildCompletionUpdate (fromStage toStage : Stage) (now : ℤ) (flowVersion : FlowVersion) :
    UserSet :=
  { onboardingStage := some toStage
    onboardingWelcomeSeenAt :=
      dateIf (fromStage == .welcome &&
        toStage == (if flowVersion = .v2 then .permissions else .bonus)) now
    onboardingBonusSeenAt := dateIf (fromStage == .bonus && toStage == .permissions) now
    onboardingCompletedAt := dateIf (fromStage == .permissions && toStage == .completed) now }

def stageEventPlan (cfg : Config) (q : StageEvent) (user : User) : Plan :=
  let key := present q.idempotencyKey
  let flowVersion := resolveEffectiveFlowVersion user.onboardingFlowVersion q.requestFlowVersion
  let fromStage := user.stage
  let toStage := toNextStageFromEvent q.event flowVersion
  let invalid (reason : String) : Plan :=
    .answer (invalidTransitionResult user fromStage reason cfg.strictMode)
  if mutationProcessed user q.clientMutationId = true then .answer (replayResult user)
  else if (key.any fun k => user.lastOnboardingStageIdempotencyKey == some k) = true then
    .answer (replayResult user)
  else if stageRank toStage flowVersion < stageRank fromStage flowVersion then
    invalid ("regression:" ++ fromStage.text ++ "->" ++ toStage.text)
  else if stageRank toStage flowVersion = stageRank fromStage flowVersion ∧ fromStage = toStage ∧
      key = none then
    invalid ("equal_rank_without_idempotency:" ++ fromStage.text)
  else if isAllowedTransition fromStage toStage flowVersion = false then
    invalid ("invalid_transition:" ++ fromStage.text ++ "->" ++ toStage.text)
  else if fromStage = toStage then .answer (replayResult user)
  else
    .update ⟨fromStage, key, none, present q.clientMutationId⟩
      { buildCompletionUpdate fromStage toStage q.now flowVersion with
        lastOnboardingStageIdempotencyKey := key
        lastOnboardingTransitionRequestId := present q.clientMutationId
        onboardingFlowVersion := raisedVersion flowVersion user }
      (successResult fromStage toStage none) fun latest => conflictResult latest true

/-! ### Permission decisions -/

inductive PermissionsDecision where
  | accept | notNow
  deriving DecidableEq

structure Decision where
  firebaseUid : String
  decision : PermissionsDecision
  requestId : String
  cameraMicStatus : Option PermissionStatus
  notificationStatus : Option PermissionStatus
  clientMutationId : Option String
  requestFlowVersion : FlowVersion
  clientAppVersion : Option String
  now : ℤ

def Decision.event (q : Decision) : TransitionEvent :=
  match q.decision with
  | .accept => .permissionsAccept
  | .notNow => .permissionsNotNow

def Decision.set (q : Decision) (flowVersion : FlowVersion) (user : User) : UserSet :=
  { lastPermissionsDecisionRequestId := some q.requestId
    onboardingPermissionSeenAt := some (user.onboardingPermissionSeenAt.getD q.now)
    permissionsLastCheckedAt := some q.now
    permissionsIntroAcceptedAt :=
      dateIf (q.decision == .accept && user.permissionsIntroAcceptedAt.isNone) q.now
    permissionOnboardingStatus :=
      match q.decision with
      | .accept => if user.permissionsIntroAcceptedAt = none then some .accepted else none
      | .notNow => some .skipped
    cameraMicPermissionStatus := q.cameraMicStatus
    notificationPermissionStatus := q.notificationStatus
    lastOnboardingTransitionRequestId := present q.clientMutationId
    onboardingFlowVersion := raisedVersion flowVersion user }

def reconcilePlan (q : Decision) : Plan :=
  .update ⟨.completed, none, some q.requestId, none⟩
    { lastPermissionsDecisionRequestId := some q.requestId
      permissionsLastCheckedAt := some q.now
      cameraMicPermissionStatus := q.cameraMicStatus
      notificationPermissionStatus := q.notificationStatus
      lastOnboardingTransitionRequestId := present q.clientMutationId }
    (fun updated =>
      { successResult .completed .completed none updated with idempotentReplay := some false })
    fun latest =>
      { conflictResult latest true with
        fromStage := .completed
        toStage := .completed }

def decisionPlan (cfg : Config) (q : Decision) (user : User) : Plan :=
  let flowVersion := resolveEffectiveFlowVersion user.onboardingFlowVersion q.requestFlowVersion
  let fromStage := user.stage
  if mutationProcessed user q.clientMutationId = true then .answer (replayResult user)
  else if user.lastPermissionsDecisionRequestId = some q.requestId then .answer (replayResult user)
  else if fromStage = .completed then reconcilePlan q
  else
    let targetStage := toNextStageFromEvent q.event flowVersion
    let filter : Filter := ⟨fromStage, none, some q.requestId, present q.clientMutationId⟩
    let conflict (latest : User) : TransitionResult :=
      conflictResult latest (latest.lastPermissionsDecisionRequestId == some q.requestId)
    let set := q.set flowVersion user
    if isAllowedTransition fromStage targetStage flowVersion = true then
      if fromStage ≠ targetStage then
        .update filter
          { set with
            onboardingStage := some targetStage
            onboardingWelcomeSeenAt := dateIf (targetStage == .permissions && fromStage == .welcome &&
              user.onboardingWelcomeSeenAt.isNone) q.now
            onboardingBonusSeenAt := dateIf (targetStage == .permissions && fromStage == .bonus &&
              user.onboardingBonusSeenAt.isNone) q.now
            onboardingCompletedAt := dateIf (targetStage == .completed &&
              user.onboardingCompletedAt.isNone) q.now }
          (successResult fromStage targetStage (some false)) conflict
      else .update filter set (successResult fromStage fromStage (some false)) conflict
    else if (mayRolloutFastForward cfg q.event fromStage user q.clientAppVersion q.now).isSome =
        true then
      .update filter
        { set with
          onboardingStage := some .completed
          onboardingCompletedAt := dateIf user.onboardingCompletedAt.isNone q.now
          onboardingWelcomeSeenAt :=
            dateIf (fromStage == .welcome && user.onboardingWelcomeSeenAt.isNone) q.now
          onboardingBonusSeenAt :=
            dateIf (fromStage == .bonus && user.onboardingBonusSeenAt.isNone) q.now }
        (successResult fromStage .completed (some true)) conflict
    else
      .answer (invalidTransitionResult user fromStage
        ("invalid_transition:" ++ fromStage.text ++ "->" ++ targetStage.text) cfg.strictMode)

/-! ### Requests -/

inductive Request where
  | stageEvent (q : StageEvent)
  | decision (q : Decision)

def Request.firebaseUid : Request → String
  | .stageEvent q => q.firebaseUid
  | .decision q => q.firebaseUid

def Request.plan (cfg : Config) : Request → User → Plan
  | .stageEvent q => stageEventPlan cfg q
  | .decision q => decisionPlan cfg q

structure Reply where
  delivered : Bool
  answered : Bool

def Reply.ok (r : Reply) : Bool := r.delivered && r.answered

inductive Cmd where
  | findOne (firebaseUid : String)
  | findOneAndUpdate (firebaseUid : String) (filter : Filter) (set : UserSet)
  | respond (result : TransitionResult)

def matched (s : Users) (firebaseUid : String) (filter : Filter) : Option User :=
  (s.get firebaseUid).filter filter.matches

def Cmd.exec (c : Cmd) (r : Reply) (s : Users) : Users :=
  if r.delivered = false then s
  else
    match c with
    | .findOne _ | .respond _ => s
    | .findOneAndUpdate firebaseUid filter set =>
      match matched s firebaseUid filter with
      | some u => s.put (set.apply u)
      | none => s

abbrev OnboardingFlow (α : Type) : Type := Flow Cmd Reply Users α

def run (c : Cmd) : OnboardingFlow (Reply × Users) := Flow.call Reply.ok "request failed" c

def respond (result : TransitionResult) : OnboardingFlow TransitionResult := do
  let _ ← run (.respond result)
  pure result

/-- What the two requests share: the read, the update, and the read after an update that has found
nothing. -/
def transition (cfg : Config) (q : Request) : OnboardingFlow TransitionResult := do
  let (_, s) ← run (.findOne q.firebaseUid)
  match s.get q.firebaseUid with
  | none => throw "USER_NOT_FOUND"
  | some user =>
    match q.plan cfg user with
    | .answer result => respond result
    | .update filter set success conflict => do
      let (_, s) ← run (.findOneAndUpdate q.firebaseUid filter set)
      match matched s q.firebaseUid filter with
      | some u => respond (success (set.apply u))
      | none => do
        let (_, s) ← run (.findOne q.firebaseUid)
        match s.get q.firebaseUid with
        | none => throw "USER_NOT_FOUND"
        | some latest => respond (conflict latest)

def applyOnboardingStageEvent (cfg : Config) (q : StageEvent) : OnboardingFlow TransitionResult :=
  transition cfg (.stageEvent q)

def submitPermissionsDecisionEvent (cfg : Config) (q : Decision) :
    OnboardingFlow TransitionResult :=
  transition cfg (.decision q)

def program (cfg : Config) : Request → Prog Cmd Reply Users Unit
  | .stageEvent q => (applyOnboardingStageEvent cfg q).run >>= fun _ => .ret ()
  | .decision q => (submitPermissionsDecisionEvent cfg q).run >>= fun _ => .ret ()

end VibemeetBackend.Onboarding
