import VibemeetBackend.Mongo.Unique
import VibemeetBackend.Moments.Cursor

/-!
# Applying a referral code

`applyReferralCode` and `rollbackReferralClaim` of `referral.service.ts`, with the formats of
`referral-code.ts`, on the documents that they read and write and with any outcome of each
database step.  What follows the edge (the creator's own edge and the hook of the consumer rewards)
has no effect on the result or on these documents.
-/

namespace VibemeetBackend.Referral

open Moments (Text ObjectId trim)
open Mongo

/-! ### Codes -/

/-- `toUpperCase` of a character, where letters from A to Z come out; any other character stays one
that is none of them. -/
def upperChar (c : Char) : Text :=
  if 'a' ≤ c ∧ c ≤ 'z' then [Char.ofNat (c.toNat - 32)]
  else if c.toNat = 0x131 then ['I']
  else if c.toNat = 0x17F then ['S']
  else if c.toNat = 0xDF then ['S', 'S']
  else if c.toNat = 0xFB00 then ['F', 'F']
  else if c.toNat = 0xFB01 then ['F', 'I']
  else if c.toNat = 0xFB02 then ['F', 'L']
  else if c.toNat = 0xFB03 then ['F', 'F', 'I']
  else if c.toNat = 0xFB04 then ['F', 'F', 'L']
  else if c.toNat = 0xFB05 ∨ c.toNat = 0xFB06 then ['S', 'T']
  else [c]

def normalizeReferralCode (code : Text) : Text := (trim code).flatMap upperChar

def isLetter (c : Char) : Bool := 'A' ≤ c && c ≤ 'Z'

def isDigit (c : Char) : Bool := '0' ≤ c && c ≤ '9'

/-- `letters` letters and then `digits` digits. -/
def isLettersDigits (letters digits : ℕ) (code : Text) : Bool :=
  code.length == letters + digits && (code.take letters).all isLetter &&
    (code.drop letters).all isDigit

def isCreatorCode (code : Text) : Bool :=
  code.length == 9 && code.take 3 == ['C', 'R', '-'] &&
    (code.drop 3).all fun c => isLetter c || isDigit c

def isValidReferralCodeFormat (code : Text) : Bool :=
  let trimmed := normalizeReferralCode code
  isLettersDigits 2 4 trimmed || isLettersDigits 3 5 trimmed || isCreatorCode trimmed

/-! ### Documents -/

inductive UserRole
  | user | creator | agency | bd | admin | superAdmin
  deriving DecidableEq

inductive HostOnboardingStatus
  | none | draft | pendingAgencyApproval | approved | rejected | suspended | blocked | underReview
  deriving DecidableEq

structure ReferralEntry where
  user : ObjectId
  rewardGranted : Bool
  createdAt : ℤ
  deriving DecidableEq

/-- A field that is null or not there is `none`. -/
structure User where
  id : ObjectId
  role : UserRole
  referralCode : Option Text := none
  referredBy : Option ObjectId := none
  hostOnboardingStatus : Option HostOnboardingStatus := some .none
  hostOnboardingRejectedReason : Option Text := none
  referrals : List ReferralEntry := []
  agencyDisabled : Bool := false
  bdDisabled : Bool := false
  createdAt : Option ℤ

structure CreatorProfile where
  isDisabled : Bool
  assignedAgencyId : Option ObjectId

structure ReferralEdge where
  referrerId : ObjectId
  referredUserId : ObjectId
  referralCodeUsed : Text
  rewardGranted : Bool

/-- `creators` by their `userId`; `purchased` are the users with a completed purchase of coins. -/
structure Store where
  users : Unique User.id
  creators : ObjectId → Option CreatorProfile
  purchased : ObjectId → Bool
  edges : Unique ReferralEdge.referredUserId

/-! ### The database -/

inductive Step
  | findAssignment | findApplicantProfile | findPurchase | findReferrer | findReferrerProfile
  | claim | push | createEdge | unsetClaim | pullReferral
  deriving DecidableEq

/-- What a step meets with: another request may have taken the document away before a write, or
written the edge. -/
inductive Outcome
  | done
  | missed
  | duplicate
  | failed (executed : Bool)
  deriving DecidableEq, Repr

def Outcome.answered : Outcome → Bool
  | .done | .missed => true
  | .duplicate | .failed _ => false

def Outcome.executed : Outcome → Bool
  | .done => true
  | .failed executed => executed
  | .missed | .duplicate => false

abbrev Database : Type := Step → Outcome

/-- A result or the error that was thrown, with the documents as they are then. -/
abbrev Call (α : Type) : Type := ExceptT String (StateM Store) α

variable (db : Database)

def find {α : Type} (step : Step) (f : Store → α) : Call α :=
  fun s => (if (db step).answered then .ok (f s) else .error "MongoError", s)

def updateOne (step : Step) (id : ObjectId) (filter : User → Bool) (f : User → User) : Call Bool :=
  fun s =>
    let matched := (db step).executed && (s.users.get id).any filter
    (if (db step).answered then .ok matched else .error "MongoError",
      if matched then { s with users := s.users.update id f } else s)

/-- An edge of the same applicant is found, or one that another request has just written. -/
def createEdge (edge : ReferralEdge) : Call Unit := fun s =>
  match db .createEdge with
  | .duplicate => (.error "E11000", s)
  | .failed executed =>
    (.error "MongoError", if executed then { s with edges := s.edges.insert edge } else s)
  | .done | .missed =>
    if (s.edges.get edge.referredUserId).isSome then (.error "E11000", s)
    else (.ok (), { s with edges := s.edges.insert edge })

/-! ### The functions -/

inductive ApplyReferralCodeMode
  | signup | lateAttach | agencyHost
  deriving DecidableEq

inductive ApplyReferralCodeErrorCode
  | invalidFormat | notFound | self | agentDisabled | alreadyReferred | creatorCannotRefer
  | creatorDisabled | windowExpired | purchaseAlready | notEligibleRole | agencyReferralOnly
  | alreadyLinkedToAgency
  deriving DecidableEq

/-- `ok` or the code of the failure. -/
abbrev ApplyReferralCodeResult : Type := Except ApplyReferralCodeErrorCode Unit

def isAgencyRole (role : UserRole) : Bool := role == .agency

def isBdRole (role : UserRole) : Bool := role == .bd

/-- `now`, and `getReferralAttachWindowMs`. -/
structure Clock where
  now : ℤ
  attachWindowMs : ℤ

def previewAgencyHostApplicantEligibility (applicant : User) :
    Call (Option ApplyReferralCodeErrorCode) := do
  if applicant.referredBy.isSome then return some .alreadyReferred
  let creator ← find db .findAssignment fun s => s.creators applicant.id
  if creator.any (·.assignedAgencyId.isSome) then return some .alreadyLinkedToAgency
  return none

/-- The checks of `late_attach`. -/
def lateAttachError (clock : Clock) (applicant : User) :
    Call (Option ApplyReferralCodeErrorCode) := do
  if applicant.role ≠ .user then return some .notEligibleRole
  let creatorProf ← find db .findApplicantProfile fun s => s.creators applicant.id
  if creatorProf.isSome then return some .notEligibleRole
  if clock.attachWindowMs < clock.now - applicant.createdAt.getD 0 then return some .windowExpired
  let purchased ← find db .findPurchase fun s => s.purchased applicant.id
  if purchased then return some .purchaseAlready
  return none

def applicantError (clock : Clock) (applicant : User) (mode : ApplyReferralCodeMode) :
    Call (Option ApplyReferralCodeErrorCode) :=
  match mode with
  | .agencyHost => previewAgencyHostApplicantEligibility db applicant
  | .signup => return if applicant.referredBy.isSome then some .alreadyReferred else none
  | .lateAttach =>
    if applicant.referredBy.isSome then return some .alreadyReferred
    else lateAttachError db clock applicant

/-- A plain creator refers as an affiliate, and nobody else who has a creator's profile. -/
def creatorError (referrer : User) : Call (Option ApplyReferralCodeErrorCode) := do
  if isAgencyRole referrer.role || isBdRole referrer.role then return none
  let creatorProf ← find db .findReferrerProfile fun s => s.creators referrer.id
  if referrer.role = .creator then
    match creatorProf with
    | none => return some .notFound
    | some creatorProf => return if creatorProf.isDisabled then some .creatorDisabled else none
  else return if creatorProf.isSome then some .creatorCannotRefer else none

def referrerError (applicant referrer : User) (mode : ApplyReferralCodeMode) :
    Call (Option ApplyReferralCodeErrorCode) :=
  if referrer.id = applicant.id then return some .self
  else if isAgencyRole referrer.role && referrer.agencyDisabled then return some .agentDisabled
  else if isBdRole referrer.role && referrer.bdDisabled then return some .agentDisabled
  else if mode = .agencyHost ∧ isAgencyRole referrer.role = false then
    return some .agencyReferralOnly
  else creatorError db referrer

/-- All that comes before the first write: the referrer, when the application is in order. -/
def referrerFor (clock : Clock) (applicant : User) (referralCodeRaw : Text)
    (mode : ApplyReferralCodeMode) : Call (Except ApplyReferralCodeErrorCode User) := do
  if isValidReferralCodeFormat referralCodeRaw = false then return .error .invalidFormat
  if let some code ← applicantError db clock applicant mode then return .error code
  let code := normalizeReferralCode referralCodeRaw
  let found ← find db .findReferrer fun s => s.users.rows.find? fun u => u.referralCode == some code
  match found with
  | none => return .error .notFound
  | some referrer =>
    if let some code ← referrerError db applicant referrer mode then return .error code
    return .ok referrer

def referredByUpdate (referrer u : User) : User :=
  if isAgencyRole referrer.role then
    { u with
      referredBy := some referrer.id
      hostOnboardingStatus := some .pendingAgencyApproval
      hostOnboardingRejectedReason := none }
  else { u with referredBy := some referrer.id }

def rollbackReferralClaim (applicantId referrerId : ObjectId) : Call Unit := do
  let _ ← updateOne db .unsetClaim applicantId (fun _ => true) fun u =>
    { u with referredBy := none, hostOnboardingStatus := none }
  let _ ← updateOne db .pullReferral referrerId (fun _ => true) fun u =>
    { u with referrals := u.referrals.filter fun entry => entry.user ≠ applicantId }

def link (clock : Clock) (applicantId : ObjectId) (referrer : User) (code : Text) :
    Call ApplyReferralCodeResult := do
  let claimed ← updateOne db .claim applicantId (·.referredBy.isNone) (referredByUpdate referrer)
  if !claimed then return .error .alreadyReferred
  let pushed ← updateOne db .push referrer.id (fun _ => true) fun u =>
    { u with referrals := u.referrals ++ [⟨applicantId, false, clock.now⟩] }
  if !pushed then
    rollbackReferralClaim db applicantId referrer.id
    return .error .notFound
  let created ← observing (createEdge db ⟨referrer.id, applicantId, code, false⟩)
  match created with
  | .ok () => return .ok ()
  | .error err =>
    rollbackReferralClaim db applicantId referrer.id
    return .error (if err = "E11000" then .alreadyReferred else .notFound)

def applyReferralCode (clock : Clock) (applicant : User) (referralCodeRaw : Text)
    (mode : ApplyReferralCodeMode) : Call ApplyReferralCodeResult := do
  match ← referrerFor db clock applicant referralCodeRaw mode with
  | .error code => return .error code
  | .ok referrer => link db clock applicant.id referrer (normalizeReferralCode referralCodeRaw)

/-! ### Checks -/

variable {db}

theorem bind_apply {α β : Type} (x : Call α) (f : α → Call β) (s : Store) :
    (x >>= f) s =
      match x s with
      | (.ok a, t) => f a t
      | (.error err, t) => (.error err, t) := by
  show ExceptT.bindCont f (x s).1 (x s).2 = _
  rcases x s with ⟨_ | _, t⟩
  · rfl
  · rfl

def ReadOnly {α : Type} (x : Call α) : Prop := ∀ s, (x s).2 = s

namespace ReadOnly

variable {α β : Type}

theorem pure (a : α) : ReadOnly (pure a : Call α) := fun _ => rfl

theorem find (step : Step) (f : Store → α) : ReadOnly (find db step f) := fun _ => rfl

theorem bind {x : Call α} {f : α → Call β} (hx : ReadOnly x) (hf : ∀ a, ReadOnly (f a)) :
    ReadOnly (x >>= f) := by
  intro s
  rw [bind_apply]
  have hstate := hx s
  cases hcall : x s with
  | mk r t =>
    rw [hcall] at hstate
    obtain rfl : t = s := hstate
    cases r with
    | ok a => exact hf a t
    | error err => rfl

theorem ite {p : Prop} [Decidable p] {x y : Call α} (hx : ReadOnly x) (hy : ReadOnly y) :
    ReadOnly (if p then x else y) := by
  split
  · exact hx
  · exact hy

end ReadOnly

theorem applicantError_readOnly (clock : Clock) (applicant : User) (mode : ApplyReferralCodeMode) :
    ReadOnly (applicantError db clock applicant mode) := by
  cases mode with
  | signup => exact .pure _
  | lateAttach =>
    apply ReadOnly.ite (.pure _)
    apply ReadOnly.ite (.pure _)
    apply (ReadOnly.find _ _).bind
    intro creatorProf
    apply ReadOnly.ite (.pure _)
    apply ReadOnly.ite (.pure _)
    apply (ReadOnly.find _ _).bind
    intro purchased
    exact .ite (.pure _) (.pure _)
  | agencyHost =>
    apply ReadOnly.ite (.pure _)
    apply (ReadOnly.find _ _).bind
    intro creator
    exact .ite (.pure _) (.pure _)

theorem referrerError_readOnly (applicant referrer : User) (mode : ApplyReferralCodeMode) :
    ReadOnly (referrerError db applicant referrer mode) := by
  apply ReadOnly.ite (.pure _)
  apply ReadOnly.ite (.pure _)
  apply ReadOnly.ite (.pure _)
  apply ReadOnly.ite (.pure _)
  apply ReadOnly.ite (.pure _)
  apply (ReadOnly.find _ _).bind
  intro creatorProf
  apply ReadOnly.ite
  · cases creatorProf with
    | _ => exact .pure _
  · exact .pure _

theorem referrerFor_state (clock : Clock) (applicant : User) (referralCodeRaw : Text)
    (mode : ApplyReferralCodeMode) : ReadOnly (referrerFor db clock applicant referralCodeRaw mode) := by
  apply ReadOnly.ite (.pure _)
  apply (applicantError_readOnly clock applicant mode).bind
  intro code
  cases code with
  | some code => exact .pure _
  | none =>
    apply (ReadOnly.find _ _).bind
    intro found
    cases found with
    | none => exact .pure _
    | some referrer =>
      apply (referrerError_readOnly applicant referrer mode).bind
      intro code
      cases code with
      | _ => exact .pure _

theorem ok_of_bind {α β : Type} {x : Call α} {f : α → Call β} {s t : Store} {b : β}
    (h : (x >>= f) s = (.ok b, t)) : ∃ a s', x s = (.ok a, s') ∧ f a s' = (.ok b, t) := by
  grind [bind_apply]

theorem ReadOnly.state {α : Type} {x : Call α} (hx : ReadOnly x) {s t : Store} {r : Except String α}
    (h : x s = (r, t)) : t = s := by
  have hstate := hx s
  rwa [h] at hstate

theorem find_ok {α : Type} {step : Step} {f : Store → α} {s t : Store} {a : α}
    (h : find db step f s = (.ok a, t)) : a = f s := by
  have hfst : (if (db step).answered then .ok (f s) else .error "MongoError" : Except String α) =
    .ok a := congrArg Prod.fst h
  split at hfst
  · exact (Except.ok.inj hfst).symm
  · cases hfst

theorem referrerFor_stored {clock : Clock} {applicant : User} {referralCodeRaw : Text}
    {mode : ApplyReferralCodeMode} {s : Store} {referrer : User}
    (h : (referrerFor db clock applicant referralCodeRaw mode s).1 = .ok (.ok referrer)) :
    s.users.get referrer.id = some referrer ∧ referrer.id ≠ applicant.id := by
  replace h : referrerFor db clock applicant referralCodeRaw mode s = (.ok (.ok referrer), s) :=
    Prod.ext h (referrerFor_state clock applicant referralCodeRaw mode s)
  unfold referrerFor at h
  split at h
  · cases congrArg Prod.fst h
  obtain ⟨code, s', hcode, h⟩ := ok_of_bind h
  obtain rfl := (applicantError_readOnly clock applicant mode).state hcode
  cases code with
  | some code => cases congrArg Prod.fst h
  | none =>
    obtain ⟨found, s'', hfound, h⟩ := ok_of_bind h
    have hfind := find_ok hfound
    cases found with
    | none => cases congrArg Prod.fst h
    | some referrer' =>
      obtain ⟨code, _, hcode, h⟩ := ok_of_bind h
      cases code with
      | some code => cases congrArg Prod.fst h
      | none =>
        obtain rfl : referrer' = referrer := Except.ok.inj (Except.ok.inj (congrArg Prod.fst h))
        constructor
        · exact Unique.get_of_mem (List.mem_of_find?_eq_some hfind.symm)
        · intro hself
          rw [referrerError, if_pos hself] at hcode
          cases congrArg Prod.fst hcode

/-! ### Writes -/

theorem get_updateOne (step : Step) (id : ObjectId) (filter : User → Bool) {f : User → User}
    (hf : ∀ u, (f u).id = u.id) (s : Store) (k : ObjectId) :
    (updateOne db step id filter f s).2.users.get k =
      (s.users.get k).map fun u =>
        if (db step).executed = true ∧ id = k ∧ filter u = true then f u else u := by
  have hsame : ∀ o : Option User, (∀ u ∈ o, ¬ ((db step).executed = true ∧ id = k ∧ filter u = true)) →
      o = o.map fun u =>
        if (db step).executed = true ∧ id = k ∧ filter u = true then f u else u := by
    intro o ho
    cases o with
    | none => rfl
    | some u => rw [Option.map_some, if_neg (ho u rfl)]
  show (if ((db step).executed && (s.users.get id).any filter) = true then
      { s with users := s.users.update id f } else s).users.get k = _
  by_cases hmatched : ((db step).executed && (s.users.get id).any filter) = true
  · rw [if_pos hmatched]
    obtain ⟨hexecuted, hany⟩ := Bool.and_eq_true_iff.1 hmatched
    obtain ⟨u, hu, hfilter⟩ : ∃ u, s.users.get id = some u ∧ filter u = true := by
      cases hu : s.users.get id <;> grind
    show (s.users.update id f).get k = _
    rw [Unique.get_update hf]
    by_cases hk : id = k
    · subst hk
      simp [hu, hexecuted, hfilter]
    · simp [hk]
  · rw [if_neg hmatched]
    apply hsame
    rintro u hu ⟨hexecuted, rfl, hfilter⟩
    rw [Option.mem_def.1 hu, hexecuted] at hmatched
    exact hmatched hfilter

theorem updateOne_fst {step : Step} {id : ObjectId} {filter : User → Bool} {f : User → User}
    {s t : Store} {matched : Bool} (h : updateOne db step id filter f s = (.ok matched, t)) :
    (db step).answered = true ∧ matched = ((db step).executed && (s.users.get id).any filter) := by
  have hfst : (if (db step).answered then
      .ok ((db step).executed && (s.users.get id).any filter) else .error "MongoError" :
        Except String Bool) = .ok matched := congrArg Prod.fst h
  split at hfst
  · rename_i hanswered
    exact ⟨hanswered, (Except.ok.inj hfst).symm⟩
  · cases hfst

theorem updateOne_edges (step : Step) (id : ObjectId) (filter : User → Bool) (f : User → User)
    (s : Store) : (updateOne db step id filter f s).2.edges = s.edges := by
  show (if _ then _ else s : Store).edges = s.edges
  split
  · rfl
  · rfl

/-! ### What is put back -/

/-- The fields of a user that an application touches, as the schema reads them: a status that is not
there is `none`. -/
structure Linked where
  referredBy : Option ObjectId
  hostOnboardingStatus : HostOnboardingStatus
  hostOnboardingRejectedReason : Option Text
  referrals : List ReferralEntry
  deriving DecidableEq

def User.linked (u : User) : Linked where
  referredBy := u.referredBy
  hostOnboardingStatus := u.hostOnboardingStatus.getD .none
  hostOnboardingRejectedReason := u.hostOnboardingRejectedReason
  referrals := u.referrals

structure Unchanged (s t : Store) : Prop where
  users : ∀ id, (t.users.get id).map User.linked = (s.users.get id).map User.linked
  edges : t.edges.rows = s.edges.rows

/-- The rollback brings back the applicant `u`, the referrer and the edges. -/
structure Restores (db : Database) (s : Store) (u referrer : User) : Prop where
  unset : db .unsetClaim = .done
  status : u.hostOnboardingStatus.getD .none = .none
  reason : isAgencyRole referrer.role = true → u.hostOnboardingRejectedReason = none
  referrals : db .push = .done ∨ db .pullReferral = .done →
    db .pullReferral = .done ∧ ∀ entry ∈ referrer.referrals, entry.user ≠ u.id
  edge : db .push = .done → db .createEdge = .failed true → (s.edges.get u.id).isSome = true

def Undoable (db : Database) (s : Store) (applicantId : ObjectId) (referrer : User) : Prop :=
  ∀ u, s.users.get applicantId = some u → u.referredBy = none → db .claim = .done →
    Restores db s u referrer

def rolledBack (db : Database) (applicantId referrerId : ObjectId) (id : ObjectId) (u : User) : User :=
  let u :=
    if db .unsetClaim = .done ∧ applicantId = id then
      { u with referredBy := none, hostOnboardingStatus := none }
    else u
  if db .pullReferral = .done ∧ referrerId = id then
    { u with referrals := u.referrals.filter fun entry => entry.user ≠ applicantId }
  else u

theorem executed_iff {o : Outcome} (h : o.answered = true) : o.executed = true ↔ o = .done := by
  cases o with
  | done => exact iff_of_true rfl rfl
  | missed => exact iff_of_false Bool.false_ne_true nofun
  | _ => cases h

theorem rollback_ok {applicantId referrerId : ObjectId} {s t : Store}
    (h : rollbackReferralClaim db applicantId referrerId s = (.ok (), t)) :
    (∀ id, t.users.get id = (s.users.get id).map (rolledBack db applicantId referrerId id)) ∧
      t.edges = s.edges := by
  obtain ⟨b, s', hunset, h⟩ := ok_of_bind h
  obtain ⟨b', s'', hpull, h⟩ := ok_of_bind h
  obtain rfl : s'' = t := congrArg Prod.snd h
  obtain rfl : _ = s' := congrArg Prod.snd hunset
  obtain rfl : _ = s'' := congrArg Prod.snd hpull
  constructor
  · intro id
    rw [get_updateOne, get_updateOne, Option.map_map]
    · congr 1
      funext u
      have hu := executed_iff (updateOne_fst hunset).1
      have hp := executed_iff (updateOne_fst hpull).1
      simp only [Function.comp_apply, rolledBack, hu, hp, and_true]
    · exact fun _ => rfl
    · exact fun _ => rfl
  · rw [updateOne_edges, updateOne_edges]

theorem filter_eq_iff (applicantId : ObjectId) (entries : List ReferralEntry) :
    entries.filter (fun entry => entry.user ≠ applicantId) = entries ↔
      ∀ entry ∈ entries, entry.user ≠ applicantId := by
  rw [List.filter_eq_self]
  simp only [decide_eq_true_eq]

/-! #### The users, after the claim, the push and the rollback -/

section users

variable (db) (clock : Clock) (applicantId : ObjectId) (referrer : User)

def claimed (id : ObjectId) (u : User) : User :=
  if applicantId = id ∧ u.referredBy.isNone = true then referredByUpdate referrer u else u

def pushed (id : ObjectId) (u : User) : User :=
  if db .push = .done ∧ referrer.id = id then
    { u with referrals := u.referrals ++ [⟨applicantId, false, clock.now⟩] }
  else u

def afterwards (id : ObjectId) (u : User) : User :=
  rolledBack db applicantId referrer.id id (pushed db clock applicantId referrer id
    (claimed applicantId referrer id u))

variable {db clock applicantId referrer}

theorem afterwards_applicant (hne : referrer.id ≠ applicantId) {u : User}
    (hfree : u.referredBy = none) :
    (afterwards db clock applicantId referrer applicantId u).linked = u.linked ↔
      db .unsetClaim = .done ∧ u.hostOnboardingStatus.getD .none = .none ∧
        (isAgencyRole referrer.role = true → u.hostOnboardingRejectedReason = none) := by
  have hclaimed : claimed applicantId referrer applicantId u = referredByUpdate referrer u :=
    if_pos ⟨rfl, by rw [hfree]; rfl⟩
  have hpushed : ∀ v, pushed db clock applicantId referrer applicantId v = v :=
    fun v => if_neg fun h => hne h.2
  rw [afterwards, hclaimed, hpushed, rolledBack]
  have hpull : ¬ (db .pullReferral = .done ∧ referrer.id = applicantId) := fun h => hne h.2
  rw [if_neg hpull]
  by_cases hunset : db .unsetClaim = .done
  · rw [if_pos ⟨hunset, rfl⟩, referredByUpdate]
    split
    · rename_i hagency
      simp [User.linked, hfree, hunset, hagency, eq_comm]
    · rename_i hagency
      simp [User.linked, hfree, hunset, hagency, eq_comm]
  · have hkept : ¬ (db .unsetClaim = .done ∧ applicantId = applicantId) := fun h => hunset h.1
    rw [if_neg hkept, referredByUpdate]
    apply iff_of_false _ fun h => hunset h.1
    intro h
    have href := congrArg Linked.referredBy h
    split at href
    · cases href.trans hfree
    · cases href.trans hfree

theorem afterwards_referrer (hne : referrer.id ≠ applicantId) :
    (afterwards db clock applicantId referrer referrer.id referrer).linked = referrer.linked ↔
      (db .push = .done ∨ db .pullReferral = .done →
        db .pullReferral = .done ∧ ∀ entry ∈ referrer.referrals, entry.user ≠ applicantId) := by
  have hclaimed : claimed applicantId referrer referrer.id referrer = referrer :=
    if_neg fun h => hne h.1.symm
  have hunset : ¬ (db .unsetClaim = .done ∧ applicantId = referrer.id) := fun h => hne h.2.symm
  rw [afterwards, hclaimed, rolledBack, pushed, if_neg hunset, ← filter_eq_iff]
  by_cases hpush : db .push = .done
  · by_cases hpull : db .pullReferral = .done
    · simp [User.linked, hpush, hpull]
    · simp [User.linked, hpush, hpull]
  · by_cases hpull : db .pullReferral = .done
    · simp [User.linked, hpush, hpull]
    · simp [User.linked, hpush, hpull]

theorem afterwards_other {id : ObjectId} (ha : applicantId ≠ id) (hr : referrer.id ≠ id) (u : User) :
    afterwards db clock applicantId referrer id u = u := by
  rw [afterwards, rolledBack, pushed, claimed]
  simp [ha, hr]

theorem users_unchanged_iff {s t : Store} (hne : referrer.id ≠ applicantId) {u : User}
    (hu : s.users.get applicantId = some u) (hfree : u.referredBy = none)
    (hr : s.users.get referrer.id = some referrer)
    (ht : ∀ id, t.users.get id =
      (s.users.get id).map (afterwards db clock applicantId referrer id)) :
    (∀ id, (t.users.get id).map User.linked = (s.users.get id).map User.linked) ↔
      (db .unsetClaim = .done ∧ u.hostOnboardingStatus.getD .none = .none ∧
        (isAgencyRole referrer.role = true → u.hostOnboardingRejectedReason = none)) ∧
      (db .push = .done ∨ db .pullReferral = .done →
        db .pullReferral = .done ∧ ∀ entry ∈ referrer.referrals, entry.user ≠ applicantId) := by
  rw [← afterwards_applicant hne hfree, ← afterwards_referrer hne]
  constructor
  · intro h
    constructor
    · have ha := h applicantId
      rw [ht, hu] at ha
      exact Option.some.inj ha
    · have href := h referrer.id
      rw [ht, hr] at href
      exact Option.some.inj href
  · rintro ⟨ha, href⟩ id
    rw [ht]
    by_cases hida : applicantId = id
    · subst hida
      rw [hu]
      exact congrArg some ha
    · by_cases hidr : referrer.id = id
      · rw [← hidr, hr]
        exact congrArg some href
      · cases s.users.get id with
        | none => rfl
        | some v => exact congrArg (fun v => some v.linked) (afterwards_other hida hidr v)

end users

theorem updateOne_missed {step : Step} {id : ObjectId} {filter : User → Bool} {f : User → User}
    {s t : Store} (h : updateOne db step id filter f s = (.ok false, t)) : t = s := by
  have hmatched := (updateOne_fst h).2
  have hsnd : (if ((db step).executed && (s.users.get id).any filter) = true then
      { s with users := s.users.update id f } else s) = t := congrArg Prod.snd h
  rw [← hmatched, if_neg Bool.false_ne_true] at hsnd
  exact hsnd.symm

theorem observing_apply {α : Type} (x : Call α) (s : Store) :
    observing x s = (.ok (x s).1, (x s).2) := by
  simp only [observing, tryCatch, tryCatchThe, MonadExceptOf.tryCatch, ExceptT.tryCatch, bind,
    ExceptT.bind, StateT.bind, ExceptT.mk]
  cases x s with
  | mk r t =>
    cases r with
    | _ => rfl

theorem createEdge_failed {edge : ReferralEdge} {s t : Store} {err : String}
    (h : observing (createEdge db edge) s = (.ok (.error err), t)) :
    t.users = s.users ∧
      t.edges = if db .createEdge = .failed true then s.edges.insert edge else s.edges := by
  have hrun : createEdge db edge s = (.error err, t) := by
    rw [observing_apply] at h
    have hfst := Except.ok.inj (congrArg Prod.fst h)
    have hsnd : (createEdge db edge s).2 = t := congrArg Prod.snd h
    exact Prod.ext hfst hsnd
  rw [createEdge] at hrun
  cases hstep : db .createEdge with
  | duplicate =>
    rw [hstep] at hrun
    obtain rfl : s = t := congrArg Prod.snd hrun
    exact ⟨rfl, rfl⟩
  | failed executed =>
    rw [hstep] at hrun
    obtain rfl := congrArg Prod.snd hrun
    cases executed with
    | _ => exact ⟨rfl, rfl⟩
  | done =>
    rw [hstep] at hrun
    dsimp only at hrun
    split at hrun
    · obtain rfl : s = t := congrArg Prod.snd hrun
      exact ⟨rfl, rfl⟩
    · cases congrArg Prod.fst hrun
  | missed =>
    rw [hstep] at hrun
    dsimp only at hrun
    split at hrun
    · obtain rfl : s = t := congrArg Prod.snd hrun
      exact ⟨rfl, rfl⟩
    · cases congrArg Prod.fst hrun

theorem referredByUpdate_id (referrer u : User) : (referredByUpdate referrer u).id = u.id := by
  rw [referredByUpdate]
  split
  · rfl
  · rfl

section link

variable {clock : Clock} {applicantId : ObjectId} {referrer : User} {code : Text} {s t : Store}
  {e : ApplyReferralCodeErrorCode}

theorem link_failed (hstored : s.users.get referrer.id = some referrer)
    (h : link db clock applicantId referrer code s = (.ok (.error e), t)) :
    (t = s ∧ ∀ u, s.users.get applicantId = some u → u.referredBy = none → db .claim ≠ .done) ∨
      (db .claim = .done ∧ (∃ u, s.users.get applicantId = some u ∧ u.referredBy = none) ∧
        (∀ id, t.users.get id =
          (s.users.get id).map (afterwards db clock applicantId referrer id)) ∧
        t.edges =
          if db .push = .done ∧ db .createEdge = .failed true then
            s.edges.insert ⟨referrer.id, applicantId, code, false⟩
          else s.edges) := by
  obtain ⟨matched, s₁, hclaim, h⟩ := ok_of_bind h
  obtain ⟨hanswered, hmatched⟩ := updateOne_fst hclaim
  cases matched with
  | false =>
    obtain rfl : s₁ = t := congrArg Prod.snd h
    refine Or.inl ⟨updateOne_missed hclaim, ?_⟩
    intro u hu hfree hdone
    rw [hdone, hu, Option.any_some, hfree] at hmatched
    cases hmatched
  | true =>
    right
    obtain ⟨hexecuted, hany⟩ := Bool.and_eq_true_iff.1 hmatched.symm
    have hdone := (executed_iff hanswered).1 hexecuted
    have hfree : ∃ u, s.users.get applicantId = some u ∧ u.referredBy = none := by
      cases hu : s.users.get applicantId with
      | none =>
        simp [hu] at hany
      | some u =>
        rw [hu] at hany
        exact ⟨u, rfl, Option.isNone_iff_eq_none.1 hany⟩
    have hget₁ : ∀ id, s₁.users.get id = (s.users.get id).map (claimed applicantId referrer id) := by
      intro id
      have hget := @get_updateOne db .claim applicantId (·.referredBy.isNone) _
        (referredByUpdate_id referrer) s id
      rw [hclaim, hexecuted] at hget
      simp only [true_and] at hget
      exact hget
    have hedges₁ : s₁.edges = s.edges := by
      have hedges := @updateOne_edges db .claim applicantId (·.referredBy.isNone)
        (referredByUpdate referrer) s
      rwa [hclaim] at hedges
    obtain ⟨matched, s₂, hpush, h⟩ := ok_of_bind h
    obtain ⟨hanswered', hmatched'⟩ := updateOne_fst hpush
    rw [hget₁, hstored, Option.map_some, Option.any_some, Bool.and_true] at hmatched'
    have hget₂ : ∀ id, s₂.users.get id =
        (s₁.users.get id).map (pushed db clock applicantId referrer id) := by
      intro id
      have hget := @get_updateOne db .push referrer.id (fun _ => true)
        (fun u => { u with referrals := u.referrals ++ [⟨applicantId, false, clock.now⟩] })
        (fun _ => rfl) s₁ id
      rw [hpush] at hget
      simp only [executed_iff hanswered', and_true] at hget
      exact hget
    have hedges₂ : s₂.edges = s.edges := by
      have hedges := @updateOne_edges db .push referrer.id (fun _ => true)
        (fun u => { u with referrals := u.referrals ++ [⟨applicantId, false, clock.now⟩] }) s₁
      simpa [hpush, hedges₁] using hedges
    -- either way the same rollback comes last
    have hlast : ∀ s₃, s₃.users = s₂.users →
        rollbackReferralClaim db applicantId referrer.id s₃ = (.ok (), t) →
        ∀ id, t.users.get id =
          (s.users.get id).map (afterwards db clock applicantId referrer id) := by
      intro s₃ husers hroll id
      rw [(rollback_ok hroll).1, husers, hget₂, hget₁, Option.map_map, Option.map_map]
      rfl
    cases matched with
    | false =>
      have hnot : db .push ≠ .done := by
        intro hpushed
        rw [hpushed] at hmatched'
        cases hmatched'
      obtain ⟨_, s₃, hroll, h⟩ := ok_of_bind h
      obtain rfl : s₃ = t := congrArg Prod.snd h
      refine ⟨hdone, hfree, hlast s₂ rfl hroll, ?_⟩
      rw [(rollback_ok hroll).2, hedges₂, if_neg fun h => hnot h.1]
    | true =>
      have hpushed := (executed_iff hanswered').1 hmatched'.symm
      obtain ⟨created, s₃, hcreate, h⟩ := ok_of_bind h
      cases created with
      | ok _ => cases congrArg Prod.fst h
      | error err =>
        obtain ⟨husers, hedges⟩ := createEdge_failed hcreate
        obtain ⟨_, s₄, hroll, h⟩ := ok_of_bind h
        obtain rfl : s₄ = t := congrArg Prod.snd h
        refine ⟨hdone, hfree, hlast s₃ husers hroll, ?_⟩
        simp [(rollback_ok hroll).2, hedges, hedges₂, hpushed]

end link

theorem insert_rows_eq_iff (edges : Unique ReferralEdge.referredUserId) (edge : ReferralEdge) :
    (edges.insert edge).rows = edges.rows ↔ (edges.get edge.referredUserId).isSome = true := by
  cases hget : edges.get edge.referredUserId with
  | some edge' =>
    simp [Unique.insert_of_get hget]
  | none =>
    rw [Unique.insert_rows hget]
    apply iff_of_false _ Bool.false_ne_true
    intro h
    have hlength := congrArg List.length h
    rw [List.length_append, List.length_singleton] at hlength
    omega

/-- **An application that fails leaves everything as it was** exactly when the applicant was not
claimed, or what the rollback puts back is what there was. -/
theorem applyReferralCode_failed_iff (db : Database) (clock : Clock) (applicant : User)
    (referralCodeRaw : Text) (mode : ApplyReferralCodeMode) (s : Store)
    (e : ApplyReferralCodeErrorCode)
    (h : (applyReferralCode db clock applicant referralCodeRaw mode s).1 = .ok (.error e)) :
    Unchanged s (applyReferralCode db clock applicant referralCodeRaw mode s).2 ↔
      ∀ referrer,
        (referrerFor db clock applicant referralCodeRaw mode s).1 = .ok (.ok referrer) →
          Undoable db s applicant.id referrer := by
  have hcall : applyReferralCode db clock applicant referralCodeRaw mode s =
      (.ok (.error e), (applyReferralCode db clock applicant referralCodeRaw mode s).2) :=
    Prod.ext h rfl
  generalize (applyReferralCode db clock applicant referralCodeRaw mode s).2 = t at hcall ⊢
  unfold applyReferralCode at hcall
  obtain ⟨checked, s', hchecked, hlink⟩ := ok_of_bind hcall
  obtain rfl := (referrerFor_state clock applicant referralCodeRaw mode).state hchecked
  rw [hchecked]
  cases checked with
  | error code =>
    obtain rfl : s' = t := congrArg Prod.snd hlink
    apply iff_of_true ⟨fun _ => rfl, rfl⟩
    intro referrer href
    cases href
  | ok referrer =>
    obtain ⟨hstored, hne⟩ := referrerFor_stored (congrArg Prod.fst hchecked)
    rcases link_failed hstored hlink with ⟨rfl, hfree⟩ | ⟨hdone, ⟨u, hu, hfree⟩, husers, hedges⟩
    · apply iff_of_true ⟨fun _ => rfl, rfl⟩
      rintro _ ⟨⟩ u hu hnone hdone
      exact absurd hdone (hfree u hu hnone)
    · have hid : u.id = applicant.id := (Unique.mem_of_get hu).2
      have hrestored := users_unchanged_iff hne hu hfree hstored husers
      constructor
      · rintro ⟨hsame, hrows⟩ _ ⟨⟩ u' hu' - -
        obtain rfl : u = u' := Option.mem_unique hu hu'
        obtain ⟨⟨hunset, hstatus, hreason⟩, hreferrals⟩ := hrestored.1 hsame
        refine ⟨hunset, hstatus, hreason, ?_, ?_⟩
        · rw [hid]
          exact hreferrals
        · intro hpush hcreate
          rw [hedges, if_pos ⟨hpush, hcreate⟩] at hrows
          rw [hid]
          exact (insert_rows_eq_iff _ _).1 hrows
      · intro h
        have hr := h referrer rfl u hu hfree hdone
        constructor
        · apply hrestored.2 ⟨⟨hr.unset, hr.status, hr.reason⟩, ?_⟩
          rw [← hid]
          exact hr.referrals
        · rw [hedges]
          split
          · rename_i hboth
            apply (insert_rows_eq_iff _ _).2
            rw [← hid]
            exact hr.edge hboth.1 hboth.2
          · rfl

/-! ### An edge that cannot be written -/

def agency : User where
  id := 2
  role := .agency
  referralCode := some ['A', 'B', '1', '2', '3', '4']
  createdAt := some 0

def newApplicant : User := { id := 1, role := .user, createdAt := some 0 }

/-- An agency has turned the applicant down before. -/
def rejectedApplicant : User :=
  { newApplicant with
    hostOnboardingStatus := some .rejected
    hostOnboardingRejectedReason := some ['n', 'o', ' ', 'p', 'h', 'o', 't', 'o'] }

def usersWith (applicant : User) : Store where
  users := Unique.empty.insertAll [applicant, agency]
  creators := fun _ => none
  purchased := fun _ => false
  edges := .empty

def edgeFails : Database := fun step => if step = .createEdge then .failed false else .done

def failedApplication (applicant : User) : Except String ApplyReferralCodeResult × Store :=
  applyReferralCode edgeFails ⟨0, 1⟩ applicant ['a', 'b', '1', '2', '3', '4'] .agencyHost
    (usersWith applicant)

theorem new_applicant_unchanged :
    Unchanged (usersWith newApplicant) (failedApplication newApplicant).2 := by
  apply (applyReferralCode_failed_iff edgeFails ⟨0, 1⟩ newApplicant ['a', 'b', '1', '2', '3', '4']
    .agencyHost (usersWith newApplicant) .notFound (by decide +kernel)).2
  intro referrer href
  have hrun : (referrerFor edgeFails ⟨0, 1⟩ newApplicant ['a', 'b', '1', '2', '3', '4'] .agencyHost
      (usersWith newApplicant)).1 = .ok (.ok agency) := rfl
  obtain rfl : agency = referrer := Except.ok.inj (Except.ok.inj (hrun.symm.trans href))
  intro u hu _ _
  have hget : (usersWith newApplicant).users.get newApplicant.id = some newApplicant := rfl
  obtain rfl : newApplicant = u := Option.mem_unique hget hu
  exact ⟨rfl, rfl, fun _ => rfl, fun _ => ⟨rfl, nofun⟩, nofun⟩

/-- The rollback takes the status, and the claim before it the reason. -/
theorem rejection_forgotten :
    ¬ ∀ db clock applicant referralCodeRaw mode s e,
      (applyReferralCode db clock applicant referralCodeRaw mode s).1 = .ok (.error e) →
        Unchanged s (applyReferralCode db clock applicant referralCodeRaw mode s).2 := by
  intro h
  have hsame := (h edgeFails ⟨0, 1⟩ rejectedApplicant ['a', 'b', '1', '2', '3', '4'] .agencyHost
    (usersWith rejectedApplicant) .notFound (by decide +kernel)).users 1
  exact absurd hsame (by decide +kernel)

end VibemeetBackend.Referral
