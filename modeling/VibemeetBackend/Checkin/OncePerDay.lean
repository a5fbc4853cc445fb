import Mathlib.Data.String.Basic
import VibemeetBackend.Async.Watch
import VibemeetBackend.Checkin.Service

/-!
# One check-in a day

Whole runs of status requests and claims, each with its own clock, with other changes of the wallets
between any two of their commands, aborted and retried transactions, and requests that stop for good
anywhere.
-/

namespace VibemeetBackend.Checkin

open Async Flow Pool
open CreatorReferral (ObjectId)

/-! ### What a request goes by -/

/-- The date of the request, the store that its answer goes by, with the user, and what it was
paid. -/
structure Phase where
  todayKey : String
  view : Option (ObjectId × Store)
  claimed : Option Claim

def Phase.start : Request → Phase
  | .status _ now | .claim _ now _ => ⟨istDateKey now, none, none⟩
  | .reminder _ | .income .. => ⟨"", none, none⟩

def committed (c : Cmd) (r : Reply) (s : Store) : Option ClaimWrite :=
  match c with
  | .commit (some w) => if (r.delivered && !w.conflicts s) = true then some w else none
  | _ => none

def Phase.next (φ : Phase) (c : Cmd) (r : Reply) (s : Store) : Phase :=
  match c with
  | .findState userId | .snapshot userId =>
    if r.delivered = true then { φ with view := some (userId, s) } else φ
  | .commit _ =>
    match committed c r s with
    | some w => { φ with view := some (w.userId, w.exec s), claimed := w.claim }
    | none => φ
  | _ => φ

structure ClaimWrite.Continues (cfg : Config) (todayKey : String) (w : ClaimWrite) (c : Claim) :
    Prop where
  userId : c.userId = w.userId
  dateKey : c.dateKey = todayKey
  dayIndex : c.dayIndex = (w.old.getD (.fresh w.userId)).nextDayIndex
  coins : getDailyCheckInRewardForDay cfg.rewards c.dayIndex = some c.coins

structure Phase.Answers (cfg : Config) (φ : Phase) (userId : ObjectId) (now : ℤ)
    (payload : CheckInStatusPayload) : Prop where
  todayKey : φ.todayKey = istDateKey now
  shows : ∃ v st coins extras, φ.view = some (userId, v) ∧
    (∀ st', v.states.get userId = some st' → st' = st) ∧
    payload = toStatusPayload cfg.rewards st coins now extras ∧
    (extras.1 = some false → ∃ c, φ.claimed = some c ∧ c.userId = userId ∧
      c.dateKey = istDateKey now ∧ extras.2 = some c.coins ∧ st = c.state)

def Allows (cfg : Config) (φ : Phase) : Cmd → Prop
  | .commit (some w) =>
    (w.claim = none → w.old = none) ∧ ∀ c ∈ w.claim, w.Continues cfg φ.todayKey c
  | .respond userId now payload => φ.Answers cfg userId now payload
  | _ => True

variable {userId : ObjectId}

section protocol

variable {cfg : Config} {φ : Phase} {α : Type} {Q : α → Phase → Prop} {E : String → Phase → Prop}

abbrev CheckinFollows (cfg : Config) (φ : Phase) (p : CheckinFlow α) (Q : α → Phase → Prop)
    (E : String → Phase → Prop) : Prop :=
  Follows (guarded (Allows cfg) Phase.next) φ p Q E

variable {f : Reply × Store → CheckinFlow α}

theorem follows_run {c : Cmd} (hc : Allows cfg φ c) (hnext : ∀ r s, φ.next c r s = φ)
    (hE : ∀ e, E e φ) (h : ∀ r s, CheckinFollows cfg φ (f (r, s)) Q E) :
    CheckinFollows cfg φ (run c >>= f) Q E := by
  apply follows_keep_bind
  · intro r s
    rw [guarded_of hc, hnext]
  · exact hE _
  · exact h

def Phase.see (φ : Phase) (userId : ObjectId) (s : Store) : Phase := { φ with view := some (userId, s) }

theorem follows_findState (userId : ObjectId) (hE : ∀ e v, E e φ ∧ E e (φ.see userId v))
    (h : ∀ r s, CheckinFollows cfg (φ.see userId s) (f (r, s)) Q E) :
    CheckinFollows cfg φ (run (.findState userId) >>= f) Q E := by
  apply follows_guarded_bind
  · trivial
  · intro r s
    show E _ (if r.delivered = true then φ.see userId s else φ)
    split
    · exact (hE _ s).2
    · exact (hE _ s).1
  · intro r s hr
    rw [Reply.ok, Bool.and_eq_true] at hr
    show CheckinFollows cfg (if r.delivered = true then φ.see userId s else φ) _ _ _
    rw [if_pos hr.1]
    exact h r s

theorem ensureState_follows (userId : ObjectId) (φ : Phase) :
    CheckinFollows cfg φ (ensureState userId)
      (fun st φ' => ∃ v, φ' = φ.see userId v ∧ ∀ st', v.states.get userId = some st' → st' = st)
      fun _ _ => True := by
  apply follows_findState userId fun _ _ => ⟨trivial, trivial⟩
  intro r s
  dsimp only
  split
  · simp_all [Phase.see]
  · rename_i hs
    apply follows_run (c := .createState userId) trivial (fun _ _ => rfl) fun _ => trivial
    intro _ s'
    split
    · simp [hs, Phase.see]
    · apply follows_findState userId fun _ _ => ⟨trivial, trivial⟩
      intro r s''
      split
      · simp_all [Phase.see]
      · trivial

theorem status_follows (firebaseUid : String) (now : ℤ) (hφ : φ.todayKey = istDateKey now) :
    CheckinFollows cfg φ (getCheckInStatusForUser cfg firebaseUid now) (fun _ _ => True)
      fun _ _ => True := by
  unfold getCheckInStatusForUser
  split
  · trivial
  apply follows_run (c := .findUser firebaseUid) trivial (fun _ _ => rfl) fun _ => trivial
  intro _ s
  dsimp only
  split
  · trivial
  split
  · trivial
  rename_i user _ _
  apply follows_bind
  apply Follows.mono (ensureState_follows user.id φ)
  · rintro st φ' ⟨v, rfl, hst⟩
    refine follows_run (c := .respond ..) ⟨hφ, ?_⟩ (fun _ _ => rfl) (fun _ => trivial)
      fun _ _ => trivial
    exact ⟨v, st, user.coins, (none, none), rfl, hst, rfl, fun h => nomatch h⟩
  · intro _ _ _
    trivial

def Answering (cfg : Config) (userId : ObjectId) (now : ℤ) (payload : CheckInStatusPayload)
    (φ : Phase) : Prop := φ.Answers cfg userId now payload

theorem rolledBack_follows (user : User) (now : ℤ) (hφ : φ.todayKey = istDateKey now) :
    CheckinFollows cfg φ (rolledBack cfg user now) (Answering cfg user.id now) fun _ _ => True := by
  apply follows_findState user.id fun _ _ => ⟨trivial, trivial⟩
  intro _ s
  apply follows_run (c := .findUserById user.id) trivial (fun _ _ => rfl) fun _ => trivial
  intro _ s'
  refine ⟨hφ, s, _, _, (some true, some 0), rfl, fun st' hst' => ?_, rfl, fun h => nomatch h⟩
  rw [hst', Option.getD_some]

inductive Claims (cfg : Config) (userId : ObjectId) (now : ℤ) (s : Store) :
    Option ClaimWrite × CheckInStatusPayload → Prop where
  | already (st : DailyCheckInState) (coins : ℤ) (hst : s.states.get userId = some st) :
    Claims cfg userId now s
      (none, toStatusPayload cfg.rewards st coins now (some true, some 0))
  | created (w : ClaimWrite) (coins : ℤ) (huser : w.userId = userId) (hold : w.old = none)
      (hclaim : w.claim = none) :
    Claims cfg userId now s
      (some w, toStatusPayload cfg.rewards (.fresh userId) coins now (some true, some 0))
  | paid (w : ClaimWrite) (c : Claim) (coins : ℤ) (huser : w.userId = userId)
      (hclaim : w.claim = some c) (hc : w.Continues cfg (istDateKey now) c) :
    Claims cfg userId now s
      (some w, toStatusPayload cfg.rewards c.state coins now (some false, some c.coins))

theorem claims_unpaid (cfg : Config) (userId : ObjectId) (now : ℤ) (s : Store) (user : User) :
    Claims cfg userId now s
      (if s.states.get userId = none then some ⟨userId, user, none, none⟩ else none,
        toStatusPayload cfg.rewards ((s.states.get userId).getD (.fresh userId)) user.coins now
          (some true, some 0)) := by
  cases hst : s.states.get userId with
  | none =>
    exact .created _ user.coins rfl rfl rfl
  | some st =>
    exact .already st user.coins hst

theorem claimBody_claims {now : ℤ} {s : Store} {x : Option ClaimWrite × CheckInStatusPayload}
    (h : claimBody cfg userId now s = .ok x) : Claims cfg userId now s x := by
  unfold claimBody at h
  split at h
  · cases h
  rename_i user _
  split at h
  · cases h
  dsimp only at h
  split at h
  · cases h
    exact claims_unpaid cfg userId now s user
  split at h
  · cases h
  rename_i coins hcoins
  split at h
  · cases h
  · cases h
    exact .paid ⟨userId, user, _, some ⟨userId, istDateKey now, _, coins⟩⟩ _ _ rfl rfl
      ⟨rfl, rfl, rfl, hcoins⟩

theorem committed_eq (w : ClaimWrite) (userId : ObjectId) (r : Reply) (s : Store) :
    committed (.commit (some w)) r s =
      if (transactions userId).applied (some w) r s = true then some w else none := rfl

theorem next_commit (w : ClaimWrite) {r : Reply} {s : Store}
    (h : (transactions userId).applied (some w) r s = true) :
    φ.next ((transactions userId).commit (some w)) r s = { φ.see w.userId (w.exec s) with claimed := w.claim } := by
  have hnext : φ.next (.commit (some w)) r s = { φ.see w.userId (w.exec s) with claimed := w.claim } := by
    rw [Phase.next, committed_eq w userId, if_pos h]
    rfl
  exact hnext

theorem next_aborted (w : ClaimWrite) {r : Reply} {s : Store}
    (h : (transactions userId).applied (some w) r s = false) :
    φ.next ((transactions userId).commit (some w)) r s = φ := by
  have hnext : φ.next (.commit (some w)) r s = φ := by
    rw [Phase.next, committed_eq w userId, if_neg (by rw [h]; exact Bool.false_ne_true)]
  exact hnext

theorem claim_states (s : Store) (c : Claim) : (s.claim c).states = s.states.put c.state := rfl

theorem transaction_follows (userId : ObjectId) (now : ℤ) (attempts : ℕ)
    (hφ : φ.todayKey = istDateKey now) :
    CheckinFollows cfg φ
      (withTransaction (transactions userId) (claimBody cfg userId now) attempts)
      (Answering cfg userId now) fun _ φ' => φ'.todayKey = istDateKey now := by
  apply follows_withTransaction_reading (transactions userId)
    (P := fun φ => φ.todayKey = istDateKey now) (R := fun s φ => φ.view = some (userId, s))
  · intro φ r s hφ
    refine ⟨_, guarded_of trivial, ?_, ?_⟩
    · show (if r.delivered = true then φ.see userId s else φ).todayKey = istDateKey now
      split
      · exact hφ
      · exact hφ
    · intro hr
      have hr : r.delivered = true := hr
      show (if r.delivered = true then φ.see userId s else φ).view = some (userId, s)
      rw [if_pos hr]
      rfl
  · intro φ s₀ w payload hφ hview hbody r s
    cases claimBody_claims hbody with
    | already st coins hst =>
      refine ⟨_, guarded_of trivial, ?_, fun _ => hφ⟩
      intro _
      refine ⟨⟨hφ, s₀, st, coins, _, hview, ?_, rfl, fun h => nomatch h⟩, fun _ => hφ⟩
      intro st' hst'
      exact Option.mem_unique hst' hst
    | created w coins huser hold hclaim =>
      have hA : Allows cfg φ (.commit (some w)) := by
        refine ⟨fun _ => hold, ?_⟩
        intro c hc
        simp [hclaim] at hc
      refine ⟨_, guarded_of hA, ?_, ?_⟩
      · intro happlied
        rw [next_commit w happlied]
        refine ⟨⟨hφ, w.exec s, .fresh userId, coins, _, ?_, ?_, rfl, fun h => nomatch h⟩,
          fun _ => hφ⟩
        · show some (w.userId, w.exec s) = _
          rw [huser]
        · intro st' hst'
          rw [ClaimWrite.exec, hclaim] at hst'
          have hkey : (DailyCheckInState.fresh w.userId).userId = userId := huser
          rw [Mongo.Unique.get_put, if_pos hkey, huser] at hst'
          exact (Option.some.inj hst').symm
      · intro happlied
        rw [next_aborted w happlied]
        exact hφ
    | paid w c coins huser hclaim hc =>
      have hA : Allows cfg φ (.commit (some w)) := by
        refine ⟨fun h => ?_, ?_⟩
        · simp [hclaim] at h
        · intro c' hc'
          rw [hclaim] at hc'
          cases hc'
          rw [hφ]
          exact hc
      have hcuser : c.userId = userId := hc.userId.trans huser
      refine ⟨_, guarded_of hA, ?_, ?_⟩
      · intro happlied
        rw [next_commit w happlied]
        refine ⟨⟨hφ, w.exec s, c.state, coins, _, ?_, ?_, rfl, ?_⟩, fun _ => hφ⟩
        · show some (w.userId, w.exec s) = _
          rw [huser]
        · intro st' hst'
          rw [ClaimWrite.exec, hclaim] at hst'
          have hkey : c.state.userId = userId := hcuser
          rw [claim_states, Mongo.Unique.get_put, if_pos hkey] at hst'
          exact (Option.some.inj hst').symm
        · intro _
          exact ⟨c, hclaim, hcuser, hc.dateKey, rfl, rfl⟩
      · intro happlied
        rw [next_aborted w happlied]
        exact hφ
  · exact fun _ _ hφ => hφ
  · exact hφ

theorem claim_follows (firebaseUid : String) (now : ℤ) (attempts : ℕ)
    (hφ : φ.todayKey = istDateKey now) :
    CheckinFollows cfg φ (claimDailyCheckIn cfg firebaseUid now attempts) (fun _ _ => True)
      fun _ _ => True := by
  unfold claimDailyCheckIn
  split
  · trivial
  apply follows_run (c := .findUser firebaseUid) trivial (fun _ _ => rfl) fun _ => trivial
  intro _ s
  dsimp only
  split
  · trivial
  rename_i user _
  split
  · trivial
  apply follows_bind
  have hrespond : ∀ (payload : CheckInStatusPayload) (φ' : Phase), Answering cfg user.id now payload φ' →
      CheckinFollows cfg φ' (do
        let _ ← run (.respond user.id now payload)
        pure payload) (fun _ _ => True) fun _ _ => True := by
    intro payload φ' h
    exact follows_run (c := .respond user.id now payload) h (fun _ _ => rfl) (fun _ => trivial)
      fun _ _ => trivial
  apply follows_tryCatch
  apply Follows.mono (transaction_follows user.id now attempts hφ)
  · exact hrespond
  · intro e φ' hφ'
    split
    · apply Follows.mono (rolledBack_follows user now hφ')
      · exact hrespond
      · intro _ _ _
        trivial
    · trivial

theorem program_follows (cfg : Config) (q : Request) :
    (program cfg q).Follows (guarded (Allows cfg) Phase.next) (.start q) fun _ _ => True := by
  cases q with
  | status firebaseUid now => exact Follows.run (status_follows firebaseUid now rfl)
  | claim firebaseUid now attempts =>
    exact Follows.run (claim_follows firebaseUid now attempts rfl)
  | _ => exact fun r s => ⟨_, guarded_of trivial, trivial⟩

end protocol

/-! ### State documents and rows -/

namespace Store

variable (s : Store)

def lastClaimDateKey (userId : ObjectId) : Option String :=
  (s.states.get userId).bind fun st => st.lastClaimDateKey

def claimCount (userId : ObjectId) : ℕ :=
  s.ledger.rows.countP fun t => t.userId == userId && t.source == "daily_checkin"

structure Fresh : Prop where
  states : s.states.rows = []
  rows : ∀ userId, s.claimCount userId = 0
  ids : ∀ userId dateKey, s.paid userId dateKey = false

structure Sound : Prop where
  missing : ∀ userId, s.states.get userId = none → s.claimCount userId = 0
  next : ∀ userId st, s.states.get userId = some st →
    st.nextDayIndex = s.claimCount userId % 7 + 1
  last : ∀ userId st, s.states.get userId = some st → 0 < s.claimCount userId →
    st.lastClaimedDayIndex = some ((s.claimCount userId - 1) % 7 + 1)
  dates : ∀ userId dateKey, s.paid userId dateKey = true → 0 < s.claimCount userId ∧
    ∃ last, s.lastClaimDateKey userId = some last ∧ dateKey ≤ last

end Store

def InOrder (s : Store) (userId : ObjectId) (dateKey : String) : Prop :=
  ∀ last ∈ s.lastClaimDateKey userId, last ≤ dateKey

instance (s : Store) (userId : ObjectId) (dateKey : String) : Decidable (InOrder s userId dateKey) :=
  inferInstanceAs (Decidable (∀ last ∈ _, _))

def paidBy (c : Cmd) (r : Reply) (s : Store) : Option Claim := (committed c r s).bind fun w => w.claim

def Cmd.reads : Cmd → Option ObjectId
  | .findState userId | .snapshot userId => some userId
  | _ => none

def Timely (x : Phase × Event Cmd Reply Store) : Prop :=
  (∀ c ∈ paidBy x.2.cmd x.2.ans x.2.before, InOrder x.2.before c.userId c.dateKey) ∧
    ∀ userId ∈ x.2.cmd.reads, x.2.before.paid userId x.1.todayKey = true →
      InOrder x.2.before userId x.1.todayKey

instance : DecidablePred Timely := fun _ =>
  inferInstanceAs (Decidable ((∀ c ∈ _, _) ∧ ∀ userId ∈ _, _ = true → _))

variable {cfg : Config} {s t : Store} {φ : Phase} {c : Cmd} {r : Reply} {claim : Claim}

theorem sound_of_fresh (hs : s.Fresh) : s.Sound := by
  have hget : ∀ userId, s.states.get userId = none := by
    intro userId
    rw [Mongo.Unique.get, hs.states]
    rfl
  constructor
  · exact fun userId _ => hs.rows userId
  · intro userId st hst
    simp [hget] at hst
  · intro userId st hst
    simp [hget] at hst
  · intro userId dateKey hpaid
    simp [hs.ids] at hpaid

/-! ### What a command does -/

theorem paidBy_some (h : paidBy c r t = some claim) :
    ∃ w : ClaimWrite, c = .commit (some w) ∧ w.claim = some claim ∧ w.conflicts t = false ∧
      c.exec r t = t.claim claim := by
  rw [paidBy, Option.bind_eq_some_iff] at h
  obtain ⟨w, hw, hclaim⟩ := h
  unfold committed at hw
  split at hw
  · split at hw
    · rename_i happlied
      cases hw
      rw [Bool.and_eq_true, Bool.not_eq_true'] at happlied
      refine ⟨_, rfl, hclaim, happlied.2, ?_⟩
      show (if r.delivered = false then t else if _ = true then t else ClaimWrite.exec _ t) = _
      rw [happlied.1, happlied.2, ClaimWrite.exec, hclaim]
      rfl
    · cases hw
  · cases hw

theorem conflicts_eq_false {w : ClaimWrite} (h : w.conflicts t = false) :
    t.states.get w.userId = w.old ∧
      ∀ c ∈ w.claim, t.user w.userId = some w.user ∧ t.paid w.userId c.dateKey = false := by
  rw [ClaimWrite.conflicts, Bool.or_eq_false_iff, bne_eq_false_iff_eq, Option.any_eq_false] at h
  refine ⟨h.1, fun c hc => ?_⟩
  have hc := h.2 c hc
  rw [Bool.or_eq_false_iff, bne_eq_false_iff_eq] at hc
  exact hc

def Kept (t t' : Store) : Prop :=
  ∀ userId, t'.states.get userId = t.states.get userId ∨
    t.states.get userId = none ∧ t'.states.get userId = some (.fresh userId)

/-- Any other change of a wallet. -/
def income (userId : ObjectId) (c : Cmd) (r : Reply) : ℤ :=
  match c with
  | .incCoins id amount => if r.delivered = true ∧ id = userId then amount else 0
  | _ => 0

theorem coins_incCoins (id : ObjectId) (n : ℤ) (userId : ObjectId) :
    (t.incCoins id n).coins userId =
      (t.coins userId).map fun v => v + if id = userId then n else 0 := by
  have hkeeps : ∀ u : User, User.id { u with coins := u.coins + n } = u.id := fun _ => rfl
  rw [Store.coins, Store.user, Store.incCoins, Mongo.find?_update hkeeps, Store.coins, Store.user]
  split
  · rw [Option.map_map, Option.map_map]
    rfl
  · rw [Option.map_map]
    congr 1
    funext u
    exact (add_zero u.coins).symm

structure Unpaid (c : Cmd) (r : Reply) (t t' : Store) : Prop where
  ledger : t'.ledger = t.ledger
  kept : Kept t t'
  coins : ∀ userId, t'.coins userId = (t.coins userId).map fun v => v + income userId c r

theorem coins_same {t' : Store} (husers : t'.users = t.users) {n : ℤ} (hn : n = 0)
    (userId : ObjectId) : t'.coins userId = (t.coins userId).map fun v => v + n := by
  rw [Store.coins, Store.user, husers, hn]
  show t.coins userId = _
  cases t.coins userId with
  | none => rfl
  | some v => rw [Option.map_some, add_zero]

theorem unpaid_refl (h : ∀ userId, income userId c r = 0) : Unpaid c r t t :=
  ⟨rfl, fun _ => .inl rfl, fun userId => coins_same rfl (h userId) userId⟩

theorem unpaid_put (userId : ObjectId) (h : ∀ userId, income userId c r = 0)
    (hnone : t.states.get userId = none) {states : Mongo.Unique DailyCheckInState.userId}
    (hstates : ∀ u, states.get u = if userId = u then some (.fresh userId) else t.states.get u) :
    Unpaid c r t { t with states := states } := by
  refine ⟨rfl, fun u => ?_, fun u => coins_same rfl (h u) u⟩
  have hu : Store.states { t with states := states } = states := rfl
  rw [hu, hstates]
  by_cases huser : userId = u
  · subst huser
    exact .inr ⟨hnone, if_pos rfl⟩
  · exact .inl (if_neg huser)

theorem exec_unpaid (hA : Allows cfg φ c) (h : paidBy c r t = none) :
    Unpaid c r t (c.exec r t) := by
  by_cases hr : r.delivered = false
  · have hexec : c.exec r t = t := if_pos hr
    rw [hexec]
    apply unpaid_refl
    intro userId
    cases c with
    | incCoins id amount =>
      show (if r.delivered = true ∧ id = userId then amount else 0) = 0
      simp [hr]
    | _ => rfl
  have hexec : c.exec r t = _ := if_neg hr
  rw [hexec]
  rw [Bool.not_eq_false] at hr
  cases c with
  | createState userId =>
    cases hst : t.states.get userId with
    | none => exact unpaid_put userId (fun _ => rfl) hst (Mongo.Unique.get_insert hst)
    | some st =>
      dsimp only
      rw [Mongo.Unique.insert_of_get hst]
      exact unpaid_refl fun _ => rfl
  | commit w =>
    cases w with
    | none => exact unpaid_refl fun _ => rfl
    | some w =>
      dsimp only
      split
      · exact unpaid_refl fun _ => rfl
      · rename_i hconflicts
        rw [Bool.not_eq_true] at hconflicts
        have hcommitted : committed (.commit (some w)) r t = some w := by
          show (if (r.delivered && !w.conflicts t) = true then some w else none) = some w
          rw [hr, hconflicts]
          rfl
        have hclaim : w.claim = none := by
          rw [paidBy, hcommitted] at h
          exact h
        have hold := (conflicts_eq_false hconflicts).1
        rw [hA.1 hclaim] at hold
        rw [ClaimWrite.exec, hclaim]
        exact unpaid_put w.userId (fun _ => rfl) hold (Mongo.Unique.get_put _ _)
  | incCoins id amount =>
    refine ⟨rfl, fun _ => .inl rfl, fun userId => ?_⟩
    have hincome : income userId (.incCoins id amount) r = if id = userId then amount else 0 := by
      rw [income, hr]
      simp only [true_and]
    rw [hincome]
    exact coins_incCoins id amount userId
  | _ => exact unpaid_refl fun _ => rfl

theorem claimCount_claim (hfree : t.paid claim.userId claim.dateKey = false) (userId : ObjectId) :
    (t.claim claim).claimCount userId =
      t.claimCount userId + if claim.userId = userId then 1 else 0 := by
  rw [Store.paid, Option.isSome_eq_false_iff, Option.isNone_iff_eq_none] at hfree
  have hrows : (t.claim claim).ledger.rows = t.ledger.rows ++ [claim.row] :=
    Mongo.Unique.insert_rows hfree
  rw [Store.claimCount, hrows, List.countP_append, List.countP_singleton]
  congr 1
  show (if (claim.userId == userId && "daily_checkin" == "daily_checkin") = true then 1 else 0) = _
  rw [beq_self_eq_true, Bool.and_true]
  by_cases h : claim.userId = userId
  · rw [if_pos h, if_pos (beq_iff_eq.2 h)]
  · rw [if_neg h, if_neg (mt beq_iff_eq.1 h)]

theorem paid_claim (hfree : t.paid claim.userId claim.dateKey = false) {dateKey : String}
    (h : (t.claim claim).paid userId dateKey = true) :
    claim.userId = userId ∧ claim.dateKey = dateKey ∨ t.paid userId dateKey = true := by
  rw [Store.paid, Option.isSome_eq_false_iff, Option.isNone_iff_eq_none] at hfree
  have hget : (t.claim claim).ledger.get (dailyCheckInTransactionId userId dateKey) =
      if claim.row.transactionId = dailyCheckInTransactionId userId dateKey then some claim.row
      else t.ledger.get (dailyCheckInTransactionId userId dateKey) :=
    Mongo.Unique.get_insert hfree _
  by_cases hid : claim.row.transactionId = dailyCheckInTransactionId userId dateKey
  · exact .inl (transactionId_injective hid)
  · right
    rw [Store.paid, hget, if_neg hid] at h
    exact h

theorem states_claim (t : Store) (claim : Claim) (userId : ObjectId) :
    (t.claim claim).states.get userId =
      if claim.userId = userId then some claim.state else t.states.get userId :=
  Mongo.Unique.get_put t.states claim.state userId

theorem nextDayIndex_cycle {n : ℕ} (h : claim.dayIndex = n % 7 + 1) :
    claim.nextDayIndex = (n + 1) % 7 + 1 := by
  unfold Claim.nextDayIndex checkinCycleDays
  split
  · omega
  · omega

theorem dayIndex_of_continues (ht : t.Sound) {w : ClaimWrite} (hold : t.states.get w.userId = w.old)
    {todayKey : String} (hc : w.Continues cfg todayKey claim) :
    claim.dayIndex = t.claimCount claim.userId % 7 + 1 := by
  rw [hc.dayIndex, hc.userId]
  cases hst : w.old with
  | none =>
    rw [hst] at hold
    rw [ht.missing _ hold]
    rfl
  | some st =>
    rw [hst] at hold
    exact ht.next _ st hold

theorem Kept.lastClaimDateKey {t' : Store} (h : Kept t t') (userId : ObjectId) :
    t'.lastClaimDateKey userId = t.lastClaimDateKey userId := by
  rw [Store.lastClaimDateKey, Store.lastClaimDateKey]
  rcases h userId with heq | ⟨hnone, hfresh⟩
  · rw [heq]
  · rw [hnone, hfresh]
    rfl

theorem Store.Sound.kept {t' : Store} (h : t.Sound) (hledger : t'.ledger = t.ledger)
    (hkept : Kept t t') : t'.Sound := by
  have hcount : ∀ userId, t'.claimCount userId = t.claimCount userId := by
    intro userId
    rw [Store.claimCount, hledger, Store.claimCount]
  constructor
  · intro userId hnone
    rw [hcount]
    rcases hkept userId with heq | ⟨hold, -⟩
    · exact h.missing userId (heq.symm.trans hnone)
    · exact h.missing userId hold
  · intro userId st hst
    rw [hcount]
    rcases hkept userId with heq | ⟨hold, hfresh⟩
    · exact h.next userId st (heq.symm.trans hst)
    · obtain rfl := Option.mem_unique hfresh hst
      rw [h.missing userId hold]
      rfl
  · intro userId st hst hpos
    rw [hcount] at hpos ⊢
    rcases hkept userId with heq | ⟨hold, -⟩
    · exact h.last userId st (heq.symm.trans hst) hpos
    · simp [h.missing userId hold] at hpos
  · intro userId dateKey hpaid
    rw [Store.paid, hledger] at hpaid
    rw [hcount, hkept.lastClaimDateKey]
    exact h.dates userId dateKey hpaid

theorem Store.Sound.afterClaim (h : t.Sound) (hfree : t.paid claim.userId claim.dateKey = false)
    (hday : claim.dayIndex = t.claimCount claim.userId % 7 + 1)
    (horder : InOrder t claim.userId claim.dateKey) : (t.claim claim).Sound := by
  have hcount := claimCount_claim hfree
  constructor
  · intro userId hnone
    rw [states_claim] at hnone
    split at hnone
    · cases hnone
    · rename_i hne
      rw [hcount, if_neg hne]
      exact h.missing userId hnone
  · intro userId st hst
    rw [states_claim] at hst
    split at hst
    · rename_i hu
      cases hst
      rw [hcount, if_pos hu, ← hu]
      exact nextDayIndex_cycle hday
    · rename_i hne
      rw [hcount, if_neg hne]
      exact h.next userId st hst
  · intro userId st hst hpos
    rw [states_claim] at hst
    split at hst
    · rename_i hu
      cases hst
      rw [hcount, if_pos hu, ← hu, Nat.add_sub_cancel, ← hday]
      rfl
    · rename_i hne
      rw [hcount, if_neg hne] at hpos ⊢
      exact h.last userId st hst hpos
  · intro userId dateKey hpaid
    have hold := paid_claim hfree hpaid
    rw [hcount, Store.lastClaimDateKey, states_claim]
    by_cases hu : claim.userId = userId
    · subst hu
      rw [if_pos rfl, if_pos rfl]
      refine ⟨Nat.succ_pos _, claim.dateKey, rfl, ?_⟩
      rcases hold with ⟨-, rfl⟩ | hpaid
      · exact le_rfl
      · obtain ⟨-, last, hlast, hle⟩ := h.dates _ dateKey hpaid
        exact hle.trans (horder last hlast)
    · rw [if_neg hu, if_neg hu]
      exact h.dates userId dateKey (hold.resolve_left fun h => hu h.1)

/-! ### What a run pays -/

def claims (log : List (Phase × Event Cmd Reply Store)) : List Claim :=
  log.filterMap fun x => paidBy x.2.cmd x.2.ans x.2.before

def claimsOf (userId : ObjectId) (log : List (Phase × Event Cmd Reply Store)) : List Claim :=
  (claims log).filter fun c => c.userId == userId

def gain (userId : ObjectId) (e : Event Cmd Reply Store) : ℤ :=
  (paidBy e.cmd e.ans e.before).elim (income userId e.cmd e.ans) fun c =>
    if c.userId = userId then c.coins else 0

/-- A payload says that the day is claimed, and marks the claimed days of the cycle, of which there
are `n` claims. -/
structure ShowsClaimed (n : ℕ) (payload : CheckInStatusPayload) : Prop where
  claimedToday : payload.claimedToday = true
  canClaimToday : payload.canClaimToday = false
  grid : ∀ i day, payload.rewards[i]? = some day →
    (day.status = .claimed ↔ i ≤ (n - 1) % 7)

/-- The answer of a request is right about the store that it goes by and about what was paid. -/
structure Truthful (log : List (Phase × Event Cmd Reply Store)) (φ : Phase) (userId : ObjectId)
    (now : ℤ) (payload : CheckInStatusPayload) : Prop where
  claimed : ∃ v, φ.view = some (userId, v) ∧
    (v.paid userId (istDateKey now) = true → ShowsClaimed (v.claimCount userId) payload)
  credited : payload.alreadyClaimed = some false → ∃ c ∈ claimsOf userId log,
    c.dateKey = istDateKey now ∧ payload.coinsCredited = some c.coins ∧
      payload.currentDayIndex = c.dayIndex

theorem exec_coins (hA : Allows cfg φ c) (userId : ObjectId) :
    (c.exec r t).coins userId =
      (t.coins userId).map fun v => v + gain userId ⟨t, c, r, c.exec r t⟩ := by
  cases hpaid : paidBy c r t with
  | none =>
    have hgain : gain userId ⟨t, c, r, c.exec r t⟩ = income userId c r := by
      show (paidBy c r t).elim _ _ = _
      rw [hpaid]
      rfl
    rw [hgain]
    exact (exec_unpaid hA hpaid).coins userId
  | some claim =>
    have hgain : gain userId ⟨t, c, r, c.exec r t⟩ =
        if claim.userId = userId then (claim.coins : ℤ) else 0 := by
      show (paidBy c r t).elim _ _ = _
      rw [hpaid]
      rfl
    obtain ⟨w, -, -, -, hexec⟩ := paidBy_some hpaid
    rw [hgain, hexec]
    exact coins_incCoins claim.userId claim.coins userId

/-! ### Whole runs -/

/-- The view of a request is of a store in which its date, if it is paid, is the last. -/
def Phase.Grounded (φ : Phase) : Prop :=
  ∀ userId v, φ.view = some (userId, v) →
    v.Sound ∧ (v.paid userId φ.todayKey = true → InOrder v userId φ.todayKey)

structure Claiming (cfg : Config) (s : Store) (φs : List Phase)
    (l : List (Phase × Event Cmd Reply Store)) (t : Store) : Prop where
  sound : t.Sound
  rows : t.ledger.rows = s.ledger.rows ++ (claims l).map Claim.row
  cycle : ∀ userId k c, (claimsOf userId l)[k]? = some c →
    c.dayIndex = k % 7 + 1 ∧ cfg.rewards.coins[k % 7]? = some c.coins
  count : ∀ userId, (claimsOf userId l).length = t.claimCount userId
  wallets : ∀ userId, t.coins userId =
    (s.coins userId).map fun v => v + (l.map fun x => gain userId x.2).sum
  forward : ∀ x ∈ l, ∀ userId last, x.2.before.lastClaimDateKey userId = some last →
    ∃ last', x.2.after.lastClaimDateKey userId = some last' ∧ last ≤ last'
  views : ∀ (i : ℕ) φ, φs[i]? = some φ → φ.Grounded
  claimed : ∀ (i : ℕ) φ c, φs[i]? = some φ → φ.claimed = some c → c ∈ claims l
  answers : ∀ x ∈ l, ∀ userId now payload, x.2.cmd = .respond userId now payload →
    Truthful l x.1 userId now payload

variable {φs : List Phase} {l : List (Phase × Event Cmd Reply Store)} {i : ℕ}

theorem claims_snoc (x : Phase × Event Cmd Reply Store) :
    claims (l ++ [x]) = claims l ++ (paidBy x.2.cmd x.2.ans x.2.before).toList := by
  rw [claims, claims, List.filterMap_append]
  congr 1

theorem claimsOf_snoc (userId : ObjectId) (x : Phase × Event Cmd Reply Store) :
    claimsOf userId (l ++ [x]) = claimsOf userId l ++
      (paidBy x.2.cmd x.2.ans x.2.before).toList.filter fun c => c.userId == userId := by
  rw [claimsOf, claims_snoc, List.filter_append]
  rfl

theorem filter_claim (userId : ObjectId) :
    [claim].filter (fun c => c.userId == userId) = if claim.userId = userId then [claim] else [] := by
  by_cases h : claim.userId = userId
  · simp [h]
  · simp [h]

theorem getElem?_snoc_index {xs : List Claim} {a b : Claim} {k : ℕ}
    (h : (xs ++ [a])[k]? = some b) : xs[k]? = some b ∨ k = xs.length ∧ a = b := by
  rw [List.getElem?_append] at h
  split at h
  · exact .inl h
  · rename_i hk
    obtain ⟨hlt, hget⟩ := List.getElem?_eq_some_iff.1 h
    rw [List.length_singleton] at hlt
    rw [List.getElem_singleton] at hget
    refine .inr ⟨?_, hget⟩
    omega

theorem claiming_start (hs : s.Fresh) : Claiming cfg s [] [] s := by
  constructor
  · exact sound_of_fresh hs
  · show s.ledger.rows = s.ledger.rows ++ []
    rw [List.append_nil]
  · intro userId k c hc
    cases hc
  · intro userId
    exact (hs.rows userId).symm
  · intro userId
    exact coins_same rfl rfl userId
  · intro x hx
    cases hx
  · intro i φ hi
    cases hi
  · intro i φ c hi
    cases hi
  · intro x hx
    cases hx

theorem Claiming.spawn (h : Claiming cfg s φs l t) (q : Request) :
    Claiming cfg s (φs ++ [Phase.start q]) l t := by
  have hview : (Phase.start q).view = none ∧ (Phase.start q).claimed = none := by
    cases q <;> exact ⟨rfl, rfl⟩
  refine { h with views := ?_, claimed := ?_ }
  · intro i φ hi
    rcases getElem?_snoc_cases hi with hi | rfl
    · exact h.views i φ hi
    · intro userId v hv
      simp [hview.1] at hv
  · intro i φ c hi hc
    rcases getElem?_snoc_cases hi with hi | rfl
    · exact h.claimed i φ c hi hc
    · simp [hview.2] at hc

theorem committed_exec {w : ClaimWrite} (h : committed c r t = some w) :
    c = .commit (some w) ∧ c.exec r t = w.exec t := by
  unfold committed at h
  split at h
  · split at h
    · rename_i happlied
      cases h
      rw [Bool.and_eq_true, Bool.not_eq_true'] at happlied
      refine ⟨rfl, ?_⟩
      show (if r.delivered = false then t else if _ = true then t else ClaimWrite.exec _ t) = _
      rw [happlied.1, happlied.2]
      rfl
    · cases h
  · cases h

theorem claimed_next (h : (φ.next c r t).claimed = some claim) :
    φ.claimed = some claim ∨ paidBy c r t = some claim := by
  cases c with
  | commit w =>
    grind [Phase.next, paidBy]
  | findState userId =>
    have h : (if r.delivered = true then φ.see userId t else φ).claimed = some claim := h
    split at h <;> exact .inl h
  | snapshot userId =>
    have h : (if r.delivered = true then φ.see userId t else φ).claimed = some claim := h
    split at h <;> exact .inl h
  | _ => exact .inl h

theorem Phase.Grounded.next (h : φ.Grounded) (ht : t.Sound) (ht' : (c.exec r t).Sound)
    (hA : Allows cfg φ c) (hG : Timely (φ, ⟨t, c, r, c.exec r t⟩)) : (φ.next c r t).Grounded := by
  have hread : ∀ userId, userId ∈ c.reads →
      (if r.delivered = true then φ.see userId t else φ).Grounded := by
    intro userId hreads
    split
    · intro u v hv
      cases hv
      exact ⟨ht, hG.2 _ hreads⟩
    · exact h
  cases c with
  | findState userId => exact hread userId rfl
  | snapshot userId => exact hread userId rfl
  | commit w =>
    rw [Phase.next]
    cases hcommitted : committed (.commit w) r t with
    | none => exact h
    | some w =>
      obtain ⟨hw, hexec⟩ := committed_exec hcommitted
      obtain rfl := Cmd.commit.inj hw
      rw [hexec] at ht'
      intro u v hv
      cases hv
      refine ⟨ht', fun _ last hlast => ?_⟩
      show last ≤ φ.todayKey
      cases hclaim : w.claim with
      | none =>
        have hkey : (DailyCheckInState.fresh w.userId).userId = w.userId := rfl
        rw [Store.lastClaimDateKey, ClaimWrite.exec, hclaim] at hlast
        rw [Mongo.Unique.get_put, if_pos hkey] at hlast
        cases hlast
      | some c =>
        have hc := hA.2 c hclaim
        rw [Store.lastClaimDateKey, ClaimWrite.exec, hclaim] at hlast
        rw [states_claim, if_pos hc.userId] at hlast
        have hlast : some c.dateKey = some last := hlast
        rw [← Option.some.inj hlast, hc.dateKey]
  | _ => exact h

theorem Phase.Answers.shows_claimed {now : ℤ} {payload : CheckInStatusPayload}
    (h : φ.Answers cfg userId now payload) (hφ : φ.Grounded) :
    ∃ v, φ.view = some (userId, v) ∧
      (v.paid userId (istDateKey now) = true → ShowsClaimed (v.claimCount userId) payload) := by
  obtain ⟨v, st, coins, extras, hview, hst, rfl, -⟩ := h.shows
  obtain ⟨hsound, horder⟩ := hφ userId v hview
  rw [h.todayKey] at horder
  refine ⟨v, hview, fun hpaid => ?_⟩
  obtain ⟨hpos, last, hlast, hle⟩ := hsound.dates userId _ hpaid
  have hlastKey : last = istDateKey now := le_antisymm (horder hpaid last hlast) hle
  rw [Store.lastClaimDateKey, Option.bind_eq_some_iff] at hlast
  obtain ⟨st', hst', hdate⟩ := hlast
  obtain rfl := hst st' hst'
  rw [hlastKey] at hdate
  have hday := hsound.last userId st' hst' hpos
  constructor
  · exact decide_eq_true hdate
  · show (!decide (st'.lastClaimDateKey = some (istDateKey now))) = false
    rw [decide_eq_true hdate]
    rfl
  · intro i day hi
    rw [(toStatusPayload_grid cfg.rewards coins extras hdate hday hi).2.2]
    omega

theorem wallets_snoc (hA : Allows cfg φ c)
    (h : t.coins userId = (s.coins userId).map fun v => v + (l.map fun x => gain userId x.2).sum)
    {x : Phase × Event Cmd Reply Store} (hx : x.2 = ⟨t, c, r, c.exec r t⟩) :
    (c.exec r t).coins userId =
      (s.coins userId).map fun v => v + ((l ++ [x]).map fun x => gain userId x.2).sum := by
  rw [exec_coins hA, h, Option.map_map, List.map_append, List.sum_append, List.map_singleton,
    List.sum_singleton, hx]
  congr 1
  funext v
  show v + _ + _ = v + (_ + _)
  rw [add_assoc]

theorem Truthful.mono {now : ℤ} {payload : CheckInStatusPayload}
    (h : Truthful l φ userId now payload) (x : Phase × Event Cmd Reply Store) :
    Truthful (l ++ [x]) φ userId now payload := by
  refine ⟨h.claimed, fun hpaid => ?_⟩
  obtain ⟨c, hc, hrest⟩ := h.credited hpaid
  refine ⟨c, ?_, hrest⟩
  rw [claimsOf_snoc]
  exact List.mem_append_left _ hc

/-- **One command of a run.** -/
theorem Claiming.step (h : Claiming cfg s φs l t) (hi : φs[i]? = some φ) (hA : Allows cfg φ c)
    (hG : Timely (φ, ⟨t, c, r, c.exec r t⟩)) :
    Claiming cfg s (φs.set i (φ.next c r t)) (l ++ [(φ, ⟨t, c, r, c.exec r t⟩)]) (c.exec r t) := by
  have hφ := h.views i φ hi
  have hwallets := fun userId =>
    wallets_snoc hA (h.wallets userId) (x := (φ, ⟨t, c, r, c.exec r t⟩)) rfl
  have hanswers : ∀ x ∈ l ++ [(φ, ⟨t, c, r, c.exec r t⟩)], ∀ userId now payload,
      x.2.cmd = .respond userId now payload →
        Truthful (l ++ [(φ, ⟨t, c, r, c.exec r t⟩)]) x.1 userId now payload := by
    intro x hx userId now payload hcmd
    rcases mem_snoc.1 hx with hx | rfl
    · exact (h.answers x hx userId now payload hcmd).mono _
    · obtain rfl : c = .respond userId now payload := hcmd
      have hA : φ.Answers cfg userId now payload := hA
      refine ⟨hA.shows_claimed hφ, fun hpaid => ?_⟩
      obtain ⟨v, st, coins, extras, hview, hst, rfl, hcredited⟩ := hA.shows
      obtain ⟨claim, hclaim, huser, hdate, hcoins, rfl⟩ := hcredited hpaid
      have hmem : claim ∈ claimsOf userId l :=
        List.mem_filter.2 ⟨h.claimed i φ claim hi hclaim, beq_iff_eq.2 huser⟩
      refine ⟨claim, ?_, hdate, hcoins, ?_⟩
      · rw [claimsOf_snoc]
        exact List.mem_append_left _ hmem
      · have hlast : claim.state.lastClaimDateKey = some (istDateKey now) := congrArg some hdate
        show claim.state.currentDayIndex (istDateKey now) = claim.dayIndex
        rw [DailyCheckInState.currentDayIndex, if_pos hlast]
        rfl
  have hkept : ∀ c', c' ∈ claims l → c' ∈ claims (l ++ [(φ, ⟨t, c, r, c.exec r t⟩)]) := by
    intro c' hc'
    rw [claims_snoc]
    exact List.mem_append_left _ hc'
  have hclaimed : ∀ (j : ℕ) φ' c', (φs.set i (φ.next c r t))[j]? = some φ' → φ'.claimed = some c' →
      c' ∈ claims (l ++ [(φ, ⟨t, c, r, c.exec r t⟩)]) := by
    intro j φ' c' hj hc'
    rcases getElem?_set_cases hj with ⟨-, rfl⟩ | ⟨-, hj⟩
    · rcases claimed_next hc' with hc' | hpaid
      · exact hkept c' (h.claimed i φ c' hi hc')
      · rw [claims_snoc]
        apply List.mem_append_right
        show c' ∈ (paidBy c r t).toList
        simp [hpaid]
    · exact hkept c' (h.claimed j φ' c' hj hc')
  cases hpaid : paidBy c r t with
  | none =>
    have hunpaid := exec_unpaid hA hpaid
    have hsound := h.sound.kept hunpaid.ledger hunpaid.kept
    have hclaims : claims (l ++ [(φ, ⟨t, c, r, c.exec r t⟩)]) = claims l := by
      simp [claims_snoc, hpaid]
    have hclaimsOf : ∀ userId, claimsOf userId (l ++ [(φ, ⟨t, c, r, c.exec r t⟩)]) =
        claimsOf userId l := by
      intro userId
      rw [claimsOf, hclaims]
      rfl
    refine ⟨hsound, ?_, ?_, ?_, hwallets, ?_, ?_, hclaimed, hanswers⟩
    · rw [hclaims, hunpaid.ledger]
      exact h.rows
    · intro userId k c' hc'
      rw [hclaimsOf] at hc'
      exact h.cycle userId k c' hc'
    · intro userId
      rw [hclaimsOf, h.count, Store.claimCount, ← hunpaid.ledger]
      rfl
    · apply forall_snoc h.forward
      intro userId last hlast
      exact ⟨last, (hunpaid.kept.lastClaimDateKey userId).trans hlast, le_rfl⟩
    · intro j φ' hj
      rcases getElem?_set_cases hj with ⟨-, rfl⟩ | ⟨-, hj⟩
      · exact hφ.next h.sound hsound hA hG
      · exact h.views j φ' hj
  | some claim =>
    obtain ⟨w, rfl, hclaim, hconflicts, hexec⟩ := paidBy_some hpaid
    have hcontinues := hA.2 claim hclaim
    obtain ⟨hold, hfree⟩ := conflicts_eq_false hconflicts
    have hfree := (hfree claim hclaim).2
    rw [← hcontinues.userId] at hfree
    have hday := dayIndex_of_continues h.sound hold hcontinues
    have horder := hG.1 claim hpaid
    have hsound := h.sound.afterClaim hfree hday horder
    rw [← hexec] at hsound
    have hcount := claimCount_claim hfree
    have hclaimsOf : ∀ userId, claimsOf userId
        (l ++ [(φ, ⟨t, .commit (some w), r, Cmd.exec (.commit (some w)) r t⟩)]) =
          claimsOf userId l ++ [claim].filter fun c => c.userId == userId := by
      intro userId
      rw [claimsOf_snoc, hpaid]
      rfl
    refine ⟨hsound, ?_, ?_, ?_, hwallets, ?_, ?_, hclaimed, hanswers⟩
    · rw [claims_snoc, hpaid, hexec, List.map_append, ← List.append_assoc, ← h.rows]
      rw [Store.paid, Option.isSome_eq_false_iff, Option.isNone_iff_eq_none] at hfree
      exact Mongo.Unique.insert_rows hfree
    · intro userId k c' hc'
      rw [hclaimsOf] at hc'
      rw [filter_claim] at hc'
      by_cases hu : claim.userId = userId
      · rw [if_pos hu] at hc'
        rcases getElem?_snoc_index hc' with hc' | ⟨hk, rfl⟩
        · exact h.cycle userId k c' hc'
        · have hk : k = t.claimCount claim.userId := by
            rw [hk, hu]
            exact h.count userId
          have hcoins := hcontinues.coins
          rw [hday, reward_of_cycle] at hcoins
          rw [hk]
          exact ⟨hday, hcoins⟩
      · rw [if_neg hu, List.append_nil] at hc'
        exact h.cycle userId k c' hc'
    · intro userId
      rw [hclaimsOf, hexec, hcount, List.length_append, h.count, filter_claim]
      congr 1
      split
      · rfl
      · rfl
    · apply forall_snoc h.forward
      intro userId last hlast
      have hlast : t.lastClaimDateKey userId = some last := hlast
      show ∃ last', (Cmd.exec (.commit (some w)) r t).lastClaimDateKey userId = some last' ∧ _
      rw [hexec, Store.lastClaimDateKey, states_claim]
      by_cases hu : claim.userId = userId
      · rw [if_pos hu]
        rw [← hu] at hlast
        exact ⟨claim.dateKey, rfl, horder last hlast⟩
      · rw [if_neg hu]
        exact ⟨last, hlast, le_rfl⟩
    · intro j φ' hj
      rcases getElem?_set_cases hj with ⟨-, rfl⟩ | ⟨-, hj⟩
      · exact hφ.next h.sound hsound hA hG
      · exact h.views j φ' hj

def checkinRun (cfg : Config) (s : Store) (ms : List (Move Request Reply)) :
    Pool Cmd Reply Store :=
  (start s).play Cmd.exec (program cfg) ms

def watchedCheckin (cfg : Config) (s : Store) (ms : List (Move Request Reply)) :
    Watched Phase Cmd Reply Store :=
  (Watched.start s).play Phase.next Phase.start Cmd.exec (program cfg) ms

/-- The claims of a run go round the cycle, at most one for a date, each with its row and its coins;
the stored date does not go back, and the answers are right. -/
structure CheckedIn (cfg : Config) (s : Store) (ms : List (Move Request Reply)) : Prop where
  cycle : ∀ userId k c, (claimsOf userId (watchedCheckin cfg s ms).log)[k]? = some c →
    c.dayIndex = k % 7 + 1 ∧ cfg.rewards.coins[k % 7]? = some c.coins
  once : ∀ userId dateKey, (claims (watchedCheckin cfg s ms).log).countP
    (fun c => c.userId == userId && c.dateKey == dateKey) ≤ 1
  rows : (checkinRun cfg s ms).store.ledger.rows =
    s.ledger.rows ++ (claims (watchedCheckin cfg s ms).log).map Claim.row
  wallets : ∀ userId, (checkinRun cfg s ms).store.coins userId = (s.coins userId).map fun v =>
    v + ((watchedCheckin cfg s ms).log.map fun x => gain userId x.2).sum
  forward : ∀ x ∈ (watchedCheckin cfg s ms).log, ∀ userId last,
    x.2.before.lastClaimDateKey userId = some last →
      ∃ last', x.2.after.lastClaimDateKey userId = some last' ∧ last ≤ last'
  answers : ∀ x ∈ (watchedCheckin cfg s ms).log, ∀ userId now payload,
    x.2.cmd = .respond userId now payload →
      Truthful (watchedCheckin cfg s ms).log x.1 userId now payload

theorem countP_le_one_of_rows {cs : List Claim} {rows : List CoinTransaction}
    (hrows : t.ledger.rows = rows ++ cs.map Claim.row) (userId : ObjectId) (dateKey : String) :
    cs.countP (fun c => c.userId == userId && c.dateKey == dateKey) ≤ 1 := by
  have hone := t.ledger.countP_le_one (dailyCheckInTransactionId userId dateKey)
  rw [hrows, List.countP_append, List.countP_map] at hone
  have hle : cs.countP (fun c => c.userId == userId && c.dateKey == dateKey) ≤
      cs.countP ((fun d : CoinTransaction =>
        d.transactionId == dailyCheckInTransactionId userId dateKey) ∘ Claim.row) := by
    apply List.countP_mono_left
    intro c _ hc
    rw [Bool.and_eq_true, beq_iff_eq, beq_iff_eq] at hc
    show (dailyCheckInTransactionId c.userId c.dateKey ==
      dailyCheckInTransactionId userId dateKey) = true
    rw [hc.1, hc.2]
    exact beq_self_eq_true _
  omega

/-- **One check-in a day.**  In every run in which no request comes too late for its own date. -/
theorem checkedIn_run (cfg : Config) (s : Store) (hs : s.Fresh) (ms : List (Move Request Reply))
    (hG : ∀ x ∈ (watchedCheckin cfg s ms).log, Timely x) : CheckedIn cfg s ms := by
  obtain ⟨-, -, hJ⟩ := Watched.play_phased (Claiming cfg s) Timely (program_follows cfg)
    (claiming_start hs) (fun φs l t q h => h.spawn q)
    (fun φs l t i φ c r h hi hA hG => h.step hi hA hG) ms hG
  have hpool : (watchedCheckin cfg s ms).pool = checkinRun cfg s ms := by
    rw [watchedCheckin, Watched.play_pool]
    rfl
  have hJ : Claiming cfg s (watchedCheckin cfg s ms).phases (watchedCheckin cfg s ms).log
      (watchedCheckin cfg s ms).pool.store := hJ
  rw [hpool] at hJ
  exact ⟨hJ.cycle, countP_le_one_of_rows hJ.rows, hJ.rows, hJ.wallets, hJ.forward, hJ.answers⟩

def sampleUser : ObjectId := ⟨"507f1f77bcf86cd799439011", by decide +kernel⟩

def sampleStore : Store := ⟨[⟨sampleUser, "f", "user", 0⟩], .empty, .empty⟩

def sampleConfig : Config := ⟨true, defaultRewards⟩

theorem sampleStore_fresh : sampleStore.Fresh :=
  ⟨rfl, fun _ => rfl, fun _ _ => rfl⟩

/-- The last instant of a day, and the first of the next. -/
def beforeMidnight : ℤ := 1785608999999

def afterMidnight : ℤ := 1785609000000

def answered : Reply := ⟨true, true, false⟩

def twoDays : List (Move Request Reply) :=
  [Move.spawn (Request.claim "f" beforeMidnight 1)] ++ List.replicate 4 (Move.step 0 answered) ++
    [Move.spawn (Request.claim "f" beforeMidnight 1)] ++ List.replicate 4 (Move.step 1 answered) ++
    [Move.spawn (Request.status "f" beforeMidnight)] ++ List.replicate 3 (Move.step 2 answered) ++
    [Move.spawn (Request.claim "f" afterMidnight 1)] ++ List.replicate 4 (Move.step 3 answered)

theorem checkedIn_twoDays : CheckedIn sampleConfig sampleStore twoDays := by
  apply checkedIn_run
  · exact sampleStore_fresh
  · decide +kernel

/-- A claim of the next day commits before one of the day that ends, and a status follows. -/
def acrossMidnight : List (Move Request Reply) :=
  [Move.spawn (Request.claim "f" beforeMidnight 1),
    Move.spawn (Request.claim "f" afterMidnight 1)] ++
    List.replicate 4 (Move.step 1 answered) ++ List.replicate 4 (Move.step 0 answered) ++
    [Move.spawn (Request.status "f" afterMidnight)] ++ List.replicate 3 (Move.step 2 answered)

theorem date_goes_back :
    (checkinRun sampleConfig sampleStore (acrossMidnight.take 6)).store.lastClaimDateKey sampleUser =
        some "2026-08-02" ∧
      (checkinRun sampleConfig sampleStore acrossMidnight).store.lastClaimDateKey sampleUser =
        some "2026-08-01" ∧
      (checkinRun sampleConfig sampleStore acrossMidnight).store.paid sampleUser "2026-08-02" = true ∧
      ((checkinRun sampleConfig sampleStore acrossMidnight).log.getLast?.map fun e => match e.cmd with
        | .respond _ now payload => (istDateKey now, payload.claimedToday)
        | _ => ("", true)) = some ("2026-08-02", false) := by
  decide +kernel

end VibemeetBackend.Checkin
