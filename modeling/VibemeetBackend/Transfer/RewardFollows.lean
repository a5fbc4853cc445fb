import VibemeetBackend.Async.Trace
import VibemeetBackend.Transfer.Moved

/-!
# A moved reward follows the creator

Histories of calls for one creator whose referral reward was granted.
-/

namespace VibemeetBackend.Transfer

open Async Ledger Mongo
open Referral (isAgencyRole)
open Billing (trim)

/-! ### Calls -/

/-- The documents after a call. -/
def transferred (cfg : Config) (s : Store) (req : Request) : Store :=
  (transferCreatorToAgency cfg req s).2

def refusal (cfg : Config) (req : Request) (s : Store) : Option Refusal :=
  match checkTransfer cfg req s with
  | .error (.returned r) => some r
  | .error (.thrown _) => none
  | .ok k =>
    match req.failure with
    | some _ => none
    | none =>
      match movingFrom cfg req k s with
      | .error r => some r
      | .ok _ => none

def Admitted.BetweenAgencies (k : Admitted) (s : Store) : Prop :=
  (∃ agency ∈ k.creator.assignedAgencyId, agency ≠ k.target.id) ∨
    ∃ old ∈ k.oldReferrer, s.isAgency old = true

def Follows (reward : ℕ) (k : Admitted) (t : Store) : Prop :=
  ∃ agency ∈ (t.creators.get k.creator.id).bind (·.assignedAgencyId),
    RestsWith reward k.user.id agency t.rows

structure TransferKept (cfg : Config) (reward : ℕ) (s : Store) (req : Request) : Prop where
  sum : (transferred cfg s req).agencyCoins = s.agencyCoins
  wallets : WalletsKept s.coins s.rows (transferred cfg s req).coins (transferred cfg s req).rows
  follows : ∀ k data, checkTransfer cfg req s = .ok k →
    (transferCreatorToAgency cfg req s).1 = .ok (.ok data) → k.BetweenAgencies s →
    Follows reward k (transferred cfg s req)
  refused : ∀ r ∈ refusal cfg req s, transferCreatorToAgency cfg req s = (.ok (.error r), s)

/-- A previous referrer exists, and pays the reward when it is an agency. -/
def Covered (cfg : Config) (k : Admitted) (s : Store) : Prop :=
  ∀ old ∈ k.oldReferrer, ∃ u ∈ s.users.get old,
    isAgencyRole u.role = true → cfg.getReferralRewardCoins ≤ u.coins

/-- Between agencies, the reward is with the referrer.  Another referrer is an agency, the pair has
not written its rows before, and the reward has the amount that is configured now. -/
def Movable (cfg : Config) (reward : ℕ) (req : Request) (k : Admitted) (s : Store) : Prop :=
  (∃ old ∈ k.user.referredBy, RestsWith reward k.user.id old s.rows) ∧
    ∀ old ∈ k.oldReferrer, s.isAgency old = true ∧
      unwritten req s k.user.id old k.target.id = true ∧ reward = cfg.getReferralRewardCoins

def Sound (cfg : Config) (reward : ℕ) (s : Store) (req : Request) : Prop :=
  req.failure = none → ∀ k, checkTransfer cfg req s = .ok k →
    Covered cfg k s ∧ (k.BetweenAgencies s → Movable cfg reward req k s)

instance (cfg : Config) (k : Admitted) (s : Store) : Decidable (Covered cfg k s) := by
  unfold Covered
  infer_instance

instance (cfg : Config) (reward : ℕ) (req : Request) (k : Admitted) (s : Store) :
    Decidable (Movable cfg reward req k s) := by
  unfold Movable
  infer_instance

instance (k : Admitted) (s : Store) : Decidable (k.BetweenAgencies s) := by
  unfold Admitted.BetweenAgencies
  infer_instance

instance (cfg : Config) (reward : ℕ) (s : Store) (req : Request) :
    Decidable (Sound cfg reward s req) :=
  match h : checkTransfer cfg req s with
  | .error _ => isTrue fun _ k hk => by rw [h] at hk; cases hk
  | .ok k => decidable_of_iff
      (req.failure = none → Covered cfg k s ∧ (k.BetweenAgencies s → Movable cfg reward req k s)) <| by
      constructor
      · intro hsound hfailure k' hk'
        obtain rfl := Except.ok.inj (h.symm.trans hk')
        exact hsound hfailure
      · exact fun hsound hfailure => hsound hfailure k h

/-! ### What the checks say -/

section checks

variable {cfg : Config} {req : Request} {k : Admitted} {s : Store} {old : String}

theorem ok_of_require {α β : Type} {a : Option α} {status : ℕ} {error : String}
    {f : α → Except Stop β} {b : β} (h : require a status error >>= f = .ok b) :
    ∃ a', a = some a' ∧ f a' = .ok b := by
  cases a with
  | none => cases h
  | some a => exact ⟨a, rfl, h⟩

theorem findAgency_spec {id : String} {u : User} (h : findAgency s id = some u) :
    s.users.get id = some u ∧ isAgencyRole u.role = true := by
  obtain ⟨hu, hagency⟩ := Option.filter_eq_some_iff.1 h
  rw [Bool.and_eq_true] at hagency
  exact ⟨hu, hagency.1⟩

structure Read (cfg : Config) (req : Request) (k : Admitted) (s : Store) : Prop where
  creatorId : cfg.objectId (trim req.creatorIdRaw) = some k.creator.id
  creator : s.creators.get k.creator.id = some k.creator
  userId : k.creator.userId = some k.user.id
  user : s.users.get k.user.id = some k.user
  target : s.users.get k.target.id = some k.target
  agency : isAgencyRole k.target.role = true
  edge : k.edge = s.edges.get k.user.id

theorem checkTransfer_read (h : checkTransfer cfg req s = .ok k) : Read cfg req k s := by
  obtain ⟨creatorId, hcreatorId, h⟩ := ok_of_require h
  obtain ⟨targetAgencyId, -, h⟩ := ok_of_require h
  cases hfrom : effectiveFrom req with
  | error e =>
    rw [hfrom] at h
    cases h
  | ok from' =>
    rw [hfrom] at h
    obtain ⟨creator, hcreator, h⟩ := ok_of_require h
    obtain ⟨creatorUserId, huserId, h⟩ := ok_of_require h
    obtain ⟨target, htarget, h⟩ := ok_of_require h
    obtain ⟨-, -, h⟩ := ok_of_require h
    obtain ⟨user, huser, h⟩ := ok_of_require h
    cases h
    obtain ⟨hfound, hagency⟩ := findAgency_spec htarget
    have hcreatorKey := (Unique.mem_of_get hcreator).2
    have huserKey := (Unique.mem_of_get huser).2
    have htargetKey := (Unique.mem_of_get hfound).2
    subst hcreatorKey huserKey htargetKey
    exact ⟨hcreatorId, hcreator, huserId, huser, hfound, hagency, rfl⟩

theorem movingFrom_cases (cfg : Config) (s : Store) (hmove : req.moveGrantedReferralRewards = true)
    (hgranted : k.rewardGranted = true) :
    (∃ r, movingFrom cfg req k s = .error r) ∧ ¬Covered cfg k s ∨
    (∃ moved, movingFrom cfg req k s = .ok moved ∧
      ∀ old, moved = some old ↔ k.oldReferrer = some old ∧ s.isAgency old = true ∧
        unwritten req s k.user.id old k.target.id = true) ∧ Covered cfg k s := by
  have hfrom : movesFrom req k = k.oldReferrer := by
    simp [movesFrom, hmove, hgranted]
  unfold movingFrom Covered
  rw [hfrom]
  cases hold : k.oldReferrer with
  | none =>
    refine .inr ⟨⟨none, rfl, ?_⟩, fun old hmem => nomatch hmem⟩
    intro old
    constructor
    · intro h
      cases h
    · intro h
      cases h.1
  | some old =>
    dsimp only
    unfold rewardMoveEligible
    cases hu : s.users.get old with
    | none =>
      refine .inl ⟨⟨_, rfl⟩, ?_⟩
      intro h
      obtain ⟨u, hmem, -⟩ := h old rfl
      simp [hu] at hmem
    | some u =>
      have hagency : s.isAgency old = isAgencyRole u.role := by
        simp [Store.isAgency, hu]
      dsimp only
      split
      · rename_i hrole
        split
        · rename_i hless
          refine .inl ⟨⟨_, rfl⟩, ?_⟩
          intro h
          obtain ⟨u', hmem, hcovered⟩ := h old rfl
          rw [hu] at hmem
          cases hmem
          have hle := hcovered hrole
          omega
        · rename_i hless
          refine .inr ⟨⟨_, rfl, ?_⟩, ?_⟩
          · intro old'
            rw [Bool.true_and]
            by_cases hnew : unwritten req s k.user.id old k.target.id = true
            · rw [if_pos hnew]
              constructor
              · intro h
                cases h
                exact ⟨rfl, hagency.trans hrole, hnew⟩
              · exact fun h => h.1
            · rw [if_neg hnew]
              constructor
              · intro h
                cases h
              · rintro ⟨h, -, hnew'⟩
                cases h
                exact absurd hnew' hnew
          · intro old' hmem
            cases hmem
            exact ⟨u, hu, fun _ => not_lt.1 hless⟩
      · rename_i hrole
        refine .inr ⟨⟨none, rfl, ?_⟩, ?_⟩
        · intro old'
          constructor
          · intro h
            cases h
          · rintro ⟨h, hagency', -⟩
            cases h
            exact absurd (hagency.symm.trans hagency') hrole
        · intro old' hmem
          cases hmem
          exact ⟨u, hu, fun h => absurd h hrole⟩

theorem oldReferrer_spec :
    k.oldReferrer = some old ↔ k.user.referredBy = some old ∧ old ≠ k.target.id := by
  unfold Admitted.oldReferrer
  simp

theorem payable_of_moved (hread : Read cfg req k s) (hcovered : Covered cfg k s)
    (hold : k.oldReferrer = some old) (hagency : s.isAgency old = true) : Payable cfg k s old := by
  obtain ⟨u, hu, hcoins⟩ := hcovered old hold
  have hrole : isAgencyRole u.role = true := by
    simpa [Store.isAgency, Option.mem_def.1 hu] using hagency
  exact ⟨(oldReferrer_spec.1 hold).2, ⟨u, hu, hrole, hcoins hrole⟩, ⟨k.target, hread.target,
    hread.agency⟩⟩

end checks

/-! ### One call -/

structure Granted (reward : ℕ) (creatorId userId : String) (s : Store) : Prop where
  linked : ∃ c ∈ s.creators.get creatorId, c.userId = some userId
  edge : ∃ e ∈ s.edges.get userId, e.rewardGranted = true
  held : ∃ old ∈ (s.users.get userId).bind (·.referredBy), ∃ holder,
    RestsWith reward userId holder s.rows ∧ (holder = old ∨ s.isAgency holder = false)

structure MovesFor (cfg : Config) (creatorId : String) (req : Request) : Prop where
  creator : ∀ id ∈ cfg.objectId (trim req.creatorIdRaw), id = creatorId
  moves : req.moveGrantedReferralRewards = true

section call

variable {cfg : Config} {req : Request} {k : Admitted} {s : Store} {reward : ℕ}
  {creatorId userId : String}

theorem transferKept_same (result : Except String TransferCreatorToAgencyResult)
    (h : transferCreatorToAgency cfg req s = (result, s)) (hresult : ∀ data, result ≠ .ok (.ok data))
    (hrefused : ∀ r ∈ refusal cfg req s, result = .ok (.error r)) : TransferKept cfg reward s req := by
  have hsame : transferred cfg s req = s := by
    unfold transferred
    rw [h]
  refine ⟨?_, ?_, ?_, ?_⟩
  · rw [hsame]
  · rw [hsame]
    exact walletsKept_of_books fun _ => rfl
  · intro k data _ hdata
    rw [h] at hdata
    exact absurd hdata (hresult data)
  · intro r hr
    rw [h, hrefused r hr]

theorem Read.granted (hread : Read cfg req k s) (h : Granted reward creatorId userId s)
    (hreq : MovesFor cfg creatorId req) :
    k.creator.id = creatorId ∧ k.user.id = userId ∧ k.rewardGranted = true ∧
      ∃ old, k.user.referredBy = some old ∧ ∃ holder,
        RestsWith reward k.user.id holder s.rows ∧ (holder = old ∨ s.isAgency holder = false) := by
  have hcreator := hreq.creator _ hread.creatorId
  obtain ⟨c, hc, huserId⟩ := h.linked
  obtain ⟨e, he, hgranted⟩ := h.edge
  obtain ⟨old, hold, hheld⟩ := h.held
  have hsame : k.creator = c := by
    have hget := hread.creator
    rw [hcreator] at hget
    exact Option.mem_unique hget hc
  have huser : k.user.id = userId := by
    have hid := hread.userId
    rw [hsame, huserId] at hid
    exact (Option.some.inj hid).symm
  subst huser
  refine ⟨hcreator, rfl, ?_, old, ?_, hheld⟩
  · unfold Admitted.rewardGranted
    rw [hread.edge, he]
    exact hgranted
  · rw [hread.user] at hold
    exact hold

theorem follows_write (hread : Read cfg req k s) (moved : Option String) :
    Follows reward k (write cfg req k moved s) ↔
      RestsWith reward k.user.id k.target.id (write cfg req k moved s).rows := by
  have hassigned : ((write cfg req k moved s).creators.get k.creator.id).bind
      (·.assignedAgencyId) = some k.target.id := by
    rw [creators_write, Unique.get_update (Creator.assign_id _), if_pos rfl, hread.creator]
    rfl
  unfold Follows
  rw [hassigned]
  simp

/-- **Between agencies.** -/
theorem follows_iff (hread : Read cfg req k s) (hreward : 0 < reward) {old : String}
    (hold : k.user.referredBy = some old) {holder : String}
    (hrests : RestsWith reward k.user.id holder s.rows)
    (hholder : holder = old ∨ s.isAgency holder = false) {moved : Option String}
    (hmoved : ∀ old, moved = some old ↔ k.oldReferrer = some old ∧ s.isAgency old = true ∧
      unwritten req s k.user.id old k.target.id = true) :
    Follows reward k (write cfg req k moved s) ↔ Movable cfg reward req k s := by
  have htarget : s.isAgency k.target.id = true := by
    unfold Store.isAgency
    rw [hread.target]
    exact hread.agency
  rw [follows_write hread, rows_write]
  unfold Movable
  rw [hold]
  by_cases hsame : old = k.target.id
  · -- the reward is there already, or with no agency
    have hnone : k.oldReferrer = none := by
      cases hreferrer : k.oldReferrer with
      | none => rfl
      | some old' =>
        obtain ⟨hold', hne⟩ := oldReferrer_spec.1 hreferrer
        obtain rfl := Option.mem_unique hold hold'
        exact absurd hsame hne
    have hstays : moved = none := by
      cases moved with
      | none => rfl
      | some old' =>
        have hreferrer := ((hmoved old').1 rfl).1
        simp [hnone] at hreferrer
    rw [hnone, hstays]
    simp [hsame]
  · have hreferrer : k.oldReferrer = some old := oldReferrer_spec.2 ⟨hold, hsame⟩
    rw [hreferrer]
    cases moved with
    | some old' =>
      obtain ⟨hold', hagency, hnew⟩ := (hmoved old').1 rfl
      obtain rfl := Option.mem_unique hreferrer hold'
      rw [restsWith_moved hsame hrests]
      simp [hagency, hnew]
    | none =>
      rw [List.append_nil]
      apply iff_of_false
      · intro hthere
        obtain rfl := hrests.unique hreward hthere
        obtain rfl | hnone := hholder
        · exact hsame rfl
        · simp [htarget] at hnone
      · rintro ⟨-, hmovable⟩
        obtain ⟨hagency, hnew, -⟩ := hmovable old rfl
        cases (hmoved old).2 ⟨hreferrer, hagency, hnew⟩

/-- **One call** keeps it exactly when it is sound. -/
theorem transferKept_iff (h : Granted reward creatorId userId s)
    (hreq : MovesFor cfg creatorId req) (hreward : 0 < reward) :
    TransferKept cfg reward s req ↔ Sound cfg reward s req := by
  cases hchecked : checkTransfer cfg req s with
  | error stop =>
    apply iff_of_true
    · cases stop with
      | returned r =>
        apply transferKept_same (.ok (.error r))
        · unfold transferCreatorToAgency
          rw [hchecked]
        · intro data hdata
          cases hdata
        · intro r' hr'
          unfold refusal at hr'
          rw [hchecked] at hr'
          cases hr'
          rfl
      | thrown error =>
        apply transferKept_same (.error error)
        · unfold transferCreatorToAgency
          rw [hchecked]
        · intro data hdata
          cases hdata
        · intro r' hr'
          unfold refusal at hr'
          simp [hchecked] at hr'
    · intro _ k hk
      simp [hchecked] at hk
  | ok k =>
    have hread := checkTransfer_read hchecked
    obtain ⟨-, -, hgranted, old, hold, holder, hrests, hholder⟩ := hread.granted h hreq
    cases hfailure : req.failure with
    | some error =>
      apply iff_of_true
      · apply transferKept_same (.error error)
        · unfold transferCreatorToAgency
          rw [hchecked, hfailure]
        · intro data hdata
          cases hdata
        · intro r' hr'
          unfold refusal at hr'
          simp [hchecked, hfailure] at hr'
      · intro hnone
        simp [hfailure] at hnone
    | none =>
      obtain ⟨⟨r, hmoving⟩, huncovered⟩ | ⟨⟨moved, hmoving, hmoved⟩, hcovered⟩ :=
        movingFrom_cases cfg s hreq.moves hgranted
      · -- the refusal is lost
        apply iff_of_false
        · intro hkept
          have hrefusal : refusal cfg req s = some r := by
            simp [refusal, hchecked, hfailure, hmoving]
          have hlost := hkept.refused r hrefusal
          simp_all [transferCreatorToAgency]
        · intro hsound
          exact huncovered (hsound hfailure k hchecked).1
      · have hcall : transferCreatorToAgency cfg req s =
            (.ok (.ok (transferData req k moved.isSome s)), write cfg req k moved s) := by
          simp [transferCreatorToAgency, hchecked, hfailure, hmoving]
        have hafter : transferred cfg s req = write cfg req k moved s := congrArg Prod.snd hcall
        have hpayable : ∀ old ∈ moved, Payable cfg k s old := by
          intro old hmem
          obtain ⟨hreferrer, hagency, -⟩ := (hmoved old).1 hmem
          exact payable_of_moved hread hcovered hreferrer hagency
        have hfollows := follows_iff hread hreward hold hrests hholder hmoved
        constructor
        · intro hkept _ k' hk'
          obtain rfl := Except.ok.inj (hchecked.symm.trans hk')
          refine ⟨hcovered, fun hbetween => hfollows.1 ?_⟩
          rw [← hafter]
          exact hkept.follows k _ hchecked (congrArg Prod.fst hcall) hbetween
        · intro hsound
          refine ⟨?_, ?_, ?_, ?_⟩
          · rw [hafter]
            exact agencyCoins_write hpayable
          · rw [hafter]
            exact walletsKept_write hpayable
          · intro k' data hk' _ hbetween
            obtain rfl := Except.ok.inj (hchecked.symm.trans hk')
            rw [hafter]
            exact hfollows.2 ((hsound hfailure k hchecked).2 hbetween)
          simp_all [refusal]

theorem held_step (hread : Read cfg req k s) (hreward : 0 < reward) {old : String}
    (hold : k.user.referredBy = some old) {holder : String}
    (hrests : RestsWith reward k.user.id holder s.rows)
    (hholder : holder = old ∨ s.isAgency holder = false) {moved : Option String}
    (hmoved : ∀ old, moved = some old ↔ k.oldReferrer = some old ∧ s.isAgency old = true ∧
      unwritten req s k.user.id old k.target.id = true)
    (hmovable : k.BetweenAgencies s → Movable cfg reward req k s) :
    ∃ holder, RestsWith reward k.user.id holder (write cfg req k moved s).rows ∧
      (holder = k.target.id ∨ (write cfg req k moved s).isAgency holder = false) := by
  by_cases hbetween : k.BetweenAgencies s
  · have hfollows := (follows_iff hread hreward hold hrests hholder hmoved).2 (hmovable hbetween)
    exact ⟨k.target.id, (follows_write hread moved).1 hfollows, .inl rfl⟩
  · have hstays : moved = none := by
      cases moved with
      | none => rfl
      | some old' =>
        obtain ⟨hreferrer, hagency, -⟩ := (hmoved old').1 rfl
        exact absurd (.inr ⟨old', hreferrer, hagency⟩) hbetween
    refine ⟨holder, ?_, ?_⟩
    · rw [rows_write, hstays, List.append_nil]
      exact hrests
    · rw [isAgency_write]
      obtain rfl | hnone := hholder
      · by_cases hsame : holder = k.target.id
        · exact .inl hsame
        · right
          by_contra hagency
          exact hbetween (.inr ⟨holder, oldReferrer_spec.2 ⟨hold, hsame⟩, by simpa using hagency⟩)
      · exact .inr hnone

/-- **A sound call** leaves the reward granted. -/
theorem Granted.step (h : Granted reward creatorId userId s) (hreq : MovesFor cfg creatorId req)
    (hreward : 0 < reward) (hsound : Sound cfg reward s req) :
    Granted reward creatorId userId (transferred cfg s req) := by
  unfold transferred transferCreatorToAgency
  cases hchecked : checkTransfer cfg req s with
  | error stop =>
    cases stop with
    | _ => exact h
  | ok k =>
    cases hfailure : req.failure with
    | some error => exact h
    | none =>
      have hread := checkTransfer_read hchecked
      obtain ⟨hcreatorId, huserId, hgranted, old, hold, holder, hrests, hholder⟩ :=
        hread.granted h hreq
      obtain ⟨hcovered, hmovable⟩ := hsound hfailure k hchecked
      obtain ⟨-, huncovered⟩ | ⟨⟨moved, hmoving, hmoved⟩, -⟩ :=
        movingFrom_cases cfg s hreq.moves hgranted
      · exact absurd hcovered huncovered
      dsimp only
      rw [hmoving]
      subst hcreatorId huserId
      refine ⟨?_, ?_, ?_⟩
      · refine ⟨Creator.assign k.target.id k.creator, ?_, hread.userId⟩
        simp [creators_write, Unique.get_update (Creator.assign_id _), hread.creator]
      · obtain ⟨e, he, hgrant⟩ := h.edge
        have hedge : k.edge = some e := hread.edge.trans he
        have hnew : k.newEdge = { e with referrerId := k.target.id, referralCodeUsed := k.code } := by
          unfold Admitted.newEdge
          rw [hedge]
        have hkey : k.newEdge.referredUserId = k.user.id := by
          rw [hnew]
          exact (Unique.mem_of_get he).2
        refine ⟨k.newEdge, ?_, ?_⟩
        · simp [edges_write, Unique.get_put, hkey]
        · rw [hnew]
          exact hgrant
      · have hreferred := referredBy_write cfg req moved hread.user
        obtain ⟨u, hu, hreferredBy⟩ := Option.map_eq_some_iff.1 hreferred
        refine ⟨k.target.id, ?_, ?_⟩
        · show Option.bind ((write cfg req k moved s).users.get k.user.id) _ = _
          rw [hu]
          exact hreferredBy
        · exact held_step hread hreward hold hrests hholder hmoved hmovable

end call

/-! ### Histories -/

/-- **A moved reward follows the creator** in exactly the histories whose calls are sound. -/
theorem transfers_kept_iff (cfg : Config) {reward : ℕ} {creatorId userId : String} {s : Store}
    {reqs : List Request} (hreward : 0 < reward) (hgranted : Granted reward creatorId userId s)
    (hreqs : ∀ req ∈ reqs, MovesFor cfg creatorId req) :
    (∀ e ∈ stepLog (transferred cfg) s reqs, TransferKept cfg reward e.1 e.2) ↔
      ∀ e ∈ stepLog (transferred cfg) s reqs, Sound cfg reward e.1 e.2 :=
  forall_trace_iff_of_mem (I := Granted reward creatorId userId) hgranted
    (fun _ req hmem h => transferKept_iff h (hreqs req hmem) hreward)
    fun _ req hmem h hsound => h.step (hreqs req hmem) hreward hsound

/-! ### Samples -/

/-- Ids are their own hex strings, and the reward is 60 coins. -/
def sampleConfig : Config := ⟨some, none⟩

def sampleStore (coins : ℕ) : Store where
  users := ⟨[{ id := "u", role := .creator, referredBy := some "a" },
    { id := "a", role := .agency, referralCode := some ['A', 'A'], coins },
    { id := "b", role := .agency, referralCode := some ['B', 'B'], coins := 10 }], by simp⟩
  creators := ⟨[⟨"c", some "u", some "a"⟩], by decide⟩
  edges := ⟨[⟨"a", "u", ['A', 'A'], true⟩], by decide⟩
  withdrawals := []
  rows := [⟨"referral_reward_a_u", "a", .credit, 60, "referral_reward", "", .completed⟩]

def transferTo (targetAgencyId : String) (idempotencyKey : Option String) : Request :=
  ⟨"c", targetAgencyId, idempotencyKey, true, none, 0, 0, none⟩

theorem sampleStore_granted (coins : ℕ) : Granted 60 "c" "u" (sampleStore coins) where
  linked := ⟨⟨"c", some "u", some "a"⟩, rfl, rfl⟩
  edge := ⟨⟨"a", "u", ['A', 'A'], true⟩, rfl, rfl⟩
  held := ⟨"a", rfl, "a", (by decide +kernel : RestsWith 60 "u" "a"
    [⟨"referral_reward_a_u", "a", .credit, 60, "referral_reward", "", .completed⟩]), .inl rfl⟩

theorem transferTo_movesFor (targetAgencyId : String) (idempotencyKey : Option String) :
    MovesFor sampleConfig "c" (transferTo targetAgencyId idempotencyKey) where
  creator := by
    intro id hid
    have htrim : trim "c" = "c" := by decide +kernel
    exact (Option.some.inj hid).symm.trans htrim
  moves := rfl

def bounce (idempotencyKey : Option String) : List Request :=
  [transferTo "b" none, transferTo "a" none, transferTo "b" idempotencyKey]

theorem transfers_kept_sample :
    (runFrom (transferred sampleConfig) (sampleStore 100) (bounce "2")).rows.length = 7 ∧
      ∀ e ∈ stepLog (transferred sampleConfig) (sampleStore 100) (bounce "2"),
        TransferKept sampleConfig 60 e.1 e.2 := by
  refine ⟨by decide +kernel, ?_⟩
  apply (transfers_kept_iff sampleConfig (by decide) (sampleStore_granted 100) _).2
  · decide +kernel
  · intro req hreq
    simp only [bounce, List.mem_cons, List.not_mem_nil, or_false] at hreq
    obtain rfl | rfl | rfl := hreq <;> exact transferTo_movesFor _ _

/-- The second time there the reward stays behind, and a refusal for too few coins is thrown. -/
theorem transfers_not_kept :
    (¬∀ e ∈ stepLog (transferred sampleConfig) (sampleStore 100) (bounce none),
      TransferKept sampleConfig 60 e.1 e.2) ∧
    ¬TransferKept sampleConfig 60 (sampleStore 50) (transferTo "b" none) := by
  constructor
  · intro h
    have hback : Granted 60 "c" "u" (transferred sampleConfig
        (transferred sampleConfig (sampleStore 100) (transferTo "b" none))
        (transferTo "a" none)) := by
      have hone := (sampleStore_granted 100).step (transferTo_movesFor "b" none) (by decide)
        (by decide +kernel)
      exact hone.step (transferTo_movesFor "a" none) (by decide) (by decide +kernel)
    rw [bounce, forall_stepLog_cons, forall_stepLog_cons, forall_stepLog_cons] at h
    have hlast := h.2.2.1
    dsimp only at hlast
    rw [transferKept_iff hback (transferTo_movesFor "b" none) (by decide)] at hlast
    revert hlast
    decide +kernel
  · rw [transferKept_iff (sampleStore_granted 50) (transferTo_movesFor "b" none) (by decide)]
    decide +kernel

end VibemeetBackend.Transfer
