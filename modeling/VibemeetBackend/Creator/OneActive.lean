import VibemeetBackend.Creator.WithdrawalRequest

/-!
# One active withdrawal at a time

Whole runs of withdrawal requests and of the operations on the withdrawals, from an empty collection.
-/

namespace VibemeetBackend.Creator

open Async Flow
open Mongo (Unique)

def OneActive (s : RequestStore) : Prop :=
  ∀ who : Requester, s.withdrawals.rows.countP who.activeIn ≤ 1

/-! ### What a request goes by -/

/-- What the look for an active withdrawal has found, with the number of withdrawals that the
requester had then. -/
structure Lookup where
  who : Requester
  requested : ℕ
  active : Option WithdrawalDoc

structure RequestPhase where
  looked : Option Lookup
  process : WithdrawalPhase

def RequestStore.requested (s : RequestStore) (who : Requester) : ℕ :=
  s.withdrawals.rows.countP who.requested

def RequestPhase.start : RequestPhase := ⟨none, .start⟩

def RequestPhase.next (φ : RequestPhase) (c : RequestCmd) (r : WithdrawalReply) (s : RequestStore) :
    RequestPhase :=
  match c with
  | .findActive who => { φ with looked := some ⟨who, s.requested who, s.active who⟩ }
  | .process id c => { φ with process := φ.process.next c r (s.view id) }
  | _ => φ

/-- A request creates its withdrawal only after it has found none active. -/
def RequestAllows (φ : RequestPhase) : RequestCmd → Prop
  | .createWithdrawal d => ∃ k amount, φ.looked = some k ∧ k.active = none ∧
      d.withdrawal = newWithdrawal k.who amount
  | .process _ c => WithdrawalAllows φ.process c
  | _ => True

section protocol

variable {φ : RequestPhase} {α : Type}

abbrev RequestFollows (φ : RequestPhase) (p : RequestFlow α) : Prop :=
  Follows (guarded RequestAllows RequestPhase.next) φ p (fun _ _ => True) fun _ _ => True

theorem follows_request {c : RequestCmd} {f : WithdrawalReply × RequestStore → RequestFlow α}
    (hc : RequestAllows φ c) (h : ∀ r s, RequestFollows (φ.next c r s) (f (r, s))) :
    RequestFollows φ (request c >>= f) :=
  follows_guarded_bind hc (fun _ _ => trivial) fun r s _ => h r s

theorem createForCreator_follows (id userId : String) (amount : ℤ) :
    RequestFollows φ (createForCreator id userId amount) := by
  refine follows_request trivial fun r s => ?_
  dsimp only
  split
  · trivial
  · rename_i hfree
    refine follows_request trivial fun _ _ => ?_
    dsimp only
    split
    · trivial
    · refine follows_request (c := .createWithdrawal _) ?_ fun _ _ => trivial
      exact ⟨_, amount, rfl, hfree, rfl⟩

theorem requestWithdrawal_follows (id uid : String) (body : WithdrawalBody) :
    RequestFollows φ (requestWithdrawal id uid body) := by
  refine follows_request trivial fun _ _ => ?_
  dsimp only
  split
  · trivial
  split
  · trivial
  split
  · trivial
  · exact createForCreator_follows id _ _

theorem createForStaff_follows (id staffUserId : String) (amount : ℤ) :
    RequestFollows φ (createForStaff id staffUserId amount) := by
  refine follows_request trivial fun r s => ?_
  dsimp only
  split
  · trivial
  · rename_i hfree
    refine follows_request trivial fun _ _ => ?_
    dsimp only
    split
    · trivial
    split
    · trivial
    · refine follows_request (c := .createWithdrawal _) ?_ fun _ _ => trivial
      exact ⟨_, amount, rfl, hfree, rfl⟩

theorem createStaff_follows (id staffUserId : String) (amountRaw : ℚ) (block : Bool) :
    RequestFollows φ (createStaffWithdrawalRequest id staffUserId amountRaw block) := by
  unfold createStaffWithdrawalRequest
  split
  · trivial
  refine follows_request trivial fun _ _ => ?_
  dsimp only
  split
  · trivial
  split
  · trivial
  split
  · trivial
  · exact createForStaff_follows id staffUserId _

theorem process_follows (id : String) (q : WithdrawalRequest) :
    (requestProgram (.process id q)).Follows (guarded RequestAllows RequestPhase.next)
      .start fun _ _ => True := by
  refine Prog.Follows.mono (Prog.follows_focus (R := fun ψ (φ : RequestPhase) => φ.process = ψ)
    (withdrawalProgram_follows id q) ?_ rfl) fun _ _ _ => trivial
  rintro ψ φ c r s ψ' rfl hψ
  obtain ⟨hA, rfl⟩ := guarded_eq_some hψ
  exact ⟨_, guarded_of hA, rfl⟩

theorem requestProgram_follows (q : Request) :
    (requestProgram q).Follows (guarded RequestAllows RequestPhase.next) .start
      fun _ _ => True := by
  cases q with
  | creator id uid body => exact Follows.run (requestWithdrawal_follows id uid body)
  | staff id staffUserId amountRaw block =>
    exact Follows.run (createStaff_follows id staffUserId amountRaw block)
  | process id q => exact process_follows id q

end protocol

/-! ### Unraced requests -/

/-- No withdrawal of a requester was created between the look of a request and its create, and no
other operation has changed the status of a withdrawal between the load of an approval and its
save. -/
def Unraced : RequestPhase × Event RequestCmd WithdrawalReply RequestStore → Prop
  | (φ, e) => e.ans.delivered = true →
    match e.cmd with
    | .createWithdrawal _ => ∀ k ∈ φ.looked, e.before.requested k.who = k.requested
    | .process id (.saveWithdrawal update) => update.status = .approved →
        ∀ w ∈ φ.process.loaded, ∀ d ∈ e.before.withdrawals.get id,
          d.withdrawal.status = w.status
    | _ => True

instance : DecidablePred Unraced := fun ⟨φ, _, c, _, _⟩ =>
  match c with
  | .createWithdrawal _ => inferInstanceAs (Decidable (_ = true → ∀ k ∈ φ.looked, _ = _))
  | .process _ (.saveWithdrawal _) =>
    inferInstanceAs (Decidable (_ = true → _ = _ → ∀ w ∈ φ.process.loaded, ∀ d ∈ _, _ = _))
  | .findUser _ | .findActive _ | .findCreator _ | .findPayoutAccount _
  | .process _ .findWithdrawal | .process _ (.findUser _) | .process _ (.findCreator _)
  | .process _ (.createDebit _) | .process _ (.saveWallet ..) | .process _ (.saveEarnings ..)
  | .process _ (.createStaffLedger _) | .process _ (.credit ..) => isTrue fun _ => trivial

def AllOwned (s : RequestStore) : Prop := ∀ d ∈ s.withdrawals.rows, d.withdrawal.Owned

variable {φ : RequestPhase}

/-! ### Steps -/

section steps

variable {s : RequestStore} {c : RequestCmd} {r : WithdrawalReply}

def saved (r : WithdrawalReply) (d : WithdrawalDoc) (c : WithdrawalCmd) : WithdrawalDoc :=
  match c with
  | .saveWithdrawal update =>
    if r.delivered = false then d else { d with withdrawal := update.apply d.withdrawal }
  | _ => d

variable {d : WithdrawalDoc}

theorem processed_eq {id : String} {c : WithdrawalCmd} (hd : s.withdrawals.get id = some d) :
    d.processed (c.exec r (s.view id)) = saved r d c := by
  have hview : (s.view id).withdrawal = some d.withdrawal := by
    rw [RequestStore.view, hd]
    rfl
  unfold WithdrawalDoc.processed WithdrawalCmd.exec
  by_cases hr : r.delivered = false
  · rw [if_pos hr, hview]
    cases c with
    | saveWithdrawal update => exact (if_pos hr).symm
    | _ => rfl
  · rw [if_neg hr]
    cases c with
    | saveWithdrawal update =>
      rw [hview]
      exact (if_neg hr).symm
    | createStaffLedger entry =>
      dsimp only
      split <;> rw [hview] <;> rfl
    | _ =>
      dsimp only [WithdrawalStore.updateUser]
      rw [hview]
      rfl

theorem processed_id (v : WithdrawalStore) (d : WithdrawalDoc) : (d.processed v).id = d.id := rfl

theorem newWithdrawal_owned (who : Requester) (amount : ℤ) : (newWithdrawal who amount).Owned := by
  cases who with
  | creator id => exact .inl rfl
  | staff id => exact .inr rfl

theorem requested_new {owner : Requester} {amount : ℤ}
    (hd : d.withdrawal = newWithdrawal owner amount) (who : Requester) :
    who.requested d = decide (owner = who) := by
  cases who with
  | _ => cases owner with
    | _ => simp [Requester.requested, hd, newWithdrawal]

theorem apply_requested {update : WithdrawalUpdate} (h : update.creatorUserId = none)
    (d : WithdrawalDoc) (who : Requester) :
    who.requested { d with withdrawal := update.apply d.withdrawal } = who.requested d := by
  unfold Requester.requested WithdrawalUpdate.apply
  rw [h]
  rfl

/-- A new withdrawal is owned, and a save writes no owner. -/
def KeepsOwner : RequestCmd → Prop
  | .createWithdrawal d => d.withdrawal.Owned
  | .process _ (.saveWithdrawal update) => update.creatorUserId = none
  | _ => True

theorem keepsOwner_of_allows (hA : RequestAllows φ c) (hφ : ∀ w ∈ φ.process.loaded, w.Owned) :
    KeepsOwner c := by
  cases c with
  | createWithdrawal d =>
    obtain ⟨k, amount, -, -, hd⟩ := hA
    show d.withdrawal.Owned
    rw [hd]
    exact newWithdrawal_owned _ _
  | process id c =>
    cases c with
    | saveWithdrawal update =>
      obtain ⟨w, hw, -, -, -, -, howner⟩ := hA
      exact howner (hφ w hw)
    | _ => trivial
  | _ => trivial

theorem allOwned_exec (hc : KeepsOwner c) (hs : AllOwned s) : AllOwned (c.exec r s) := by
  cases c with
  | createWithdrawal d =>
    unfold RequestCmd.exec
    dsimp only
    split
    · exact hs
    · intro d' hd'
      have hmem : d' ∈ (s.withdrawals.insert d).rows := hd'
      cases hget : s.withdrawals.get d.id with
      | some d₀ =>
        rw [Unique.insert_of_get hget] at hmem
        exact hs d' hmem
      | none =>
        rw [Unique.insert_rows hget, List.mem_append, List.mem_singleton] at hmem
        rcases hmem with hmem | rfl
        · exact hs d' hmem
        · exact hc
  | process id c =>
    intro d' hd'
    have hget' := Unique.get_of_mem (c := s.withdrawals.update id _) hd'
    rw [Unique.get_update (processed_id _)] at hget'
    split at hget'
    · rename_i hid
      obtain ⟨d, hd, rfl⟩ := Option.map_eq_some_iff.1 hget'
      have howned := hs d (Unique.mem_of_get hd).1
      rw [← hid] at hd
      rw [processed_eq hd]
      cases c with
      | saveWithdrawal update =>
        unfold saved
        dsimp only
        split
        · exact howned
        · have hkeep : update.creatorUserId = none := hc
          simpa [Withdrawal.Owned, WithdrawalUpdate.apply, hkeep] using howned
      | _ => exact howned
    · exact hs d' (Unique.mem_of_get hget').1
  | findUser | findActive | findCreator | findPayoutAccount => exact hs

theorem activeIn_eq (who : Requester) (d : WithdrawalDoc) :
    who.activeIn d = (who.requested d && d.withdrawal.status.isActive) := rfl

theorem isActive_of_ne_pending {status : WithdrawalStatus} (h : status ≠ .pending) :
    status.isActive = true ↔ status = .approved := by
  cases status with
  | pending => exact absurd rfl h
  | _ => decide

/-- What an operation on one withdrawal does to a count over the withdrawals. -/
theorem countP_process {id : String} {c : WithdrawalCmd} (hd : s.withdrawals.get id = some d)
    (p : WithdrawalDoc → Bool) :
    ((RequestCmd.process id c).exec r s).withdrawals.rows.countP p + (p d).toNat =
      s.withdrawals.rows.countP p + (p (saved r d c)).toNat := by
  have hcount := Unique.countP_update (processed_id (c.exec r (s.view id))) hd p
  rw [processed_eq hd] at hcount
  exact hcount

/-- How a command changes the counts of one requester: they do not grow, or it creates the
withdrawal of a request that has found none active. -/
def Tallied (φ : RequestPhase) (s t : RequestStore) (who : Requester) : Prop :=
  t.requested who = s.requested who ∧
      t.withdrawals.rows.countP who.activeIn ≤ s.withdrawals.rows.countP who.activeIn ∨
    t.requested who = s.requested who + 1 ∧
      t.withdrawals.rows.countP who.activeIn = s.withdrawals.rows.countP who.activeIn + 1 ∧
      ∃ k ∈ φ.looked, k.active = none ∧ k.who = who ∧ s.requested who = k.requested

theorem tallied_process {id : String} {c : WithdrawalCmd} (hA : RequestAllows φ (.process id c))
    (hc : KeepsOwner (.process id c))
    (hG : Unraced (φ, ⟨s, .process id c, r, (RequestCmd.process id c).exec r s⟩))
    (who : Requester) : Tallied φ s ((RequestCmd.process id c).exec r s) who := by
  cases hget : s.withdrawals.get id with
  | none =>
    have hsame : ((RequestCmd.process id c).exec r s).withdrawals = s.withdrawals := by
      show s.withdrawals.update id _ = _
      rw [Unique.update, hget]
    exact .inl ⟨by rw [RequestStore.requested, hsame]; rfl, by rw [hsame]⟩
  | some d =>
    have hcount := countP_process (r := r) (c := c) hget
    have hsaved : saved r d c = d ∨ ∃ update, c = .saveWithdrawal update ∧ r.delivered = true ∧
        saved r d c = { d with withdrawal := update.apply d.withdrawal } := by
      cases c with
      | saveWithdrawal update =>
        cases hr : r.delivered with
        | false => exact .inl (if_pos hr)
        | true => exact .inr ⟨update, rfl, rfl, if_neg (by simp [hr])⟩
      | _ => exact .inl rfl
    rcases hsaved with hsaved | ⟨update, rfl, hr, hsaved⟩
    · rw [hsaved] at hcount
      exact .inl ⟨Nat.add_right_cancel (hcount _), (Nat.add_right_cancel (hcount _)).le⟩
    · rw [hsaved] at hcount
      have hrequested := hcount who.requested
      have hactive := hcount who.activeIn
      rw [apply_requested hc] at hrequested
      rw [activeIn_eq who d, activeIn_eq, apply_requested hc] at hactive
      refine .inl ⟨Nat.add_right_cancel hrequested, ?_⟩
      -- An approval finds the withdrawal pending, as it has loaded it.
      have hle : update.status.isActive = true → d.withdrawal.status.isActive = true := by
        intro hact
        obtain ⟨w, hw, -, -, hne, hpending, -⟩ := hA
        have happroved := (isActive_of_ne_pending hne).1 hact
        have hstatus := hG hr happroved w hw d hget
        rw [hstatus, hpending happroved]
        rfl
      have hbool : (who.requested d && update.status.isActive).toNat ≤
          (who.requested d && d.withdrawal.status.isActive).toNat := by
        cases hact : update.status.isActive with
        | false =>
          rw [Bool.and_false]
          exact Nat.zero_le _
        | true => rw [hle hact]
      exact Nat.le_of_add_le_add_right (hactive.le.trans (Nat.add_le_add_left hbool _))

theorem tallied_create (hA : RequestAllows φ (.createWithdrawal d))
    (hG : Unraced (φ, ⟨s, .createWithdrawal d, r, (RequestCmd.createWithdrawal d).exec r s⟩))
    (who : Requester) : Tallied φ s ((RequestCmd.createWithdrawal d).exec r s) who := by
  obtain ⟨k, amount, hk, hnone, hd⟩ := hA
  cases hr : r.delivered with
  | false =>
    rw [show (RequestCmd.createWithdrawal d).exec r s = s from if_pos hr]
    exact .inl ⟨rfl, le_rfl⟩
  | true =>
    have hexec : ((RequestCmd.createWithdrawal d).exec r s).withdrawals =
        s.withdrawals.insert d := by
      unfold RequestCmd.exec
      dsimp only
      rw [if_neg (by simp [hr])]
    unfold Tallied RequestStore.requested
    rw [hexec]
    cases hget : s.withdrawals.get d.id with
    | some d₀ =>
      rw [Unique.insert_of_get hget]
      exact .inl ⟨rfl, le_rfl⟩
    | none =>
      have hactive : d.withdrawal.status.isActive = true := by rw [hd]; rfl
      rw [Unique.countP_insert hget, Unique.countP_insert hget, activeIn_eq, hactive,
        Bool.and_true, requested_new hd]
      by_cases hwho : k.who = who
      · refine .inr ⟨by rw [decide_eq_true hwho]; rfl, by rw [decide_eq_true hwho]; rfl, ?_⟩
        exact ⟨k, hk, hnone, hwho, by rw [← hwho]; exact hG hr k hk⟩
      · rw [decide_eq_false hwho]
        exact .inl ⟨rfl, le_rfl⟩

theorem tallied_exec (hA : RequestAllows φ c) (hc : KeepsOwner c)
    (hG : Unraced (φ, ⟨s, c, r, c.exec r s⟩)) (who : Requester) : Tallied φ s (c.exec r s) who := by
  cases c with
  | createWithdrawal d => exact tallied_create hA hG who
  | process id c => exact tallied_process hA hc hG who
  | findUser | findActive | findCreator | findPayoutAccount => exact .inl ⟨rfl, le_rfl⟩

end steps

/-! ### Runs -/

/-- While a requester has no more withdrawals than at a look that found none active, none is. -/
def Lookup.Holds (k : Lookup) (s : RequestStore) : Prop :=
  k.active = none → k.requested ≤ s.requested k.who ∧
    (s.requested k.who = k.requested → s.withdrawals.rows.countP k.who.activeIn = 0)

theorem Lookup.Holds.step {k : Lookup} {s t : RequestStore} (h : k.Holds s)
    (htallied : Tallied φ s t k.who) : k.Holds t := by
  intro hnone
  obtain ⟨hle, hfree⟩ := h hnone
  rcases htallied with ⟨hrequested, hactive⟩ | ⟨hrequested, -⟩
  · rw [hrequested]
    exact ⟨hle, fun heq => Nat.le_zero.1 (hactive.trans (hfree heq).le)⟩
  · rw [hrequested]
    exact ⟨hle.trans (Nat.le_succ _), fun heq => by omega⟩

theorem lookup_holds (s : RequestStore) (who : Requester) :
    Lookup.Holds ⟨who, s.requested who, s.active who⟩ s := by
  intro hnone
  refine ⟨le_rfl, fun _ => ?_⟩
  have hnone' : s.withdrawals.rows.reverse.find? who.activeIn = none := hnone
  rw [List.find?_eq_none] at hnone'
  exact List.countP_eq_zero.2 fun d hd => hnone' d (List.mem_reverse.2 hd)

structure RequestPhase.Holds (φ : RequestPhase) (s : RequestStore) : Prop where
  looked : ∀ k ∈ φ.looked, k.Holds s
  owned : ∀ w ∈ φ.process.loaded, w.Owned

theorem RequestPhase.Holds.next {s t : RequestStore} {c : RequestCmd} {r : WithdrawalReply}
    (h : φ.Holds s) (howned : AllOwned s) (htallied : ∀ who, Tallied φ s t who)
    (hfind : ∀ who, c = .findActive who → t = s) : (φ.next c r s).Holds t := by
  cases c with
  | findActive who =>
    obtain rfl := hfind who rfl
    refine ⟨?_, h.owned⟩
    rintro k ⟨⟩
    exact lookup_holds t who
  | process id c =>
    refine ⟨fun k hk => (h.looked k hk).step (htallied _), ?_⟩
    intro w hw
    have hloaded : (φ.process.next c r (s.view id)).loaded = φ.process.loaded ∨
        (φ.process.next c r (s.view id)).loaded = (s.view id).withdrawal := by
      unfold WithdrawalPhase.next
      split
      · exact .inl rfl
      · split <;> first | exact .inl rfl | exact .inr rfl
    rcases hloaded with hloaded | hloaded
    · exact h.owned w (hloaded ▸ hw)
    · obtain ⟨d, hd, rfl⟩ := Option.mem_map.1 (hloaded ▸ hw)
      exact howned d (Unique.mem_of_get hd).1
  | _ => exact ⟨fun k hk => (h.looked k hk).step (htallied _), h.owned⟩

structure OneEach (φs : List RequestPhase)
    (l : List (RequestPhase × Event RequestCmd WithdrawalReply RequestStore)) (t : RequestStore) :
    Prop where
  one : OneActive t
  owned : AllOwned t
  phases : ∀ φ ∈ φs, φ.Holds t
  log : ∀ x ∈ l, OneActive x.2.after

namespace OneEach

variable {φs : List RequestPhase}
  {l : List (RequestPhase × Event RequestCmd WithdrawalReply RequestStore)} {t : RequestStore}

theorem spawn (h : OneEach φs l t) : OneEach (φs ++ [.start]) l t where
  one := h.one
  owned := h.owned
  log := h.log
  phases := by
    intro φ hφ
    rcases mem_snoc.1 hφ with hφ | rfl
    · exact h.phases φ hφ
    · constructor <;> rintro _ ⟨⟩

theorem step {i : ℕ} {c : RequestCmd} {r : WithdrawalReply} (h : OneEach φs l t)
    (hi : φs[i]? = some φ) (hA : RequestAllows φ c) (hG : Unraced (φ, ⟨t, c, r, c.exec r t⟩)) :
    OneEach (φs.set i (φ.next c r t)) (l ++ [(φ, ⟨t, c, r, c.exec r t⟩)]) (c.exec r t) := by
  have hφ := h.phases φ (List.mem_of_getElem? hi)
  have hkeeps := keepsOwner_of_allows hA hφ.owned
  have htallied := tallied_exec hA hkeeps hG
  have hafter : OneActive (c.exec r t) := by
    intro who
    rcases htallied who with ⟨-, hle⟩ | ⟨-, hactive, k, hk, hnone, rfl, heq⟩
    · exact hle.trans (h.one who)
    · rw [hactive, (hφ.looked k hk hnone).2 heq]
  refine ⟨hafter, allOwned_exec hkeeps h.owned, ?_, ?_⟩
  · intro φ' hφ'
    rcases List.mem_or_eq_of_mem_set hφ' with hφ' | rfl
    · obtain ⟨hlooked, hloaded⟩ := h.phases φ' hφ'
      exact ⟨fun k hk => (hlooked k hk).step (htallied _), hloaded⟩
    · exact hφ.next h.owned htallied fun who hc => by rw [hc]; rfl
  · exact Pool.forall_snoc h.log hafter

end OneEach

def watchedRequests (s : RequestStore) (ms : List (Move Request WithdrawalReply)) :
    Watched RequestPhase RequestCmd WithdrawalReply RequestStore :=
  (Watched.start { s with withdrawals := Unique.empty }).play RequestPhase.next
    (fun _ => .start) RequestCmd.exec requestProgram ms

def requestRun (s : RequestStore) (ms : List (Move Request WithdrawalReply)) :
    Pool RequestCmd WithdrawalReply RequestStore :=
  (Pool.start { s with withdrawals := Unique.empty }).play RequestCmd.exec requestProgram ms

/-- **One active withdrawal at a time**: in every run whose requests and approvals nobody disturbs,
every state reached has at most one active withdrawal for each requester. -/
theorem one_active_run (s : RequestStore) (ms : List (Move Request WithdrawalReply))
    (h : ∀ x ∈ (watchedRequests s ms).log, Unraced x) :
    ∀ e ∈ (requestRun s ms).log, OneActive e.after := by
  have hstart : OneEach [] [] { s with withdrawals := Unique.empty } :=
    ⟨fun _ => Nat.zero_le 1, fun d hd => (List.not_mem_nil hd).elim,
      fun φ hφ => (List.not_mem_nil hφ).elim, fun x hx => (List.not_mem_nil hx).elim⟩
  obtain ⟨-, -, hrun⟩ := Watched.play_phased OneEach Unraced requestProgram_follows hstart
    (fun _ _ _ _ hJ => hJ.spawn) (fun _ _ _ _ _ _ _ hJ hi hA hG => hJ.step hi hA hG) ms h
  exact Watched.forall_pool_log requestProgram_follows ms hrun.log

def requestStore : RequestStore where
  withdrawals := Unique.empty
  users := [⟨"u1", "f1", 5000, 0⟩]
  creators := [⟨"u1", 0⟩]
  debits := []
  staffLedger := []
  role := fun _ => "creator"
  bdDisabled := fun _ => false
  payoutAccounts := []

def requestBody : WithdrawalBody where
  amount := some 1000
  name := some "Asha"
  number := some "9876543210"
  upi := some "asha@upi"
  accountNumber := none
  ifsc := none

/-- A request, a second one that is refused, the approval and the payment of the first, and a third
request. -/
def requestMoves : List (Move Request WithdrawalReply) :=
  [.spawn (.creator "w1" "f1" requestBody), .spawn (.creator "w2" "f1" requestBody),
    .spawn (.process "w1" (.approve ⟨true, true, none⟩)),
    .spawn (.process "w1" (.markPaid "a" ⟨true, true, none⟩)),
    .spawn (.creator "w3" "f1" requestBody)] ++
    [0, 0, 0, 0, 1, 1, 2, 2, 2, 3, 3, 3, 3, 3, 3, 3, 4, 4, 4, 4].map fun i => .step i ⟨true, true⟩

theorem one_active_run_sample :
    (requestRun requestStore requestMoves).store.withdrawals.rows.map (·.withdrawal.status) =
        [.paid, .pending] ∧
      ∀ e ∈ (requestRun requestStore requestMoves).log, OneActive e.after :=
  ⟨by decide +kernel, one_active_run requestStore requestMoves (by decide +kernel)⟩

/-! A creator sends two requests, and both look for an active withdrawal before either has created
its own. -/

def secondRequestMoves : List (Move Request WithdrawalReply) :=
  [.spawn (.creator "w1" "f1" requestBody), .spawn (.creator "w2" "f1" requestBody)] ++
    [0, 0, 1, 1, 0, 0, 1, 1].map fun i => .step i ⟨true, true⟩

theorem secondRequest_alsoCreated :
    ¬∀ e ∈ (requestRun requestStore secondRequestMoves).log, OneActive e.after := by
  intro h
  have hbad : ∃ e ∈ (requestRun requestStore secondRequestMoves).log,
      ¬e.after.withdrawals.rows.countP (Requester.creator "u1").activeIn ≤ 1 := by
    decide +kernel
  obtain ⟨e, he, htwo⟩ := hbad
  exact htwo (h e he _)

end VibemeetBackend.Creator
