import VibemeetBackend.Async.Watch
import VibemeetBackend.Staff.Revenue

/-!
# Staff wallets and their ledger

Whole runs of settlements and reconciliations: any calls, settled any number of times and at once,
with any shares, and requests that stop for good anywhere.
-/

namespace VibemeetBackend.Staff

open Async Flow

/-! ### What a request has done -/

/-- The writes of the current attempt that the server has received, and the ledger sum that was
aggregated last, with its user. -/
structure Phase where
  pending : Pending
  expected : Option (String × ℤ)

def Phase.start : Phase := ⟨.empty, none⟩

def Phase.next (φ : Phase) (c : Cmd) (r : Reply) (s : Store) : Phase :=
  match c with
  | .snapshot => { φ with pending := .empty }
  | .statement (.incBalance p) =>
    { φ with pending :=
        if r.delivered = true then { φ.pending with incs := φ.pending.incs ++ [p] } else φ.pending }
  | .statement (.createLine p) =>
    { φ with pending :=
        if r.delivered = true then { φ.pending with rows := φ.pending.rows ++ [p] } else φ.pending }
  | .aggregate staffUserId =>
    if r.delivered = true then { φ with expected := some (staffUserId, s.net staffUserId) } else φ
  | _ => φ

/-- The rows follow their `$inc`, and no share is paid twice. -/
structure Pending.Ordered (tx : Pending) : Prop where
  rows : tx.rows.Sublist tx.incs
  keys : (tx.incs.map Share.key).Nodup

/-- An attempt commits the writes that were received; a wallet is set to the sum that was
aggregated. -/
def Allows (φ : Phase) : Cmd → Prop
  | .commit (some (.settle w)) =>
    w.incs = φ.pending.incs ∧ w.rows = φ.pending.rows ∧ φ.pending.Ordered
  | .commit (some (.setBalance staffUserId v)) =>
    ∃ expected, φ.expected = some (staffUserId, expected) ∧ v = (max 0 expected).toNat
  | _ => True

variable {tx : Pending}

section protocol

variable {φ : Phase} {α : Type} {Q : α → Phase → Prop} {E : String → Phase → Prop}

abbrev StaffFollows (φ : Phase) (p : StaffFlow α) (Q : α → Phase → Prop)
    (E : String → Phase → Prop) : Prop :=
  Follows (guarded Allows Phase.next) φ p Q E

variable {f : Reply × Store → StaffFlow α}

theorem follows_run {c : Cmd} (hc : Allows φ c) (hnext : ∀ r s, φ.next c r s = φ)
    (hE : ∀ e, E e φ) (h : ∀ r s, StaffFollows φ (f (r, s)) Q E) :
    StaffFollows φ (run c >>= f) Q E := by
  apply follows_keep_bind
  · intro r s
    rw [guarded_of hc, hnext]
  · exact hE _
  · exact h

theorem follows_statement {st : Statement}
    (h : ∀ r s, StaffFollows (φ.next (.statement st) r s) (f (r, s)) Q E) :
    StaffFollows φ (issue (.statement st) >>= f) Q E := by
  apply follows_issue_bind
  intro r s
  exact ⟨_, guarded_of trivial, h r s⟩

theorem Pending.Ordered.inc {p : Share} (h : tx.Ordered) (hp : p.key ∉ tx.incs.map Share.key) :
    Pending.Ordered { tx with incs := tx.incs ++ [p] } := by
  constructor
  · exact h.rows.trans (List.sublist_append_left _ _)
  · show ((tx.incs ++ [p]).map Share.key).Nodup
    rw [List.map_append, List.map_singleton, List.nodup_append]
    refine ⟨h.keys, List.nodup_singleton _, ?_⟩
    intro k hk k' hk'
    rw [List.mem_singleton] at hk'
    rintro rfl
    rw [hk'] at hk
    exact hp hk

theorem Pending.Ordered.row {p : Share} (h : tx.Ordered) (hp : p.key ∉ tx.incs.map Share.key) :
    Pending.Ordered { tx with incs := tx.incs ++ [p], rows := tx.rows ++ [p] } := by
  constructor
  · exact h.rows.append (List.Sublist.refl [p])
  · exact (h.inc hp).keys

theorem next_createLine (p : Share) (r : Reply) (s : Store) :
    (φ.next (.statement (.createLine p)) r s).pending =
      if r.delivered = true then { φ.pending with rows := φ.pending.rows ++ [p] }
      else φ.pending := rfl

/-- What the transaction holds after one line. -/
structure Lines (tx : Pending) (p : Share) (tx' : Pending) (φ : Phase) : Prop where
  received : φ.pending = tx'
  ordered : tx'.Ordered
  keys : ∀ k ∈ tx'.incs.map Share.key, k ∈ tx.incs.map Share.key ∨ k = p.key

theorem creditStaff_follows (s : Store) {p : Share} (hφ : φ.pending = tx) (htx : tx.Ordered)
    (hp : p.key ∉ tx.incs.map Share.key) :
    StaffFollows φ (creditStaff s p tx) (fun x φ' => Lines tx p x.2 φ') fun _ _ => False := by
  have hsame : Lines tx p tx φ := ⟨hφ, htx, fun k hk => .inl hk⟩
  have hkeys : ∀ k ∈ (tx.incs ++ [p]).map Share.key, k ∈ tx.incs.map Share.key ∨ k = p.key := by
    intro k hk
    rw [List.map_append, List.map_singleton, List.mem_append, List.mem_singleton] at hk
    exact hk
  unfold creditStaff
  split
  · exact hsame
  apply follows_statement
  intro r _
  show StaffFollows φ _ _ _
  dsimp only
  split
  · exact hsame
  split
  · exact hsame
  apply follows_statement
  intro r s'
  have hinc : (φ.next (.statement (.incBalance p)) r s').pending =
      if r.delivered = true then { tx with incs := tx.incs ++ [p] } else tx := by
    rw [← hφ]
    rfl
  split
  · refine ⟨hinc, ?_, ?_⟩
    · split
      · exact htx.inc hp
      · exact htx
    · intro k hk
      split at hk
      · exact hkeys k hk
      · exact .inl hk
  · rename_i hok
    rw [Bool.not_eq_false, Reply.ok, Bool.and_eq_true] at hok
    rw [if_pos hok.1] at hinc ⊢
    apply follows_statement
    intro r' s''
    refine ⟨?_, ?_, ?_⟩
    · rw [next_createLine, hinc]
    · split
      · exact htx.row hp
      · exact htx.inc hp
    · intro k hk
      split at hk
      · exact hkeys k hk
      · exact hkeys k hk

theorem key_ne (callId bdId agencyId : String) (m n : ℕ) :
    Share.key ⟨callId, .agency, agencyId, m⟩ ≠ Share.key ⟨callId, .bd, bdId, n⟩ := by
  intro h
  have h : "staff_ledger_call_" ++ callId ++ "_agency_credit" =
      "staff_ledger_call_" ++ callId ++ "_bd_credit" := h
  rw [String.append_right_inj] at h
  revert h
  decide

theorem ordered_empty : Pending.empty.Ordered := ⟨List.Sublist.refl _, List.nodup_nil⟩

theorem creditBd_follows (s : Store) (callId : String) (bdId : Option String) (bdCut : ℕ)
    (hφ : φ.pending = .empty) :
    StaffFollows φ (creditBd s callId bdId bdCut)
      (fun x φ' => φ'.pending = x.2 ∧ x.2.Ordered ∧ ∀ k ∈ x.2.incs.map Share.key,
        ∃ bdId, k = Share.key ⟨callId, .bd, bdId, bdCut⟩) fun _ _ => False := by
  cases bdId with
  | none => exact ⟨hφ, ordered_empty, fun k hk => nomatch hk⟩
  | some bdId =>
    apply Follows.mono (creditStaff_follows s hφ ordered_empty List.not_mem_nil)
    · intro x φ' h
      refine ⟨h.received, h.ordered, ?_⟩
      intro k hk
      rcases h.keys k hk with hk | hk
      · cases hk
      · exact ⟨bdId, hk⟩
    · intro e φ' h
      exact h

theorem creditBoth_follows (s : Store) (callId agencyId : String) (bdId : Option String)
    (cuts : StaffCutsFromHost) (hφ : φ.pending = .empty) :
    StaffFollows φ (creditBoth s callId agencyId bdId cuts)
      (fun x φ' => φ'.pending = x.2 ∧ x.2.Ordered) fun _ _ => False := by
  apply follows_bind
  apply Follows.mono (creditBd_follows s callId bdId cuts.bdCut hφ)
  · rintro ⟨fine, tx⟩ φ' ⟨hreceived, hordered, hkeys⟩
    dsimp only
    split
    · exact ⟨hreceived, hordered⟩
    · have hkey : Share.key ⟨callId, .agency, agencyId, cuts.agencyCut⟩ ∉
          tx.incs.map Share.key := by
        intro hmem
        obtain ⟨bdId, heq⟩ := hkeys _ hmem
        exact key_ne _ _ _ _ _ heq
      apply Follows.mono (creditStaff_follows s hreceived hordered hkey)
      · intro x φ'' h
        exact ⟨h.received, h.ordered⟩
      · intro e φ'' h
        exact h
  · intro e φ' h
    exact h

theorem staffRevenueSplit_follows (s : Store) (callId : String) (t : ℕ) (creator : Creator)
    (hφ : φ.pending = .empty) :
    StaffFollows φ (staffRevenueSplit s callId t creator)
      (fun x φ' => φ'.pending = x.2 ∧ x.2.Ordered) fun _ φ' => φ'.pending = .empty := by
  have hnone : φ.pending = Pending.empty ∧ Pending.empty.Ordered := ⟨hφ, ordered_empty⟩
  unfold staffRevenueSplit
  split
  · exact hnone
  apply follows_run (c := .statement .findAgency) trivial (fun _ _ => rfl) fun _ => hφ
  intro _ _
  split
  · exact hnone
  split
  · exact hnone
  apply follows_run (c := .resolveStaffCommissionBps _ _) trivial (fun _ _ => rfl) fun _ => hφ
  intro r _
  apply Follows.mono (creditBoth_follows s callId _ _ _ hφ)
  · intro x φ' h
    exact h
  · intro e φ' h
    exact h.elim

theorem creatorBlock_follows (q : SettleRequest) (s : Store) (t : ℕ) (hφ : φ.pending = .empty) :
    StaffFollows φ (creatorBlock q s t) (fun x φ' => φ'.pending = x.2 ∧ x.2.Ordered)
      fun _ _ => False := by
  have hnone : φ.pending = Pending.empty ∧ Pending.empty.Ordered := ⟨hφ, ordered_empty⟩
  unfold creatorBlock
  split
  · exact hnone
  apply follows_tryCatch
  have hthrow : ∀ _ : String, StaffFollows φ (pure (0, Pending.empty))
      (fun x φ' => φ'.pending = x.2 ∧ x.2.Ordered) fun _ _ => False := fun _ => hnone
  apply follows_run (c := .statement .findCreator) trivial (fun _ _ => rfl) hthrow
  intro _ _
  split
  · exact hnone
  apply follows_run (c := .statement .findCreatorUser) trivial (fun _ _ => rfl) hthrow
  intro _ _
  split
  · exact hnone
  apply follows_run (c := .statement .creditCreator) trivial (fun _ _ => rfl) hthrow
  intro _ _
  apply follows_bind
  apply Follows.mono (staffRevenueSplit_follows s q.callId t _ hφ)
  · intro x φ' h
    exact h
  · intro e φ' h
    exact ⟨h, ordered_empty⟩

theorem settleAttempts_anytime (q : SettleRequest) (attempts t : ℕ) :
    Anytime (guarded Allows Phase.next) (settleAttempts q attempts t) := by
  induction attempts generalizing t with
  | zero => exact anytime_throw _
  | succ attempts ih =>
    intro φ
    have hfail : ∀ (φ : Phase) (r : Reply) (t : ℕ), StaffFollows φ
        (if r.transient = true then settleAttempts q attempts t
          else throw "Settlement transaction failed") (fun _ _ => True) fun _ _ => True := by
      intro φ r t
      split
      · exact ih t φ
      · trivial
    unfold settleAttempts
    dsimp only
    apply follows_issue_bind
    intro r s
    refine ⟨_, guarded_of trivial, ?_⟩
    dsimp only
    split
    · exact hfail _ _ _
    apply follows_statement
    intro r' _
    dsimp only
    split
    · exact hfail _ _ _
    apply follows_bind
    apply Follows.mono (creatorBlock_follows q s t rfl)
    · rintro ⟨t', tx⟩ φ' ⟨hφ', htx⟩
      apply follows_statement
      intro r _
      dsimp only
      split
      · exact hfail _ _ _
      apply follows_issue_bind
      intro r s'
      refine ⟨_, guarded_of ⟨?_, ?_, ?_⟩, ?_⟩
      · show tx.incs = φ'.pending.incs
        rw [hφ']
      · show tx.rows = φ'.pending.rows
        rw [hφ']
      · show φ'.pending.Ordered
        rw [hφ']
        exact htx
      · split
        · trivial
        split
        · apply follows_run (c := .isCallBillingAlreadySettled _) trivial (fun _ _ => rfl) fun _ => trivial
          intro r' _
          split
          · trivial
          · exact hfail _ _ _
        · exact hfail _ _ _
    · intro e φ' h
      exact h.elim

theorem correct_follows (staffUserId : String) (expected : ℤ) (attempts : ℕ) (needsFix : Bool)
    (hφ : φ.expected = some (staffUserId, expected)) :
    StaffFollows φ (correct staffUserId expected attempts needsFix) (fun _ _ => True)
      fun _ _ => True := by
  unfold correct
  split
  · apply follows_withTransaction transactions
      (P := fun φ => φ.expected = some (staffUserId, expected))
    · intro φ r s hφ
      exact ⟨_, guarded_of trivial, hφ⟩
    · intro φ s₀ w a hφ hbody r s
      cases hbody
      exact ⟨_, guarded_of ⟨expected, hφ, rfl⟩, fun _ => ⟨trivial, fun _ => trivial⟩,
        fun _ => hφ⟩
    · intro e φ _
      trivial
    · exact hφ
  · trivial

theorem reconcileStaffBalance_anytime (cfg : ReconcileConfig) (dryRun : Bool) (attempts : ℕ)
    (staffUserId : String) : Anytime (guarded Allows Phase.next)
      (reconcileStaffBalance cfg dryRun attempts staffUserId) := by
  intro φ
  apply follows_guarded_bind
  · trivial
  · exact fun _ _ => trivial
  intro r s hr
  rw [Reply.ok, Bool.and_eq_true] at hr
  have hφ : (φ.next (.aggregate staffUserId) r s).expected =
      some (staffUserId, s.net staffUserId) := by
    rw [Phase.next, if_pos hr.1]
  apply follows_run (c := .findUser staffUserId) trivial (fun _ _ => rfl) fun _ => trivial
  intro _ s'
  apply follows_bind
  apply Follows.mono (correct_follows staffUserId _ attempts _ hφ)
  · simp [Allows, run]
  · intro _ _ _
    trivial

theorem reconcileEach_anytime (cfg : ReconcileConfig) (dryRun : Bool) (attempts : ℕ)
    (ids : List String) (summary : StaffWalletReconciliationSummary) :
    Anytime (guarded Allows Phase.next)
      (reconcileEach cfg dryRun attempts ids summary) := by
  induction ids generalizing summary with
  | nil => exact anytime_pure _
  | cons staffUserId rest ih =>
    apply anytime_bind
      (anytime_attempt (reconcileStaffBalance_anytime cfg dryRun attempts staffUserId))
    intro x
    exact ih _

theorem program_follows (q : Request) :
    (program q).Follows (guarded Allows Phase.next) .start fun _ _ => True := by
  cases q with
  | settleCall q => exact Follows.run (settleAttempts_anytime q _ _ _)
  | reconcileStaffBalance cfg dryRun attempts staffUserId =>
    exact Follows.run (reconcileStaffBalance_anytime cfg dryRun attempts staffUserId _)
  | reconcileAllStaffBalances cfg dryRun attempts =>
    apply Follows.run
    apply follows_bind
    apply follows_run (c := .distinctStaffUserIds) trivial (fun _ _ => rfl) fun _ => trivial
    intro _ _
    apply follows_run (c := .findBalanceUsers) trivial (fun _ _ => rfl) fun _ => trivial
    intro _ _
    exact reconcileEach_anytime cfg dryRun attempts _ _ _

end protocol

/-! ### Wallets and the ledger -/

/-- The wallet of every staff user is its ledger credits minus its debits. -/
def Store.Balanced (s : Store) : Prop :=
  ∀ userId v, s.balance userId = some v → (v : ℤ) = s.net userId

def due (shares : List Share) (userId : String) : ℕ :=
  ((shares.filter fun p => p.staffUserId == userId).map Share.coins).sum

def committed (c : Cmd) (r : Reply) (s : Store) : Option Write :=
  match c with
  | .commit (some w) => if (r.delivered && !w.conflicts s) = true then some w else none
  | _ => none

/-- No share was paid to a staff user without its row, and a wallet is set to the ledger sum that it
has when it is set. -/
def Write.Undisturbed (φ : Phase) (s : Store) : Write → Prop
  | .settle _ => ∀ p ∈ φ.pending.incs, p ∈ φ.pending.rows ∨ s.user p.staffUserId = none
  | .setBalance staffUserId _ =>
    s.user staffUserId = none ∨ φ.expected = some (staffUserId, s.net staffUserId)

instance (φ : Phase) (s : Store) : DecidablePred (Write.Undisturbed φ s) := fun w =>
  match w with
  | .settle _ => inferInstanceAs (Decidable (∀ p ∈ _, p ∈ _ ∨ _ = none))
  | .setBalance _ _ => inferInstanceAs (Decidable (_ = none ∨ _ = some _))

def Undisturbed (x : Phase × Event Cmd Reply Store) : Prop :=
  ∀ w ∈ committed x.2.cmd x.2.ans x.2.before, w.Undisturbed x.1 x.2.before

instance : DecidablePred Undisturbed := fun _ => inferInstanceAs (Decidable (∀ w ∈ _, _))

def Write.increases (s : Store) : Write → List Share
  | .settle w => w.incs.filter fun p => (s.user p.staffUserId).isSome
  | .setBalance _ _ => []

def Write.rows : Write → List Share
  | .settle w => w.rows
  | .setBalance _ _ => []

def increased (log : List (Phase × Event Cmd Reply Store)) : List Share :=
  log.flatMap fun x =>
    (committed x.2.cmd x.2.ans x.2.before).elim [] fun w => w.increases x.2.before

def written (log : List (Phase × Event Cmd Reply Store)) : List Share :=
  log.flatMap fun x => (committed x.2.cmd x.2.ans x.2.before).elim [] Write.rows

variable {s t : Store} {φ : Phase} {c : Cmd} {r : Reply} {w : Settlement} {userId : String}

theorem exec_eq : c.exec r t = (committed c r t).elim t fun w => w.exec t := by
  cases c with
  | commit w =>
    cases w with
    | none => rfl
    | some w =>
      show (if (r.delivered && !w.conflicts t) = true then w.exec t else t) =
        (if (r.delivered && !w.conflicts t) = true then some w else none).elim t _
      split
      · rfl
      · rfl
  | _ => rfl

theorem committed_some {w : Write} (h : committed c r t = some w) :
    c = .commit (some w) ∧ w.conflicts t = false := by
  unfold committed at h
  split at h
  · split at h
    · rename_i happlied
      cases h
      rw [Bool.and_eq_true, Bool.not_eq_true'] at happlied
      exact ⟨rfl, happlied.2⟩
    · cases h
  · cases h

/-! ### What a settlement does -/

theorem balance_inc (p : Share) :
    (t.inc p).balance userId =
      (t.balance userId).map fun v => v + if p.staffUserId = userId then p.coins else 0 := by
  have hkeeps : ∀ u : User,
      User.id { u with staffCoinsBalance := u.staffCoinsBalance + p.coins } = u.id := fun _ => rfl
  rw [Store.balance, Store.user, Store.inc, Mongo.find?_update hkeeps, Store.balance, Store.user]
  split
  · rw [Option.map_map, Option.map_map]
    rfl
  · rw [Option.map_map]
    rfl

theorem due_cons (p : Share) (ps : List Share) :
    due (p :: ps) userId = (if p.staffUserId = userId then p.coins else 0) + due ps userId := by
  rw [due, List.filter_cons]
  by_cases h : p.staffUserId = userId
  · rw [if_pos (beq_iff_eq.2 h), if_pos h]
    rfl
  · rw [if_neg (mt beq_iff_eq.1 h), if_neg h, zero_add]
    rfl

theorem due_append (ps qs : List Share) :
    due (ps ++ qs) userId = due ps userId + due qs userId := by
  rw [due, List.filter_append, List.map_append, List.sum_append]
  rfl

theorem balance_incs (ps : List Share) :
    (ps.foldl Store.inc t).balance userId = (t.balance userId).map fun v => v + due ps userId := by
  induction ps generalizing t with
  | nil =>
    show t.balance userId = _
    cases t.balance userId with
    | _ => rfl
  | cons p ps ih =>
    rw [List.foldl_cons, ih, balance_inc, Option.map_map]
    congr 1
    funext v
    show v + _ + due ps userId = v + due (p :: ps) userId
    rw [due_cons, add_assoc]

theorem balance_settle :
    (t.settle w).balance userId = (t.balance userId).map fun v => v + due w.incs userId :=
  balance_incs w.incs

theorem due_filter (h : (t.balance userId).isSome = true) (ps : List Share) :
    due (ps.filter fun p => (t.user p.staffUserId).isSome) userId = due ps userId := by
  rw [due, due, List.filter_filter]
  congr 2
  apply List.filter_congr
  intro p _
  by_cases hp : p.staffUserId = userId
  · have hsome : (t.user p.staffUserId).isSome = true := by
      simpa [hp, Store.balance] using h
    rw [hsome, Bool.and_true]
  · rw [beq_eq_false_iff_ne.2 hp, Bool.false_and]

theorem settle_rows (hw : w.conflicts t = false) (hkeys : (w.rows.map Share.key).Nodup) :
    (t.settle w).ledger.rows = t.ledger.rows ++ w.rows.map Share.row := by
  rw [Settlement.conflicts, Bool.or_eq_false_iff, List.any_eq_false, List.any_eq_false] at hw
  apply Mongo.Unique.insertAll_rows
  · intro d hd
    obtain ⟨p, hp, rfl⟩ := List.mem_map.1 hd
    have hfree := hw.2 p hp
    rw [Bool.not_eq_true, Option.isSome_eq_false_iff, Option.isNone_iff_eq_none] at hfree
    exact hfree
  · rw [List.map_map]
    exact hkeys

theorem total_settle (direction : Direction)
    (hrows : (t.settle w).ledger.rows = t.ledger.rows ++ w.rows.map Share.row) :
    (t.settle w).total direction userId =
      t.total direction userId + if direction = .credit then due w.rows userId else 0 := by
  rw [Store.total, hrows, List.filter_append, List.map_append, List.sum_append, List.filter_map,
    List.map_map]
  congr 1
  cases direction with
  | credit =>
    congr 2
    apply List.filter_congr
    intro p _
    show (p.staffUserId == userId && true) = (p.staffUserId == userId)
    rw [Bool.and_true]
  | debit =>
    have hnil : w.rows.filter ((fun t : StaffWalletLedger =>
        t.staffUserId == userId && t.direction == .debit) ∘ Share.row) = [] := by
      rw [List.filter_eq_nil_iff]
      intro p _
      show ¬ (p.staffUserId == userId && false) = true
      simp
    rw [hnil]
    rfl

theorem net_settle
    (hrows : (t.settle w).ledger.rows = t.ledger.rows ++ w.rows.map Share.row) :
    (t.settle w).net userId = t.net userId + due w.rows userId := by
  have hne : ¬ Direction.debit = .credit := nofun
  rw [Store.net, total_settle .credit hrows, total_settle .debit hrows, if_pos rfl, if_neg hne,
    Store.net]
  push_cast
  ring

theorem Pending.Ordered.filter_eq (h : tx.Ordered)
    (hrow : ∀ p ∈ tx.incs, p ∈ tx.rows ∨ t.user p.staffUserId = none) :
    (tx.incs.filter fun p => (t.user p.staffUserId).isSome) =
      tx.rows.filter fun p => (t.user p.staffUserId).isSome := by
  symm
  apply (h.rows.filter _).eq_of_length_le
  apply List.Subperm.length_le
  apply List.subperm_of_subset
  · exact (List.Nodup.of_map _ h.keys).filter _
  · intro p hp
    rw [List.mem_filter] at hp ⊢
    rcases hrow p hp.1 with hmem | hnone
    · exact ⟨hmem, hp.2⟩
    · rw [hnone] at hp
      cases hp.2

/-! ### Whole runs -/

structure Crediting (s : Store) (l : List (Phase × Event Cmd Reply Store)) (t : Store) : Prop where
  balanced : t.Balanced
  rows : t.ledger.rows = s.ledger.rows ++ (written l).map Share.row
  paid : (increased l).Sublist (written l)
  wallets : ∀ userId, t.balance userId =
    (s.balance userId).map fun v => v + due (increased l) userId

variable {l : List (Phase × Event Cmd Reply Store)}

theorem crediting_start (hs : s.Balanced) : Crediting s [] s := by
  constructor
  · exact hs
  · show s.ledger.rows = s.ledger.rows ++ []
    rw [List.append_nil]
  · exact List.Sublist.refl _
  · intro userId
    cases s.balance userId with
    | _ => rfl

theorem increased_snoc (x : Phase × Event Cmd Reply Store) :
    increased (l ++ [x]) = increased l ++
      (committed x.2.cmd x.2.ans x.2.before).elim [] fun w => w.increases x.2.before := by
  rw [increased, List.flatMap_append, List.flatMap_singleton]
  rfl

theorem written_snoc (x : Phase × Event Cmd Reply Store) :
    written (l ++ [x]) =
      written l ++ (committed x.2.cmd x.2.ans x.2.before).elim [] Write.rows := by
  rw [written, List.flatMap_append, List.flatMap_singleton]
  rfl

/-- **A settlement.** -/
theorem Crediting.settle (h : Crediting s l t) (hw : w.conflicts t = false)
    (hincs : w.incs = φ.pending.incs) (hrows : w.rows = φ.pending.rows) (htx : φ.pending.Ordered)
    (hG : (Write.settle w).Undisturbed φ t) {x : Phase × Event Cmd Reply Store}
    (hx : committed x.2.cmd x.2.ans x.2.before = some (.settle w)) (hbefore : x.2.before = t) :
    Crediting s (l ++ [x]) (t.settle w) := by
  have hkeys : (w.rows.map Share.key).Nodup := by
    rw [hrows]
    exact htx.keys.sublist (htx.rows.map _)
  have hnew := settle_rows hw hkeys
  have hpaid : (w.incs.filter fun p => (t.user p.staffUserId).isSome) =
      w.rows.filter fun p => (t.user p.staffUserId).isSome := by
    rw [hincs, hrows]
    exact htx.filter_eq hG
  constructor
  · intro userId v hv
    rw [balance_settle, Option.map_eq_some_iff] at hv
    obtain ⟨old, hold, rfl⟩ := hv
    have hsome : (t.balance userId).isSome = true := by
      rw [hold]
      rfl
    have hdue : due w.incs userId = due w.rows userId := by
      rw [← due_filter hsome, hpaid, due_filter hsome]
    rw [net_settle hnew, ← h.balanced userId old hold, hdue]
    push_cast
    rfl
  · rw [written_snoc, hx, hnew, h.rows, List.map_append, List.append_assoc]
    rfl
  · rw [increased_snoc, written_snoc, hx, hbefore]
    apply h.paid.append
    show (w.incs.filter fun p => (t.user p.staffUserId).isSome).Sublist w.rows
    rw [hpaid]
    exact List.filter_sublist
  · intro userId
    have hinc : increased (l ++ [x]) =
        increased l ++ w.incs.filter fun p => (t.user p.staffUserId).isSome := by
      rw [increased_snoc, hx, hbefore]
      rfl
    rw [balance_settle, hinc, due_append]
    cases hold : t.balance userId with
    | none =>
      have hwallets := h.wallets userId
      rw [hold] at hwallets
      have hnone := Option.map_eq_none_iff.1 hwallets.symm
      rw [hnone]
      rfl
    | some old =>
      have hsome : (t.balance userId).isSome = true := by
        rw [hold]
        rfl
      rw [due_filter hsome]
      have hwallets := h.wallets userId
      rw [hold] at hwallets
      obtain ⟨v, hv, hsum⟩ := Option.map_eq_some_iff.1 hwallets.symm
      rw [hv, Option.map_some, Option.map_some, ← hsum, add_assoc]

theorem balance_setBalance {v : ℕ} (ht : t.Balanced)
    (hv : t.user userId = none ∨ v = (max 0 (t.net userId)).toNat) (id : String) :
    (t.setBalance userId v).balance id = t.balance id := by
  have hkeeps : ∀ u : User, User.id { u with staffCoinsBalance := v } = u.id := fun _ => rfl
  rw [Store.balance, Store.user, Store.setBalance, Mongo.find?_update hkeeps]
  split
  · rename_i hid
    subst hid
    show Option.map _ ((t.user userId).map _) = (t.user userId).map _
    cases hu : t.user userId with
    | none => rfl
    | some u =>
      rw [hu] at hv
      have hv := hv.resolve_left nofun
      have hbalance : t.balance userId = some u.staffCoinsBalance := by
        rw [Store.balance, hu]
        rfl
      have hnet := ht userId _ hbalance
      show some v = some u.staffCoinsBalance
      congr 1
      omega
  · rfl

/-- **One command.** -/
theorem Crediting.step (h : Crediting s l t) (hA : Allows φ c)
    (hG : Undisturbed (φ, ⟨t, c, r, c.exec r t⟩)) :
    Crediting s (l ++ [(φ, ⟨t, c, r, c.exec r t⟩)]) (c.exec r t) := by
  rw [exec_eq]
  cases hcommitted : committed c r t with
  | none =>
    have hinc : increased (l ++ [(φ, ⟨t, c, r, t⟩)]) = increased l := by
      simp [increased_snoc, hcommitted]
    have hwritten : written (l ++ [(φ, ⟨t, c, r, t⟩)]) = written l := by
      simp [written_snoc, hcommitted]
    constructor
    · exact h.balanced
    · rw [Option.elim_none, hwritten]
      exact h.rows
    · rw [Option.elim_none, hinc, hwritten]
      exact h.paid
    · intro userId
      rw [Option.elim_none, hinc]
      exact h.wallets userId
  | some w =>
    obtain ⟨rfl, hconflicts⟩ := committed_some hcommitted
    have hundisturbed := hG w hcommitted
    cases w with
    | settle w =>
      obtain ⟨hincs, hrows, htx⟩ := hA
      exact h.settle hconflicts hincs hrows htx hundisturbed hcommitted rfl
    | setBalance staffUserId v =>
      obtain ⟨expected, hexpected, rfl⟩ := hA
      have hv : t.user staffUserId = none ∨
          (max 0 expected).toNat = (max 0 (t.net staffUserId)).toNat := by
        rcases hundisturbed with hnone | hsum
        · exact .inl hnone
        · have hread : expected = t.net staffUserId :=
            congrArg Prod.snd (Option.mem_unique hexpected hsum)
          right
          rw [hread]
      have hbalance := balance_setBalance h.balanced hv
      have hinc : ∀ e, increased (l ++ [(φ, ⟨t, .commit (some (.setBalance staffUserId
          (max 0 expected).toNat)), r, e⟩)]) = increased l := by
        intro e
        rw [increased_snoc, hcommitted]
        exact List.append_nil _
      have hwritten : ∀ e, written (l ++ [(φ, ⟨t, .commit (some (.setBalance staffUserId
          (max 0 expected).toNat)), r, e⟩)]) = written l := by
        intro e
        rw [written_snoc, hcommitted]
        exact List.append_nil _
      constructor
      · intro userId v hv
        have hv : (t.setBalance staffUserId (max 0 expected).toNat).balance userId = some v := hv
        rw [hbalance] at hv
        exact h.balanced userId v hv
      · rw [hwritten]
        exact h.rows
      · rw [hinc, hwritten]
        exact h.paid
      · intro userId
        rw [hinc]
        exact (hbalance userId).trans (h.wallets userId)

def staffRun (s : Store) (ms : List (Move Request Reply)) : Pool Cmd Reply Store :=
  (Pool.start s).play Cmd.exec program ms

def watchedStaff (s : Store) (ms : List (Move Request Reply)) : Watched Phase Cmd Reply Store :=
  (Watched.start s).play Phase.next (fun _ => .start) Cmd.exec program ms

structure Credited (s : Store) (ms : List (Move Request Reply)) : Prop where
  balanced : (staffRun s ms).store.Balanced
  once : ∀ callId role, (increased (watchedStaff s ms).log).countP
    (fun p => p.callId == callId && p.role == role) ≤ 1
  row : ∀ p ∈ increased (watchedStaff s ms).log, p.row ∈ (staffRun s ms).store.ledger.rows
  wallets : ∀ userId, (staffRun s ms).store.balance userId =
    (s.balance userId).map fun v => v + due (increased (watchedStaff s ms).log) userId

theorem countP_le_one_of_rows {l : List Share} {rows : List StaffWalletLedger}
    (hrows : t.ledger.rows = rows ++ l.map Share.row) (callId : String) (role : StaffRole) :
    l.countP (fun p => p.callId == callId && p.role == role) ≤ 1 := by
  have hone := t.ledger.countP_le_one (Share.key ⟨callId, role, "", 0⟩)
  rw [hrows, List.countP_append, List.countP_map] at hone
  have hle : l.countP (fun p => p.callId == callId && p.role == role) ≤
      l.countP ((fun d : StaffWalletLedger => d.idempotencyKey == Share.key ⟨callId, role, "", 0⟩) ∘
        Share.row) := by
    apply List.countP_mono_left
    intro p _ hp
    rw [Bool.and_eq_true, beq_iff_eq, beq_iff_eq] at hp
    show (p.key == Share.key ⟨callId, role, "", 0⟩) = true
    rw [beq_iff_eq, ← hp.1, ← hp.2]
    rfl
  omega

/-- **Staff revenue is paid once, and the wallets are the ledger.**  In every run in which no share is
committed without its row, and every correction writes a sum that the ledger still has. -/
theorem credited_run (s : Store) (hs : s.Balanced) (ms : List (Move Request Reply))
    (hG : ∀ x ∈ (watchedStaff s ms).log, Undisturbed x) : Credited s ms := by
  obtain ⟨-, -, hJ⟩ := Watched.play_watched (Crediting s) Undisturbed program_follows
    (crediting_start hs) (fun l t φ c r h hA hG => h.step hA hG) ms hG
  have hpool : (watchedStaff s ms).pool = staffRun s ms := by
    rw [watchedStaff, Watched.play_pool]
    rfl
  have hJ : Crediting s (watchedStaff s ms).log (watchedStaff s ms).pool.store := hJ
  rw [hpool] at hJ
  constructor
  · exact hJ.balanced
  · intro callId role
    exact hJ.paid.countP_le.trans (countP_le_one_of_rows hJ.rows callId role)
  · intro p hp
    rw [hJ.rows]
    exact List.mem_append_right _ (List.mem_map_of_mem (hJ.paid.subset hp))
  · exact hJ.wallets

def sampleStore : Store :=
  { users := [⟨"host", "creator", none, 0⟩, ⟨"agency", "agency", some "bd", 0⟩, ⟨"bd", "bd", none, 0⟩]
    creators := [⟨"c", "host", some "agency"⟩]
    ledger := .empty }

theorem sampleStore_balanced : sampleStore.Balanced := by
  intro userId v hv
  obtain ⟨u, hu, rfl⟩ := Option.map_eq_some_iff.1 hv
  have hmem := List.mem_of_find?_eq_some hu
  have hzero : ∀ u ∈ sampleStore.users, u.staffCoinsBalance = 0 := by
    decide
  rw [hzero u hmem]
  rfl

def answered : Reply := ⟨true, true, false, false, 500, 1000, false⟩

def settleTwice : List (Move Request Reply) :=
  [Move.spawn (Request.settleCall ⟨"call", "c", 1000⟩)] ++
      List.replicate 15 (Move.step 0 answered) ++
    [Move.spawn (Request.settleCall ⟨"call", "c", 1000⟩)] ++
      List.replicate 11 (Move.step 1 answered) ++
    [Move.spawn (Request.reconcileAllStaffBalances ⟨none, true⟩ false 1)] ++
      List.replicate 11 (Move.step 2 answered)

theorem credited_settleTwice : Credited sampleStore settleTwice := by
  apply credited_run
  · exact sampleStore_balanced
  · decide +kernel

def quiet (w : Pool Cmd Reply Store) : Bool :=
  w.procs.all fun p => match p with
    | .ret _ => true
    | .act _ _ => false

def settleDuringReconciliation : List (Move Request Reply) :=
  [Move.spawn (Request.reconcileStaffBalance ⟨none, true⟩ false 1 "bd"), Move.step 0 answered,
    Move.spawn (Request.settleCall ⟨"call", "c", 1000⟩)] ++
    List.replicate 15 (Move.step 1 answered) ++
    List.replicate 4 (Move.step 0 answered)

theorem settlement_overwritten :
    sampleStore.Balanced ∧ quiet (staffRun sampleStore settleDuringReconciliation) = true ∧
      ¬ (staffRun sampleStore settleDuringReconciliation).store.Balanced := by
  refine ⟨sampleStore_balanced, ?_, ?_⟩
  · decide +kernel
  · intro h
    have hbalance : (staffRun sampleStore settleDuringReconciliation).store.balance "bd" =
        some 0 := by
      decide +kernel
    have hnet : (staffRun sampleStore settleDuringReconciliation).store.net "bd" = 50 := by
      decide +kernel
    have heq := h "bd" 0 hbalance
    rw [hnet] at heq
    revert heq
    decide

end VibemeetBackend.Staff
