import VibemeetBackend.Async.Watch
import VibemeetBackend.Membership.Entitlement

/-!
# Whether a paid order extends the membership

A finalizer reads the row of its order with `lean()` before its transaction, and inside the
transaction it saves a row that it read as pending.  A plain object has no `save`, so the transaction
of an order with a pending row is always aborted.
-/

namespace VibemeetBackend.Membership

open Async Flow Pool

/-! ### What the finalizations of some orders should do -/

structure PaidOrder extends FinalizeInput where
  days : ℕ

def extendedBy (p : Product) (m : Option MembershipDoc) :
    List (PaidOrder × ℤ) → Option MembershipDoc
  | [] => m
  | (o, now) :: rest =>
    extendedBy p (some (purchasedMembership p o.toFinalizeInput o.days now m)) rest

/-- From `s` to `t`, every order was completed, and the expiry was extended by each of them once. -/
structure ExtendedOnce (p : Product) (orders : List PaidOrder) (s t : Store) : Prop where
  completed : ∀ o ∈ orders, ∃ row, t.row (p.txnId o.orderId) = some row ∧ row.status = .completed
  extended : ∃ purchases : List (PaidOrder × ℤ), (purchases.map Prod.fst).Perm orders ∧
    t.membership.map MembershipDoc.expiresAt =
      (extendedBy p s.membership purchases).map MembershipDoc.expiresAt

/-- A finalizer is called for one of the orders, whose pending row was created before. -/
def FindsRow (p : Product) (orders : List PaidOrder) (e : Event Cmd Reply Store) : Prop :=
  ∀ id, e.cmd = .findPlainTransaction id →
    ∃ o ∈ orders, id = p.txnId o.orderId ∧ (e.before.row id).isSome

/-! ### What a finalizer may commit -/

abbrev RowRead : Type := Option (Option PurchaseRow)

def RowRead.next (φ : RowRead) (c : Cmd) (_ : Reply) (s : Store) : RowRead :=
  match c with
  | .findPlainTransaction id => some (s.row id)
  | _ => φ

def RowAllows (φ : RowRead) : Cmd → Prop
  | .commit _ => ∃ read, φ = some read ∧ ∀ row, read = some row → row.status ≠ .pending
  | .createTransaction row => row.status = .pending
  | _ => True

section protocol

variable {α : Type} {φ : RowRead}

abbrev RowFollows (φ : RowRead) (p : MemberFlow α) : Prop :=
  Follows (guarded RowAllows RowRead.next) φ p (fun _ _ => True) fun _ _ => True

def Cmd.ofCheck : Cmd → Prop
  | .commit _ | .createTransaction _ => False
  | _ => True

theorem anytime_ofCheck {p : MemberFlow α} (hp : Issues (fun _ => True) Cmd.ofCheck p) :
    Anytime (guarded RowAllows RowRead.next) p := by
  apply anytime_of_issues hp
  intro c hc φ r s
  refine ⟨_, guarded_of ?_⟩
  cases c with
  | commit w => exact hc.elim
  | createTransaction row => exact hc.elim
  | _ => trivial

theorem issues_tell {c : Cmd} (hc : c.ofCheck) :
    Issues (fun _ => True) Cmd.ofCheck (tell c) := ⟨hc, fun _ _ _ => trivial⟩

theorem issues_clock_bind (use : ClockUse) {f : ℤ → MemberFlow α}
    (hf : ∀ now, Issues (fun _ => True) Cmd.ofCheck (f now)) :
    Issues (fun _ => True) Cmd.ofCheck (clock use >>= f) :=
  ⟨trivial, fun _ s _ => hf s.now⟩

theorem cacheActive_ofCheck (active : Bool) (expiresAt : Option ℤ) :
    Issues (fun _ => True) Cmd.ofCheck (cacheActive active expiresAt) := by
  unfold cacheActive
  split
  · exact issues_clock_bind .ttl fun now => issues_tell trivial
  · exact issues_tell trivial

theorem markExpired_ofCheck (lapsed : Bool) :
    Issues (fun _ => True) Cmd.ofCheck (markExpired lapsed) := by
  simp [markExpired, Cmd.ofCheck, run]

variable (flags : Flags)

theorem vipActive_ofCheck : Issues (fun _ => True) Cmd.ofCheck (isVipActive flags) := by
  unfold isVipActive
  split
  · trivial
  apply issues_call_bind trivial
  intro _ s _
  dsimp only
  split
  · trivial
  apply issues_call_bind trivial
  intro _ s _
  dsimp only
  split
  · exact issues_bind (cacheActive_ofCheck _ _) fun _ => trivial
  apply issues_clock_bind .active
  intro now
  apply issues_bind (markExpired_ofCheck _)
  exact fun _ => issues_bind (cacheActive_ofCheck _ _) fun _ => trivial

theorem vipStatus_ofCheck : Issues (fun _ => True) Cmd.ofCheck (getVipStatus flags) := by
  apply issues_call_bind trivial
  intro _ _ _
  apply issues_call_bind trivial
  intro _ s _
  apply issues_clock_bind .active
  intro now
  apply issues_bind (markExpired_ofCheck _)
  simp [freeMomentsToday, getRemainingFreeMoments, vipActive_ofCheck, Cmd.ofCheck, run]

theorem load_ofCheck :
    Issues (fun _ => True) Cmd.ofCheck loadMembershipWithExpiryNormalization := by
  apply issues_call_bind trivial
  intro _ s _
  dsimp only
  split
  · trivial
  apply issues_clock_bind .expiry
  intro now
  split
  · apply issues_bind
    · exact issues_call_bind trivial fun _ _ _ =>
        issues_call_bind trivial fun _ _ _ => issues_tell trivial
    · exact fun _ => trivial
  · trivial

theorem momentsActive_ofCheck :
    Issues (fun _ => True) Cmd.ofCheck (isMomentsPremiumActive flags) := by
  unfold isMomentsPremiumActive
  split
  · trivial
  apply issues_call_bind trivial
  intro _ s _
  dsimp only
  split
  · trivial
  apply issues_bind load_ofCheck
  intro membership
  split
  · exact issues_bind (cacheActive_ofCheck _ _) fun _ => trivial
  · exact issues_clock_bind .active fun now =>
      issues_bind (cacheActive_ofCheck _ _) fun _ => trivial

theorem momentsStatus_ofCheck :
    Issues (fun _ => True) Cmd.ofCheck (getMomentsPremiumStatus flags) := by
  unfold getMomentsPremiumStatus
  split
  · trivial
  apply issues_bind load_ofCheck
  intro membership
  split
  · trivial
  apply issues_clock_bind .active
  intro now
  split <;> trivial

theorem follows_other {c : Cmd} {f : Reply × Store → MemberFlow α} (hc : c.ofCheck)
    (hread : ∀ id, c ≠ .findPlainTransaction id) (h : ∀ r s, RowFollows φ (f (r, s))) :
    RowFollows φ (run c >>= f) := by
  apply follows_keep_bind
  · intro r s
    have hnext : φ.next c r s = φ := by
      cases c with
      | findPlainTransaction id => exact absurd rfl (hread id)
      | _ => rfl
    rw [guarded_of, hnext]
    cases c with
    | commit w => exact hc.elim
    | createTransaction row => exact hc.elim
    | _ => trivial
  · trivial
  · exact h

theorem finalize_follows (p : Product) (input : FinalizeInput) (attempts : ℕ) :
    RowFollows none (finalizePurchaseAtomically p input attempts) := by
  apply follows_guarded_bind trivial
  · intro r s
    trivial
  intro r s _
  dsimp only
  split
  · apply follows_other (c := .findMembership) trivial (fun id h => nomatch h)
    intro r' s'
    split <;> simp
  apply follows_other (c := .getPlan input.planId) trivial (fun id h => nomatch h)
  intro r' s' rc sc
  refine ⟨_, guarded_of trivial, ?_⟩
  let read : RowRead := some (s.row (p.txnId input.orderId))
  show RowFollows read _
  apply follows_bind
  apply follows_withTransaction transactions (P := fun φ => φ = read)
  · rintro φ r₁ s₁ rfl
    exact ⟨_, guarded_of trivial, rfl⟩
  · rintro φ s₀ w a rfl hok r₁ s₁
    refine ⟨_, guarded_of ?_, ?_, fun _ => rfl⟩
    · refine ⟨_, rfl, ?_⟩
      intro row hrow hpending
      rw [hrow] at hok
      exact purchase_pending hpending hok
    · exact fun _ => ⟨fun r₂ s₂ => ⟨_, guarded_of trivial, trivial⟩, fun _ => trivial⟩
  · intro _ _ _
    trivial
  · rfl

theorem createPending_follows (p : Product) (orderId : String) (priceInr : ℕ) (planId : String) :
    RowFollows none (createPendingTransaction p orderId priceInr planId) := by
  apply follows_other (c := .findTransaction (p.txnId orderId)) trivial (fun id h => nomatch h)
  intro r s
  dsimp only
  split
  · trivial
  · exact fun r' s' => ⟨_, guarded_of rfl, by
      show Prog.Follows _ _ (ExceptT.bindCont _ (if r'.ok = true then _ else _)) _
      split <;> trivial⟩

theorem program_follows (p : Product) (flags : Flags) (q : Request) :
    (program p flags q).Follows (guarded RowAllows RowRead.next) none fun _ _ => True := by
  cases q with
  | finalize input attempts => exact Follows.run (finalize_follows p input attempts)
  | createPending orderId priceInr planId =>
    exact Follows.run (createPending_follows p orderId priceInr planId)
  | isActive =>
    cases p with
    | vip => exact Follows.run (anytime_ofCheck (vipActive_ofCheck flags) none)
    | momentsPremium => exact Follows.run (anytime_ofCheck (momentsActive_ofCheck flags) none)
  | getStatus =>
    cases p with
    | vip => exact Follows.run (anytime_ofCheck (vipStatus_ofCheck flags) none)
    | momentsPremium => exact Follows.run (anytime_ofCheck (momentsStatus_ofCheck flags) none)
  | pass ms => exact fun r s => ⟨_, guarded_of trivial, trivial⟩

end protocol

/-! ### Whole runs -/

/-- What holds of the requests in progress and the store: no order is completed, no membership was
extended. -/
structure Unextended (p : Product) (orders : List PaidOrder) (s : Store) (φs : List RowRead)
    (t : Store) : Prop where
  rows : ∀ o ∈ orders, ∀ row, t.row (p.txnId o.orderId) = some row → row.status = .pending
  phases : ∀ (i : ℕ) (read : Option PurchaseRow), φs[i]? = some (some read) →
    ∃ row, read = some row ∧ row.status = .pending
  expiry : t.membership.map MembershipDoc.expiresAt = s.membership.map MembershipDoc.expiresAt

section runs

variable {p : Product} {orders : List PaidOrder} {s t : Store} {φs : List RowRead} {i : ℕ}
  {φ : RowRead} {c : Cmd} {r : Reply}

theorem row_insertRow {row row' : PurchaseRow} {id : String}
    (h : (t.insertRow row).row id = some row') : t.row id = some row' ∨ row' = row := by
  grind [Store.insertRow, Store.row]

theorem Unextended.spawn (h : Unextended p orders s φs t) :
    Unextended p orders s (φs ++ [none]) t := by
  refine { h with phases := ?_ }
  intro i read hi
  rcases getElem?_snoc_cases hi with hi | hnone
  · exact h.phases i read hi
  · cases hnone

theorem Unextended.no_commit (h : Unextended p orders s φs t) (hi : φs[i]? = some φ)
    (w : Option Purchase) : ¬ RowAllows φ (.commit w) := by
  rintro ⟨read, rfl, hnot⟩
  obtain ⟨row, hrow, hpending⟩ := h.phases i read hi
  exact hnot row hrow hpending

theorem Unextended.rows_step (h : Unextended p orders s φs t) (hi : φs[i]? = some φ)
    (hA : RowAllows φ c) :
    ∀ o ∈ orders, ∀ row, (c.exec r t).row (p.txnId o.orderId) = some row →
      row.status = .pending := by
  intro o ho row hrow
  rcases exec_cases c r t with ⟨ms, -, hexec⟩ | hexec | hexec
  · rw [hexec] at hrow
    exact h.rows o ho row hrow
  · rw [hexec] at hrow
    exact h.rows o ho row hrow
  · rw [hexec] at hrow
    cases c with
    | commit w => exact absurd hA (h.no_commit hi w)
    | createTransaction new =>
      rcases row_insertRow hrow with hrow | rfl
      · exact h.rows o ho row hrow
      · exact hA
    | _ => exact h.rows o ho row hrow

theorem Unextended.expiry_step (h : Unextended p orders s φs t) (hi : φs[i]? = some φ)
    (hA : RowAllows φ c) :
    (c.exec r t).membership.map MembershipDoc.expiresAt =
      s.membership.map MembershipDoc.expiresAt := by
  rcases exec_cases c r t with ⟨ms, -, hexec⟩ | hexec | hexec
  · rw [hexec]
    exact h.expiry
  · rw [hexec]
    exact h.expiry
  · rw [hexec]
    cases c with
    | commit w => exact absurd hA (h.no_commit hi w)
    | createTransaction new =>
      show (t.insertRow new).membership.map _ = _
      rw [insertRow_membership]
      exact h.expiry
    | expireMembership =>
      show (t.membership.map _).map _ = _
      rw [Option.map_map]
      exact h.expiry
    | _ => exact h.expiry

/-- **One command of a run.** -/
theorem Unextended.step (h : Unextended p orders s φs t) (hi : φs[i]? = some φ)
    (hA : RowAllows φ c) (hG : FindsRow p orders ⟨t, c, r, c.exec r t⟩) :
    Unextended p orders s (φs.set i (φ.next c r t)) (c.exec r t) := by
  refine ⟨h.rows_step hi hA, ?_, h.expiry_step hi hA⟩
  intro j read hj
  rcases getElem?_set_cases hj with ⟨-, hnext⟩ | ⟨-, hj⟩
  · cases c with
    | findPlainTransaction id =>
      obtain ⟨o, ho, hid, hsome⟩ := hG id rfl
      obtain ⟨row, hrow⟩ := Option.isSome_iff_exists.1 hsome
      have hread : some (t.row id) = some read := hnext
      have hrow : t.row id = some row := hrow
      refine ⟨row, (Option.some.inj hread).symm.trans hrow, ?_⟩
      rw [hid] at hrow
      exact h.rows o ho row hrow
    | _ =>
      have hφ : φ = some read := hnext
      rw [hφ] at hi
      exact h.phases i read hi
  · exact h.phases j read hj

/-- **A run** in which the orders have their pending rows first completes none and extends nothing. -/
theorem unextended_run (p : Product) (flags : Flags) (orders : List PaidOrder) (s : Store)
    (hrows : ∀ o ∈ orders, ∀ row, s.row (p.txnId o.orderId) = some row → row.status = .pending)
    (ms : List (Move Request Reply))
    (hfirst : ∀ e ∈ ((start s).play Cmd.exec (program p flags) ms).log,
      FindsRow p orders e) :
    ∃ φs, Unextended p orders s φs ((start s).play Cmd.exec (program p flags) ms).store := by
  let w := (Watched.start s).play RowRead.next (fun _ => none) Cmd.exec (program p flags) ms
  obtain ⟨-, hlog, -⟩ := Watched.play_phased (fun _ _ _ => True) (fun _ => True)
    (program_follows p flags) trivial (fun _ _ _ _ _ => trivial)
    (fun _ _ _ _ _ _ _ _ _ _ _ => trivial) ms fun _ _ => trivial
  have hpool : w.pool = (start s).play Cmd.exec (program p flags) ms :=
    Watched.play_pool _ ms
  have hG : ∀ x ∈ w.log, FindsRow p orders x.2 := by
    intro x hx
    apply hfirst
    rw [← hpool, ← hlog]
    exact List.mem_map_of_mem hx
  obtain ⟨-, -, hJ⟩ := Watched.play_phased (fun φs _ t => Unextended p orders s φs t)
    (fun x => FindsRow p orders x.2) (program_follows p flags)
    ⟨hrows, fun i read hi => (nomatch hi), rfl⟩ (fun φs l t q h => h.spawn)
    (fun φs l t i φ c r h hi hA hG => h.step hi hA hG) ms hG
  rw [← hpool]
  exact ⟨_, hJ⟩

/-- **Which orders are extended.**  In every run in which each order has its pending row before it is
finalized, the orders are completed and extend the membership just when there are none. -/
theorem extendedOnce_iff (p : Product) (flags : Flags) (orders : List PaidOrder) (s : Store)
    (hrows : ∀ o ∈ orders, ∀ row, s.row (p.txnId o.orderId) = some row → row.status = .pending)
    (ms : List (Move Request Reply))
    (hfirst : ∀ e ∈ ((start s).play Cmd.exec (program p flags) ms).log,
      FindsRow p orders e) :
    ExtendedOnce p orders s ((start s).play Cmd.exec (program p flags) ms).store ↔
      orders = [] := by
  obtain ⟨φs, hrun⟩ := unextended_run p flags orders s hrows ms hfirst
  constructor
  · intro h
    cases orders with
    | nil => rfl
    | cons o orders =>
      obtain ⟨row, hrow, hcompleted⟩ := h.completed o List.mem_cons_self
      have hpending := hrun.rows o List.mem_cons_self row hrow
      simp [hcompleted] at hpending
  · rintro rfl
    exact ⟨fun o ho => (nomatch ho), [], .nil, hrun.expiry⟩

end runs

/-! ### A run -/

def samplePlan : Perks := ⟨"vip_monthly", 10, 1000, 1000⟩

def sampleReply : Reply := ⟨true, true, false, some 30, samplePlan, 0⟩

def sampleOrder : PaidOrder := ⟨⟨"order", "payment", 499, "vip_monthly", some 30⟩, 30⟩

def sampleStore : Store := ⟨0, some none, none, [], none⟩

def sampleMoves : List (Move Request Reply) :=
  .spawn (.createPending "order" 499 "vip_monthly") :: .step 0 sampleReply ::
    .step 0 sampleReply :: .spawn (.finalize sampleOrder.toFinalizeInput 3) ::
    List.replicate 4 (.step 1 sampleReply)

def sampleRun : Pool Cmd Reply Store :=
  (start sampleStore).play Cmd.exec (program .vip ⟨true, true⟩) sampleMoves

theorem sampleRun_findsRow : ∀ e ∈ sampleRun.log, FindsRow .vip [sampleOrder] e := by
  have hall : (sampleRun.log.all fun e => match e.cmd with
      | .findPlainTransaction id =>
        id == Product.txnId .vip sampleOrder.orderId && (e.before.row id).isSome
      | _ => true) = true := by decide +kernel
  intro e he id hid
  have h := List.all_eq_true.1 hall e he
  rw [hid] at h
  rw [Bool.and_eq_true, beq_iff_eq] at h
  exact ⟨sampleOrder, List.mem_singleton_self _, h.1, h.2⟩

theorem extendedOnce_iff_sample :
    ExtendedOnce .vip [sampleOrder] sampleStore sampleRun.store ↔ [sampleOrder] = [] :=
  extendedOnce_iff .vip ⟨true, true⟩ [sampleOrder] sampleStore (fun _ _ _ h => nomatch h)
    sampleMoves sampleRun_findsRow

theorem pending_order_lost :
    (sampleRun.next? 1).isNone = true ∧ (∀ e ∈ sampleRun.log, e.ans.ok = true) ∧
      (sampleRun.store.row (Product.txnId .vip "order")).map PurchaseRow.status = some .pending ∧
      sampleRun.store.membership = none ∧
      ¬ ExtendedOnce .vip [sampleOrder] sampleStore sampleRun.store := by
  have hpending : (sampleRun.store.row (Product.txnId .vip "order")).map PurchaseRow.status =
      some .pending := by decide +kernel
  refine ⟨by decide +kernel, by decide +kernel, hpending, by decide +kernel, ?_⟩
  intro h
  obtain ⟨row, hrow, hcompleted⟩ := h.completed sampleOrder (List.mem_singleton_self _)
  have hrow : sampleRun.store.row (Product.txnId .vip "order") = some row := hrow
  simp [hrow, Option.map_some, hcompleted] at hpending

end VibemeetBackend.Membership
