import VibemeetBackend.Payment.CheckoutVerified

/-!
# Successful checkouts

A checkout stays successful, and is so only when a transaction of its order has completed, in every run
in which the writes without a filter leave a successful checkout alone and a verification names the
order that its checkout is attached to.
-/

namespace VibemeetBackend.Payment

open Async Flow Pool

/-! ### Polls -/

inductive PollPhase where
  | other
  | found (checkoutId orderId : String)
  | seen (checkoutId orderId : String)

def PollPhase.Permits (φ : PollPhase) : CheckoutCmd → Prop
  | .writeStatus id status =>
    (status = .success ∧ ∃ orderId, φ = .seen id orderId) ∨ status = .failed
  | .hostedResult _ status => status = .cancelled ∨ status = .failed
  | _ => True

def PollPhase.next (φ : PollPhase) (c : CheckoutCmd) (r : Reply) (s : CheckoutStore) : PollPhase :=
  match c, φ with
  | .findContext id userId, .other =>
    match (s.context id userId).bind CheckoutContext.orderId with
    | some orderId => .found id orderId
    | none => .other
  | .findTransaction userId orderId, .found id orderId' =>
    if orderId = orderId' ∧
      (s.transaction r.pick userId orderId).map CoinTx.status = some .completed then
      .seen id orderId'
    else .found id orderId'
  | _, φ => φ

variable {s : CheckoutStore} {c : CheckoutCmd} {r : Reply} {id orderId userId : String}
  {x : CheckoutContext} {α : Type}

abbrev PollFollows (φ : PollPhase) (f : CheckoutFlow α) : Prop :=
  Follows (guarded PollPhase.Permits PollPhase.next) φ f (fun _ _ => True) fun _ _ => True

theorem context_some (h : s.context id userId = some x) :
    s.checkout id = some x ∧ x.checkoutId = id := by
  unfold CheckoutStore.context at h
  split at h
  · have hid := List.find?_some h
    exact ⟨h, beq_iff_eq.1 hid⟩
  · cases h

theorem polledStatus_eq (status : CheckoutStatus) (transaction : Option CoinTx) :
    polledStatus status transaction = status ∨
      (polledStatus status transaction = .success ∧
        transaction.map CoinTx.status = some .completed) ∨
      polledStatus status transaction = .failed := by
  grind [polledStatus]

theorem pollOrder_follows (hx : x.checkoutId = id) :
    PollFollows (.found id orderId) (pollOrder userId x orderId) := by
  apply follows_guarded_bind trivial fun _ _ => trivial
  intro r s _
  dsimp only
  split
  · exact follows_pure trivial
  · rename_i hchanged
    apply follows_guarded_bind _ fun _ _ => trivial
    · exact fun _ _ _ => follows_pure trivial
    · rcases polledStatus_eq x.status (s.transaction r.pick userId orderId) with h | ⟨h, hrow⟩ | h
      · exact absurd h hchanged
      · exact .inl ⟨h, orderId, by rw [hx]; exact if_pos ⟨rfl, hrow⟩⟩
      · exact .inr h

/-- **A poll** records a success only when it has read a completed row of the order. -/
theorem poll_follows (auth : Option String) (checkoutId : String) :
    PollFollows .other (getCheckoutStatus auth checkoutId) := by
  unfold getCheckoutStatus
  split
  · exact follows_pure trivial
  split
  · exact follows_pure trivial
  apply follows_guarded_bind trivial fun _ _ => trivial
  intro r s _
  dsimp only
  split
  · exact follows_pure trivial
  rename_i user _
  apply follows_guarded_bind trivial fun _ _ => trivial
  intro r' s' _
  split
  · exact follows_pure trivial
  rename_i context hcontext
  split
  · exact follows_pure trivial
  rename_i orderId horder
  split
  · exact follows_pure trivial
  have hfound : PollPhase.next .other (.findContext checkoutId user.id) r' s' =
      .found checkoutId orderId := by
    show (match (s'.context checkoutId user.id).bind CheckoutContext.orderId with
      | some orderId => PollPhase.found checkoutId orderId
      | none => .other) = _
    rw [hcontext, Option.bind_some, horder]
  show PollFollows (PollPhase.next .other (.findContext checkoutId user.id) r' s') _
  rw [hfound]
  exact pollOrder_follows (context_some hcontext).2

theorem request_follows (cfg : PaymentConfig) (q : CheckoutRequest) :
    (checkoutProgram cfg q).Follows (guarded PollPhase.Permits PollPhase.next) .other
      fun _ _ => True := by
  have hother : ∀ {β : Type} {f : CheckoutFlow β},
      (f.Issues (fun _ => True) fun c => ∀ r s, PollPhase.next .other c r s = .other ∧
        PollPhase.Permits .other c) →
        (spawnedCheckout f).Follows (guarded PollPhase.Permits PollPhase.next) .other
          fun _ _ => True := by
    intro β f hf
    apply Follows.run
    apply Follows.mono (follows_of_issues hf _) (fun _ _ _ => trivial)
      fun _ _ _ => trivial
    intro c hc r s
    rw [guarded_of (hc r s).2, (hc r s).1]
  cases q with
  | create checkoutId userId => exact hother (issues_call fun _ _ => ⟨rfl, trivial⟩)
  | attach checkoutId orderId =>
    exact hother (attach_issues checkoutId orderId fun _ _ _ => ⟨rfl, trivial⟩)
  | hosted status decoded =>
    exact hother (hosted_issues status decoded fun _ _ h _ _ => ⟨rfl, h⟩)
  | poll auth checkoutId => exact Follows.run (poll_follows auth checkoutId)
  | write ledger users events => exact hother (issues_call fun _ _ => ⟨rfl, trivial⟩)
  | verify orderId q =>
    have hverify : Anytime (guarded PollPhase.Permits PollPhase.next)
        (verifyCheckout cfg orderId q) :=
      anytime_focus (fun φ c r s => ⟨_, guarded_of trivial⟩) _
    exact Follows.run (hverify .other)

/-! ### Commands -/

def CheckoutStore.Paid (s : CheckoutStore) (orderId : String) : Prop :=
  ∃ t ∈ s.everCompleted, checkoutSelectors orderId t = true ∨
    ∃ paymentId, (orderId, paymentId) ∈ s.signed ∧ t.paymentGatewayTransactionId = some paymentId

def CheckoutStore.Justified (s : CheckoutStore) : Prop :=
  ∀ id x, s.checkout id = some x → x.status = .success →
    ∃ orderId, x.orderId = some orderId ∧ s.Paid orderId

def Stays (e : Event CheckoutCmd Reply CheckoutStore) : Prop :=
  ∀ id x, e.before.checkout id = some x → x.status = .success → e.after.checkout id = some x

def CheckoutCmd.unfiltered : CheckoutCmd → Option (String × CheckoutStatus)
  | .writeStatus id status => some (id, status)
  | .pay _ (.recordCheckoutResult (some id) status) => some (id, status)
  | _ => none

def CheckoutCmd.verifiedOrder : CheckoutCmd → Option (Option String)
  | .pay signed _ => some (signed.map Prod.fst)
  | _ => none

/-- A status that is written without a filter: one other than success finds a checkout that is not
successful, and the success of a verification finds a checkout that is, or one of its order. -/
def Sound (e : Event CheckoutCmd Reply CheckoutStore) : Prop :=
  e.ans.delivered = true → ∀ w ∈ e.cmd.unfiltered, ∀ x ∈ e.before.checkout w.1,
    if w.2 = .success then x.status = .success ∨ ∀ order ∈ e.cmd.verifiedOrder, x.orderId = order
    else x.status ≠ .success

instance : DecidablePred Sound := fun e =>
  inferInstanceAs (Decidable (e.ans.delivered = true → ∀ w ∈ e.cmd.unfiltered,
    ∀ x ∈ e.before.checkout w.1, if w.2 = .success then
      x.status = .success ∨ ∀ order ∈ e.cmd.verifiedOrder, x.orderId = order
    else x.status ≠ .success))

theorem checkoutSelectors_of {t : CoinTx} (h : orderSelectors orderId t = true) :
    checkoutSelectors orderId t = true := by
  unfold orderSelectors buildPendingTransactionId at h
  unfold checkoutSelectors
  simp only [Bool.or_eq_true, beq_iff_eq, List.contains_eq_mem, List.mem_cons, decide_eq_true_eq]
    at h ⊢
  tauto

def CheckoutCmd.Writes (c : CheckoutCmd) (x : CheckoutContext) (status : CheckoutStatus) : Prop :=
  match c with
  | .hostedResult id st =>
    x.checkoutId = id ∧ st = status ∧ (x.status = .created ∨ x.status = .pending)
  | .writeStatus id st => x.checkoutId = id ∧ st = status
  | .pay _ (.recordCheckoutResult (some id) st) => x.checkoutId = id ∧ st = status
  | _ => False

theorem onContext_cases (c : CheckoutCmd) (x : CheckoutContext) :
    c.onContext x = x ∨
      (x.status = .created ∧
        ∃ orderId, c.onContext x = { x with orderId := some orderId, status := .pending }) ∨
      ∃ status, c.Writes x status ∧ c.onContext x = { x with status } := by
  unfold CheckoutCmd.onContext
  split
  · split
    · rename_i h
      exact .inr (.inl ⟨h.2, _, rfl⟩)
    · exact .inl rfl
  · split
    · rename_i h
      exact .inr (.inr ⟨_, ⟨h.1, rfl, h.2⟩, rfl⟩)
    · exact .inl rfl
  · split
    · rename_i h
      exact .inr (.inr ⟨_, ⟨h, rfl⟩, rfl⟩)
    · exact .inl rfl
  · split
    · rename_i h
      exact .inr (.inr ⟨_, ⟨h, rfl⟩, rfl⟩)
    · exact .inl rfl
  · exact .inl rfl

theorem checkout_id (h : s.checkout id = some x) : x.checkoutId = id := by
  have hid := List.find?_some h
  exact beq_iff_eq.1 hid

theorem writes_success {status : CheckoutStatus} (hsound : Sound ⟨s, c, r, c.exec r s⟩)
    (hr : r.delivered = true) (hx : s.checkout id = some x) (hsuccess : x.status = .success)
    (h : c.Writes x status) : status = .success := by
  have hid := checkout_id hx
  unfold CheckoutCmd.Writes at h
  split at h
  · obtain ⟨-, -, hstatus⟩ := h
    rw [hsuccess] at hstatus
    rcases hstatus with hstatus | hstatus <;> cases hstatus
  · obtain ⟨rfl, rfl⟩ := h
    by_contra hne
    have hwrite := hsound hr _ rfl x (hid ▸ hx)
    rw [if_neg hne] at hwrite
    exact hwrite hsuccess
  · obtain ⟨rfl, rfl⟩ := h
    by_contra hne
    have hwrite := hsound hr _ rfl x (hid ▸ hx)
    rw [if_neg hne] at hwrite
    exact hwrite hsuccess
  · exact h.elim

/-- **A successful checkout stays as it is** at a sound event. -/
theorem exec_stays (hsound : Sound ⟨s, c, r, c.exec r s⟩) : Stays ⟨s, c, r, c.exec r s⟩ := by
  intro id x hx hsuccess
  show (c.exec r s).checkout id = some x
  rw [exec_checkout hx]
  split
  · rename_i hr
    rcases onContext_cases c x with h | ⟨hcreated, -⟩ | ⟨status, hwrites, h⟩
    · rw [h]
    · simp [hsuccess] at hcreated
    · obtain rfl := writes_success hsound hr hx hsuccess hwrites
      rw [h, ← hsuccess]
  · rfl

def CheckoutStore.Attached (s : CheckoutStore) (id orderId : String) : Prop :=
  ∃ x, s.checkout id = some x ∧ x.orderId = some orderId

def CheckoutStore.Fresh (s : CheckoutStore) : Prop :=
  ∀ id x, s.checkout id = some x → x.status = .created → x.orderId = none

theorem exec_attached (hfresh : s.Fresh) (h : s.Attached id orderId) :
    (c.exec r s).Attached id orderId := by
  obtain ⟨x, hx, horder⟩ := h
  unfold CheckoutStore.Attached
  rw [exec_checkout hx]
  refine ⟨_, rfl, ?_⟩
  split
  · rcases onContext_cases c x with h | ⟨hcreated, -⟩ | ⟨status, -, h⟩
    · rw [h, horder]
    · simp [hfresh id x hx hcreated] at horder
    · rw [h, horder]
  · exact horder

theorem exec_paid (h : s.Paid orderId) : (c.exec r s).Paid orderId := by
  obtain ⟨hcompleted, hsigned⟩ := exec_records c r s
  obtain ⟨t, ht, hsel⟩ := h
  refine ⟨t, hcompleted t ht, hsel.imp_right ?_⟩
  rintro ⟨p, hp, hpayment⟩
  exact ⟨p, hsigned _ hp, hpayment⟩

theorem paid_of_payment {y : SignedPayment} (h : PaymentCompleted (some y) s) : s.Paid y.1 := by
  obtain ⟨z, hz, hsigned, t, ht, hsel⟩ := h
  cases hz
  refine ⟨t, ht, ?_⟩
  rcases Bool.or_eq_true_iff.1 hsel with hpayment | horder
  · exact .inr ⟨y.2, hsigned, beq_iff_eq.1 hpayment⟩
  · exact .inl (checkoutSelectors_of horder)

def PollPhase.Known (φ : PollPhase) (s : CheckoutStore) : Prop :=
  match φ with
  | .other => True
  | .found id orderId => s.Attached id orderId
  | .seen id orderId => s.Attached id orderId ∧ s.Paid orderId

variable {φ : PollPhase}

theorem known_exec (hfresh : s.Fresh) (h : φ.Known s) : φ.Known (c.exec r s) := by
  cases φ with
  | other => trivial
  | found id orderId => exact exec_attached hfresh h
  | seen id orderId => exact ⟨exec_attached hfresh h.1, exec_paid h.2⟩

theorem transaction_completed {t : CoinTx}
    (h : s.transaction r.pick userId orderId = some t) (hcompleted : t.status = .completed) :
    t ∈ (c.exec r s).everCompleted ∧ checkoutSelectors orderId t = true := by
  obtain ⟨hmem, hsel⟩ := findOne_some h
  refine ⟨List.mem_append_left _ (List.mem_append_right _ ?_), (Bool.and_eq_true_iff.1 hsel).2⟩
  exact List.mem_filter.2 ⟨hmem, beq_iff_eq.2 hcompleted⟩

theorem known_next (hfresh : s.Fresh) (h : φ.Known s) : (φ.next c r s).Known (c.exec r s) := by
  have hsame : φ.Known (c.exec r s) := known_exec hfresh h
  unfold PollPhase.next
  split
  · rename_i id userId
    cases hcontext : s.context id userId with
    | none => trivial
    | some x =>
      rw [Option.bind_some]
      cases horder : x.orderId with
      | none => trivial
      | some orderId => exact exec_attached hfresh ⟨x, (context_some hcontext).1, horder⟩
  · split
    · rename_i hseen
      obtain ⟨rfl, hrow⟩ := hseen
      obtain ⟨t, ht, hcompleted⟩ := Option.map_eq_some_iff.1 hrow
      obtain ⟨hever, hsel⟩ := transaction_completed ht hcompleted
      exact ⟨hsame, t, hever, .inl hsel⟩
    · exact hsame
  · exact hsame

theorem writes_paid (hjust : s.Justified) (hknown : φ.Known s) (hpermits : φ.Permits c)
    (hverified : VerifiedSoundly ⟨s, c, r, c.exec r s⟩) (hsound : Sound ⟨s, c, r, c.exec r s⟩)
    (hr : r.delivered = true) (hx : s.checkout id = some x) (h : c.Writes x .success) :
    ∃ orderId, x.orderId = some orderId ∧ s.Paid orderId := by
  have hid := checkout_id hx
  unfold CheckoutCmd.Writes at h
  split at h
  · obtain ⟨-, rfl, -⟩ := h
    rcases hpermits with hstatus | hstatus <;> cases hstatus
  · obtain ⟨rfl, rfl⟩ := h
    rcases hpermits with ⟨-, orderId, rfl⟩ | hstatus
    · obtain ⟨⟨y, hy, horder⟩, hpaid⟩ := hknown
      rw [hid] at hy
      obtain rfl := Option.mem_unique hx hy
      exact ⟨orderId, horder, hpaid⟩
    · cases hstatus
  · obtain ⟨rfl, rfl⟩ := h
    have hwrite := hsound hr _ rfl x (hid ▸ hx)
    rcases hwrite with hsuccess | horder
    · exact hjust id x hx hsuccess
    · obtain ⟨y, rfl, hcompleted⟩ := hverified.2 rfl
      exact ⟨y.1, horder _ rfl, paid_of_payment ⟨y, rfl, hcompleted⟩⟩
  · exact h.elim

theorem writes_notCreated (hpermits : φ.Permits c)
    (hverified : VerifiedSoundly ⟨s, c, r, c.exec r s⟩) : ¬ c.Writes x .created := by
  intro h
  unfold CheckoutCmd.Writes at h
  split at h
  · obtain ⟨-, rfl, -⟩ := h
    rcases hpermits with hstatus | hstatus <;> cases hstatus
  · obtain ⟨-, rfl⟩ := h
    rcases hpermits with ⟨hstatus, -⟩ | hstatus <;> cases hstatus
  · obtain ⟨-, rfl⟩ := h
    rcases hverified.1 _ rfl with hstatus | hstatus <;> cases hstatus
  · exact h

/-- **Success is justified** and a new checkout has no order, after a command at a sound event. -/
theorem exec_justified (hjust : s.Justified) (hfresh : s.Fresh) (hknown : φ.Known s)
    (hpermits : φ.Permits c) (hverified : VerifiedSoundly ⟨s, c, r, c.exec r s⟩)
    (hsound : Sound ⟨s, c, r, c.exec r s⟩) :
    (c.exec r s).Justified ∧ (c.exec r s).Fresh := by
  have hnew : ∀ id y, (c.exec r s).checkout id = some y →
      (y.status = .success → ∃ orderId, y.orderId = some orderId ∧ s.Paid orderId) ∧
        (y.status = .created → y.orderId = none) := by
    intro id y hy
    cases hx : s.checkout id with
    | none =>
      obtain ⟨hcreated, hnone⟩ := exec_new hx hy
      refine ⟨fun hsuccess => ?_, fun _ => hnone⟩
      simp [hcreated] at hsuccess
    | some x =>
      rw [exec_checkout hx] at hy
      cases hy
      split
      · rename_i hr
        rcases onContext_cases c x with h | ⟨-, orderId, h⟩ | ⟨status, hwrites, h⟩
        · rw [h]
          exact ⟨hjust id x hx, hfresh id x hx⟩
        · rw [h]
          exact ⟨nofun, nofun⟩
        · rw [h]
          refine ⟨fun hstatus => ?_, fun hstatus => ?_⟩
          · obtain rfl : status = .success := hstatus
            exact writes_paid (x := x) hjust hknown hpermits hverified hsound hr hx hwrites
          · obtain rfl : status = .created := hstatus
            exact absurd hwrites (writes_notCreated hpermits hverified)
      · exact ⟨hjust id x hx, hfresh id x hx⟩
  refine ⟨?_, fun id y hy => (hnew id y hy).2⟩
  intro id y hy hsuccess
  obtain ⟨orderId, horder, hpaid⟩ := (hnew id y hy).1 hsuccess
  exact ⟨orderId, horder, exec_paid hpaid⟩

/-! ### Runs -/

structure CheckoutInv (φs : List PollPhase) (l : List (Event CheckoutCmd Reply CheckoutStore))
    (s : CheckoutStore) : Prop where
  known : ∀ φ ∈ φs, φ.Known s
  justified : s.Justified
  fresh : s.Fresh
  log : ∀ e ∈ l, Stays e ∧ e.after.Justified

theorem checkoutInv_start (s : CheckoutStore) :
    CheckoutInv [] [] { s with pay := { s.pay with checkouts := [] } } := by
  have hnone : ∀ id x, CheckoutStore.checkout { s with pay := { s.pay with checkouts := [] } } id ≠
      some x := by
    intro id x hx
    have habsent : (none : Option CheckoutContext) = some x := hx
    cases habsent
  constructor
  · exact fun φ hφ => absurd hφ List.not_mem_nil
  · exact fun id x hx => absurd hx (hnone id x)
  · exact fun id x hx => absurd hx (hnone id x)
  · exact fun e he => absurd he List.not_mem_nil

variable {l : List (Event CheckoutCmd Reply CheckoutStore)}

theorem checkoutInv_spawn {φs : List PollPhase} (h : CheckoutInv φs l s) :
    CheckoutInv (φs ++ [.other]) l s := by
  refine { h with known := fun φ hφ => ?_ }
  rcases mem_snoc.1 hφ with hφ | rfl
  · exact h.known φ hφ
  · trivial

theorem checkoutInv_step {φs : List PollPhase} {i : ℕ} (h : CheckoutInv φs l s)
    (hi : φs[i]? = some φ) (hpermits : φ.Permits c)
    (hverified : VerifiedSoundly ⟨s, c, r, c.exec r s⟩) (hsound : Sound ⟨s, c, r, c.exec r s⟩) :
    CheckoutInv (φs.set i (φ.next c r s)) (l ++ [⟨s, c, r, c.exec r s⟩]) (c.exec r s) := by
  have hφ : φ.Known s := h.known φ (List.mem_of_getElem? hi)
  obtain ⟨hjust, hfresh⟩ := exec_justified h.justified h.fresh hφ hpermits hverified hsound
  refine ⟨?_, hjust, hfresh, ?_⟩
  · apply forall_set
    · exact fun ψ hψ => known_exec h.fresh (h.known ψ hψ)
    · exact known_next h.fresh hφ
  · exact forall_snoc h.log ⟨exec_stays hsound, hjust⟩

/-- **A successful checkout stays successful**, and is so only when a transaction of its order has
completed, in every run all of whose events are sound. -/
theorem checkout_stays_successful (cfg : PaymentConfig) (s : CheckoutStore)
    (ms : List (Move CheckoutRequest Reply))
    (h : ∀ e ∈ ((start { s with pay := { s.pay with checkouts := [] } }).play CheckoutCmd.exec
      (checkoutProgram cfg) ms).log, Sound e) :
    ∀ e ∈ ((start { s with pay := { s.pay with checkouts := [] } }).play CheckoutCmd.exec
      (checkoutProgram cfg) ms).log, Stays e ∧ e.after.Justified := by
  have hverified := verifications_sound cfg { s with pay := { s.pay with checkouts := [] } } ms
  have hrun := play_protocol CheckoutInv (fun e => VerifiedSoundly e ∧ Sound e)
    (request_follows cfg) (checkoutInv_start s)
    (fun φs l t q hinv => checkoutInv_spawn hinv)
    (fun φs l t i φ c r φ' hinv hi hδ hG => by
      obtain ⟨hpermits, rfl⟩ := guarded_eq_some hδ
      exact checkoutInv_step hinv hi hpermits hG.1 hG.2)
    ms fun e he => ⟨hverified e he, h e he⟩
  obtain ⟨φs, -, hinv⟩ := hrun
  exact hinv.log

/-! ### A payment, and a signature that is not valid -/

def paidStore : CheckoutStore where
  pay :=
    { ledger := ⟨[⟨"pay_order_1", "u1", 100, .paymentGateway, none, some "order_1", .pending⟩],
        by decide⟩
      users := [⟨"u1", "f1", "user", none, none, 0⟩]
      events := []
      checkouts := [] }
  owners := []
  everCompleted := []
  signed := []

def capturedReply : Reply where
  delivered := true
  answered := true
  pick := 0
  payment := some ⟨"order_1", "captured", .empty, none, none⟩
  order := ⟨.empty, none, none⟩

def verifyMove (signatureOk : Bool) : Move CheckoutRequest Reply :=
  .spawn (.verify "order_1" ⟨true, true, "p1", some ⟨"f1", "u1", some "c1"⟩, some signatureOk⟩)

def paidMoves : List (Move CheckoutRequest Reply) :=
  [.spawn (.create "c1" "u1"), .step 0 capturedReply, .spawn (.attach (some "c1") "order_1"),
    .step 1 capturedReply, verifyMove true, .step 2 capturedReply, .step 2 capturedReply,
    .step 2 capturedReply, .step 2 capturedReply, .step 2 capturedReply]

theorem paidMoves_successful :
    (∃ e ∈ ((start paidStore).play CheckoutCmd.exec (checkoutProgram {}) paidMoves).log,
      e.after.checkout "c1" = some ⟨"c1", some "order_1", .success⟩) ∧
    ∀ e ∈ ((start paidStore).play CheckoutCmd.exec (checkoutProgram {}) paidMoves).log,
      Stays e ∧ e.after.Justified :=
  ⟨by decide +kernel, checkout_stays_successful {} paidStore paidMoves (by decide +kernel)⟩

theorem invalidSignature_fails :
    ¬ ∀ e ∈ ((start paidStore).play CheckoutCmd.exec (checkoutProgram {})
      (paidMoves ++ [verifyMove false, .step 3 capturedReply, .step 3 capturedReply])).log,
        Stays e ∧ e.after.Justified := by
  have hfails : ∃ e ∈ ((start paidStore).play CheckoutCmd.exec (checkoutProgram {})
      (paidMoves ++ [verifyMove false, .step 3 capturedReply, .step 3 capturedReply])).log,
        e.before.checkout "c1" = some ⟨"c1", some "order_1", .success⟩ ∧
          e.after.checkout "c1" ≠ some ⟨"c1", some "order_1", .success⟩ := by decide +kernel
  intro h
  obtain ⟨e, he, hbefore, hafter⟩ := hfails
  exact hafter ((h e he).1 _ _ hbefore rfl)

end VibemeetBackend.Payment
