import VibemeetBackend.Async.Knowledge
import VibemeetBackend.Payment.BothRows
import VibemeetBackend.Payment.Checkout

/-!
# Verified checkouts

In every run a verification records in a checkout that its payment has succeeded only when a row of the
payment, which the provider has signed, has completed.
-/

namespace VibemeetBackend.Payment

open Async Flow Knowledge

/-! ### Finalizations -/

variable {o p : String} {l l' : Ledger}

def KeepsSelected (o : String) (l l' : Ledger) : Prop :=
  ∀ id t, l.row id = some t → orderSelectors o t = true →
    ∃ t', l'.row id = some t' ∧ orderSelectors o t' = true

theorem selects_complete (o p : String) (t : CoinTx) :
    orderSelectors o (t.complete o p) = true :=
  Bool.or_eq_true_iff.2 (.inr (beq_self_eq_true _))

theorem completePending_keepsSelected {tx u : CoinTx}
    (h : completePendingTransaction tx o p l = some (u, l')) : KeepsSelected o l l' := by
  unfold completePendingTransaction at h
  split at h
  · split at h
    · cases h
    · cases h
      intro id t ht hsel
      rw [Ledger.row_setRow, ht]
      split
      · exact ⟨_, rfl, selects_complete o p t⟩
      · exact ⟨t, rfl, hsel⟩
  · cases h

theorem completeBonus_keepsSelected (o p : String) (l : Ledger) :
    KeepsSelected o l (completeBonus o p l).2 := by
  have hsame : KeepsSelected o l l := fun id t ht hsel => ⟨t, ht, hsel⟩
  unfold completeBonus
  split
  · split
    · exact hsame
    · split
      · rename_i hcomplete
        exact completePending_keepsSelected hcomplete
      · exact hsame
  · exact hsame

theorem KeepsSelected.trans {l₁ l₂ l₃ : Ledger} (h : KeepsSelected o l₁ l₂)
    (h' : KeepsSelected o l₂ l₃) : KeepsSelected o l₁ l₃ := by
  intro id t ht hsel
  obtain ⟨t', ht', hsel'⟩ := h id t ht hsel
  exact h' id t' ht' hsel'

variable {e : Option String}

theorem finalize_keepsSelected {pick : ℕ} {s s' : Store} {r : FinalizePaymentResult}
    (h : finalizePaymentAtomically pick o p e s = .ok (r, s')) :
    KeepsSelected o s.ledger s'.ledger := by
  unfold finalizePaymentAtomically at h
  split at h
  · cases h
  dsimp only at h
  split at h
  · cases h
  split at h
  · cases h
  split at h
  · split at h
    · cases h
    · cases h
      exact completeBonus_keepsSelected o p s.ledger
  · rename_i hcomplete
    cases h
    exact (completePending_keepsSelected hcomplete).trans (completeBonus_keepsSelected o p _)

/-- **A finalization leaves a completed row of its order.** -/
theorem finalize_completes {pick : ℕ} {s s' : Store} {r : FinalizePaymentResult}
    (h : finalizePaymentAtomically pick o p e s = .ok (r, s')) :
    ∃ t ∈ s'.ledger.completedRows, orderSelectors o t = true := by
  obtain ⟨tx, htx⟩ := finalize_findOne h
  obtain ⟨hmem, hsel⟩ := findOne_some htx
  obtain ⟨t, ht, hcompleted⟩ := (finalize_isCompleted (u := tx) htx h).1
  obtain ⟨t', ht', hsel'⟩ := finalize_keepsSelected h _ tx (Ledger.row_of_mem hmem) hsel
  obtain rfl := Option.mem_unique ht ht'
  exact ⟨t, List.mem_filter.2 ⟨(Ledger.row_some ht).1, beq_iff_eq.2 hcompleted⟩, hsel'⟩

theorem finalize_checkouts {pick : ℕ} {s : Store} {x : FinalizePaymentResult × Store}
    (h : finalizePaymentAtomically pick o p e s = .ok x) : x.2.checkouts = s.checkouts := by
  unfold finalizePaymentAtomically at h
  split at h
  · cases h
  dsimp only at h
  split at h
  · cases h
  split at h
  · cases h
  split at h
  · split at h
    · cases h
    · cases h
      rfl
  · cases h
    rfl

/-! ### Verifications -/

def ofPayment (x : SignedPayment) (t : CoinTx) : Bool :=
  t.paymentGatewayTransactionId == some x.2 || orderSelectors x.1 t

def Cmd.recorded : Cmd → Option CheckoutStatus
  | .recordCheckoutResult _ status => some status
  | _ => none

/-- A verification learns that a row of its payment has completed, from the rows before and after a
command, and needs to know it to record a success. -/
def checkoutKnowledge : Knowledge Cmd Reply Store (Option SignedPayment) where
  allows _ c := ∀ status ∈ c.recorded, status = .success ∨ status = .failed
  needs c := c.recorded = some .success
  shows k c r s := k.any fun x =>
    (s.ledger.completedRows ++ (Payment.exec c r s).ledger.completedRows).any (ofPayment x)

abbrev Learns {α : Type} (k : Option SignedPayment) (b : Bool) (f : PaymentFlow α)
    (R : α → Prop) : Prop :=
  checkoutKnowledge.Learns k b f R

variable {α : Type} {k : Option SignedPayment} {b : Bool} {R : α → Prop}

variable {f : Reply × Store → PaymentFlow α}

theorem learns_run {c : Cmd} (hc : c.recorded = none)
    (h : ∀ r s b', (b = true ∨ checkoutKnowledge.shows k c r s = true → b' = true) →
      r.ok = true → Learns k b' (f (r, s)) R) : Learns k b (run c >>= f) R := by
  apply learns_call_bind _ _ h
  · intro status hstatus
    rw [hc] at hstatus
    cases hstatus
  · intro hneeds
    have hsome : c.recorded = some .success := hneeds
    rw [hc] at hsome
    cases hsome

theorem learns_pure {a : α} (h : R a → b = true) : Learns k b (pure a) R := Knowledge.learns_pure h

theorem learns_throw (e : String) : Learns k b (throw e : PaymentFlow α) R :=
  Knowledge.learns_throw e

theorem finalize_learns (o p : String) (e : Option String) :
    Learns (some (o, p)) b (finalize o p e) fun _ => True := by
  apply learns_run rfl
  intro r s b' hb' hok
  have hdelivered : r.delivered = true := (Bool.and_eq_true_iff.1 hok).1
  dsimp only
  cases hres : finalizePaymentAtomically r.pick o p e s with
  | error e' => exact learns_throw e'
  | ok x =>
    obtain ⟨result, s'⟩ := x
    apply learns_pure
    intro _
    apply hb'
    right
    obtain ⟨t, ht, hsel⟩ := finalize_completes hres
    have hexec : Payment.exec (.finalize o p e) r s = s' := by
      unfold Payment.exec
      rw [if_neg (by simp [hdelivered])]
      dsimp only
      rw [hres]
    show List.any _ _ = true
    rw [hexec, List.any_eq_true]
    exact ⟨t, List.mem_append_right _ ht, Bool.or_eq_true_iff.2 (.inr hsel)⟩

theorem shows_of_mem {x : SignedPayment} {c : Cmd} {r : Reply} {s : Store} {t : CoinTx}
    (ht : t ∈ s.ledger.txs) (hcompleted : t.status = .completed) (hsel : ofPayment x t = true) :
    checkoutKnowledge.shows (some x) c r s = true := by
  show List.any _ _ = true
  rw [List.any_eq_true]
  exact ⟨t, List.mem_append_left _ (List.mem_filter.2 ⟨ht, beq_iff_eq.2 hcompleted⟩), hsel⟩

theorem mainExisting_learns (o p : String) :
    Learns (some (o, p)) b (mainExisting o p) fun main => main.map CoinTx.status = some .completed := by
  apply learns_run rfl
  intro r s b' hb' hok
  dsimp only
  split
  · exact learns_pure fun h => nomatch h
  · rename_i t ht
    split
    · rename_i hsource
      apply learns_pure
      intro hcompleted
      have hcompleted : t.status = .completed := Option.some.inj hcompleted
      have hfound := List.find?_some ht
      have hsel : ofPayment (o, p) t = true := (Bool.and_eq_true_iff.1 hfound).1
      exact hb' (.inr (shows_of_mem (List.mem_of_find?_eq_some ht) hcompleted hsel))
    · apply learns_run rfl
      intro r' s' b'' hb'' hok'
      apply learns_pure
      intro hcompleted
      obtain ⟨t', ht', hcompleted⟩ := Option.map_eq_some_iff.1 hcompleted
      obtain ⟨hmem, hsel⟩ := findOne_some ht'
      have hsel := (Bool.and_eq_true_iff.1 hsel).1
      exact hb'' (.inr (shows_of_mem hmem hcompleted (Bool.or_eq_true_iff.2 (.inr hsel))))

abbrev Unrecorded (f : PaymentFlow α) : Prop :=
  f.Issues (fun _ => True) fun c => c.recorded = none

theorem learns_of_unrecorded {f : PaymentFlow α} (h : Unrecorded f) :
    Learns k b f fun _ => False := by
  apply learns_of_issues
  apply Issues.mono h
  intro c hc
  constructor
  · intro status hstatus
    rw [hc] at hstatus
    cases hstatus
  · intro hneeds
    have hsome : c.recorded = some .success := hneeds
    rw [hc] at hsome
    cases hsome

theorem unrecorded_run {c : Cmd} (hc : c.recorded = none) (hf : ∀ r s, Unrecorded (f (r, s))) :
    Unrecorded (run c >>= f) :=
  issues_call_bind hc fun r s _ => hf r s

variable (cfg : PaymentConfig)

theorem fetchCaptured_unrecorded (orderId paymentId : String) :
    Unrecorded (fetchCaptured cfg orderId paymentId) := by
  unfold fetchCaptured
  split
  · exact issues_pure _
  · apply unrecorded_run rfl
    intro r s
    dsimp only
    split <;> simp

theorem ensurePending_unrecorded (userId orderId : String) (coins : ℕ) :
    Unrecorded (ensurePendingCoinTransaction userId orderId coins) := by
  apply unrecorded_run rfl
  intro r s
  dsimp only
  split
  · exact issues_pure _
  · exact unrecorded_run rfl fun _ _ => issues_pure _

theorem ensureNotedBonus_unrecorded (userId orderId : String) (bonusCoins : Option (Option ℤ)) :
    Unrecorded (ensureNotedBonus userId orderId bonusCoins) := by
  unfold ensureNotedBonus
  split
  · unfold createPendingBonusCoinTransaction
    split
    · exact issues_pure _
    · apply unrecorded_run rfl
      intro r s
      dsimp only
      split
      · exact issues_pure _
      · apply unrecorded_run rfl
        simp
  · exact issues_pure _

theorem creditResolvedUser_learns (o p : String) (user : User) (coins : ℕ)
    (bonus : Option (Option ℤ)) :
    Learns (some (o, p)) b (creditResolvedUser o p user coins bonus) fun _ => True := by
  apply learns_bind (learns_of_unrecorded (ensurePending_unrecorded user.id o coins))
  intro _ b₁ _
  apply learns_bind (learns_of_unrecorded (ensureNotedBonus_unrecorded user.id o bonus))
  intro _ b₂ _
  apply learns_bind (finalize_learns o p (some user.id))
  intro result b₃ hb₃
  exact learns_pure fun _ => hb₃ (.inr trivial)

theorem reconcileChecked_learns (o p : String) (e : Option String) (payment : RazorpayPayment)
    (notes : RazorpayNotes) (coins : ℕ) :
    Learns (some (o, p)) b (reconcileChecked o p e payment notes coins)
      fun r => healed r = true := by
  apply learns_bind (mainExisting_learns o p)
  intro main b₁ hb₁
  dsimp only
  split
  · rename_i hcompleted
    exact learns_pure fun _ => hb₁ (.inr hcompleted)
  · apply learns_run rfl
    intro r s b₂ _ _
    dsimp only
    split
    · apply learns_run rfl
      intro r' s' b₃ _ _
      dsimp only
      split
      · exact learns_pure fun h => nomatch h
      · exact learns_pure fun h => nomatch h
    · split
      · exact learns_pure fun h => nomatch h
      · exact Learns.mono (creditResolvedUser_learns o p _ coins notes.bonusCoins)
          fun _ _ => trivial

theorem reconcile_learns (o p : String) (e : Option String) :
    Learns (some (o, p)) b (reconcileCapturedWalletPayment cfg o p e)
      fun r => healed r = true := by
  apply learns_tryCatch
  · apply learns_bind (learns_of_unrecorded (fetchCaptured_unrecorded cfg o p))
    rintro ⟨payment, order⟩ b₁ _
    dsimp only
    split
    · exact learns_pure fun h => nomatch h
    · split
      · exact learns_pure fun h => nomatch h
      · split
        · exact learns_pure fun h => nomatch h
        · split
          · exact learns_pure fun h => nomatch h
          · split
            · exact learns_pure fun h => nomatch h
            · split
              · exact learns_pure fun h => nomatch h
              · exact reconcileChecked_learns o p e payment _ _
  · intro reason b₁ _
    exact learns_pure fun h => nomatch h

theorem verified_learns (session : CheckoutSession) (hb : b = true) :
    Learns k b (verified session) fun _ => False := by
  apply learns_call_bind
  · intro status hstatus
    cases hstatus
    exact .inl rfl
  · exact fun _ => hb
  · intro r s b' _ _
    exact learns_pure False.elim

theorem verifyTransaction_learns (o p : String) (session : CheckoutSession) (user : User)
    (order : Option RazorpayOrder) (transaction : CoinTx) :
    Learns (some (o, p)) b (verifyTransaction cfg o p session user order transaction)
      fun _ => False := by
  unfold verifyTransaction
  split
  · exact learns_pure False.elim
  · split
    · exact learns_pure False.elim
    · apply learns_bind (learns_attempt (finalize_learns o p (some user.id)))
      intro res b₁ hb₁
      cases res with
      | ok result => exact verified_learns session (hb₁ (.inr ⟨result, rfl, trivial⟩))
      | error message =>
        dsimp only
        split
        · apply learns_bind (reconcile_learns cfg o p (some user.id))
          intro r b₂ hb₂
          split
          · rename_i hhealed
            exact verified_learns session (hb₂ (.inr hhealed))
          · exact learns_pure False.elim
        · split
          · exact learns_pure False.elim
          · exact learns_pure False.elim

theorem verifyCaptured_learns (o p : String) (session : CheckoutSession) (user : User) :
    Learns (some (o, p)) b (verifyCaptured cfg o p session user) fun _ => False := by
  have hfetch : Learns (some (o, p)) b (attempt (fetchCaptured cfg o p)) fun _ => False :=
    Learns.mono
      (learns_attempt (learns_of_unrecorded (fetchCaptured_unrecorded cfg o p)))
      fun _ h => h.elim
  apply learns_bind hfetch
  intro res b₁ _
  cases res with
  | error message => exact learns_pure False.elim
  | ok x =>
    obtain ⟨payment, order⟩ := x
    dsimp only
    split
    · exact learns_pure False.elim
    · apply learns_run rfl
      intro r s b₂ _ _
      split
      · exact verifyTransaction_learns cfg o p session user order _
      · apply learns_bind (reconcile_learns cfg o p (some user.id))
        intro result b₃ _
        split
        · exact learns_pure False.elim
        · apply learns_run rfl
          intro r' s' b₄ _ _
          split
          · exact learns_pure False.elim
          · exact verifyTransaction_learns cfg o p session user order _

theorem rejectSignature_learns (o : String) (session : CheckoutSession) :
    Learns k b (rejectSignature o session) fun _ => False := by
  apply learns_call_bind
  · intro status hstatus
    cases hstatus
    exact .inr rfl
  · intro hneeds
    have hsuccess : (some CheckoutStatus.failed) = some .success := hneeds
    cases hsuccess
  · intro r s b₁ _ _
    apply learns_run rfl
    intro r' s' b₂ _ _
    exact learns_pure False.elim

/-- **A verification** records a success only when it knows that a row of its payment has completed. -/
theorem verify_learns (o : String) (q : VerifyRequest) :
    Learns (signedBy o q) b (verifyWebPayment cfg o q) fun _ => False := by
  apply learns_tryCatch
  · unfold verifyBody
    split
    · exact learns_pure False.elim
    · split
      · exact learns_pure False.elim
      · split
        · exact learns_pure False.elim
        · rename_i session _
          apply learns_run rfl
          intro r s b₁ _ _
          dsimp only
          split
          · exact learns_pure False.elim
          · split
            · exact learns_pure False.elim
            · split
              · exact learns_pure False.elim
              · exact rejectSignature_learns o session
              · rename_i hsigned
                have hkey : signedBy o q = some (o, q.paymentId) := if_pos hsigned
                rw [hkey]
                exact verifyCaptured_learns cfg o q.paymentId session _
  · intro e b₁ _
    exact learns_pure False.elim

/-! ### Checkouts -/

variable {s : CheckoutStore} {c : CheckoutCmd} {r : Reply} {id orderId : String}

def CheckoutStore.checkout (s : CheckoutStore) (id : String) : Option CheckoutContext :=
  s.pay.checkouts.find? fun x => x.checkoutId == id

def CheckoutCmd.onContext (c : CheckoutCmd) (x : CheckoutContext) : CheckoutContext :=
  match c with
  | .attachOrder id orderId =>
    if x.checkoutId = id ∧ x.status = .created then
      { x with orderId := some orderId, status := .pending } else x
  | .hostedResult id status =>
    if x.checkoutId = id ∧ (x.status = .created ∨ x.status = .pending) then { x with status } else x
  | .writeStatus id status => if x.checkoutId = id then { x with status } else x
  | .pay _ (.recordCheckoutResult (some id) status) =>
    if x.checkoutId = id then { x with status } else x
  | _ => x

theorem onContext_id (c : CheckoutCmd) (x : CheckoutContext) :
    (c.onContext x).checkoutId = x.checkoutId := by
  unfold CheckoutCmd.onContext
  split <;> first | rfl | split <;> rfl

theorem effect_checkouts (h : ∀ id userId, c ≠ .createContext id userId)
    (hr : r.delivered = true) (t : Store) :
    (c.effect r t).checkouts = t.checkouts.map c.onContext := by
  have hsame : t.checkouts = t.checkouts.map fun x => x := (List.map_id' _).symm
  have hupdate : ∀ filter f, (∀ x, (if filter x = true then f x else x) = c.onContext x) →
      (t.updateContexts filter f).checkouts = t.checkouts.map c.onContext :=
    fun filter f hf => List.map_congr_left fun x _ => hf x
  cases c with
  | createContext id userId => exact absurd rfl (h id userId)
  | attachOrder id orderId =>
    apply hupdate
    intro x
    simp [CheckoutCmd.onContext]
  | hostedResult id status =>
    apply hupdate
    intro x
    simp [CheckoutCmd.onContext]
  | writeStatus id status =>
    apply hupdate
    intro x
    simp [CheckoutCmd.onContext]
  | pay signed c =>
    show (Payment.exec c r t).checkouts = _
    unfold Payment.exec
    rw [if_neg (by simp [hr])]
    cases c with
    | recordCheckoutResult id status =>
      cases id with
      | none => exact hsame
      | some id => rfl
    | finalize orderId paymentId e =>
      dsimp only
      cases hres : finalizePaymentAtomically r.pick orderId paymentId e t with
      | error e' => exact hsame
      | ok x => exact (finalize_checkouts hres).trans hsame
    | _ => exact hsame
  | _ => exact hsame

/-- **What a command does** to a checkout that is there. -/
theorem exec_checkout {x : CheckoutContext} (hx : s.checkout id = some x) :
    (c.exec r s).checkout id = some (if r.delivered = true then c.onContext x else x) := by
  unfold CheckoutCmd.exec CheckoutStore.checkout
  cases hr : r.delivered with
  | false => exact hx
  | true =>
    rw [if_neg (by simp), if_pos rfl]
    by_cases hcreate : ∃ id' userId, c = .createContext id' userId
    · obtain ⟨id', userId, rfl⟩ := hcreate
      unfold CheckoutCmd.effect
      dsimp only
      split
      · exact hx
      · rw [List.find?_append]
        unfold CheckoutStore.checkout at hx
        rw [hx]
        rfl
    · have hmap := effect_checkouts (fun id' userId h => hcreate ⟨id', userId, h⟩) hr s.pay
      have hcomp : ((fun y : CheckoutContext => y.checkoutId == id) ∘ c.onContext) =
          fun y => y.checkoutId == id := by
        funext y
        exact congrArg (· == id) (onContext_id c y)
      unfold CheckoutStore.checkout at hx
      rw [hmap, List.find?_map, hcomp, hx]
      rfl

theorem exec_new {x : CheckoutContext} (hnone : s.checkout id = none)
    (hx : (c.exec r s).checkout id = some x) : x.status = .created ∧ x.orderId = none := by
  have hsame : (c.exec r s).pay.checkouts.find? (fun y => y.checkoutId == id) = some x := hx
  unfold CheckoutStore.checkout at hnone
  unfold CheckoutCmd.exec at hsame
  cases hr : r.delivered with
  | false =>
    rw [hr] at hsame
    rw [if_pos rfl, hnone] at hsame
    cases hsame
  | true =>
    rw [hr] at hsame
    rw [if_neg (by simp)] at hsame
    by_cases hcreate : ∃ id' userId, c = .createContext id' userId
    · obtain ⟨id', userId, rfl⟩ := hcreate
      unfold CheckoutCmd.effect at hsame
      dsimp only at hsame
      split at hsame
      · rw [hnone] at hsame
        cases hsame
      · rw [List.find?_append, hnone, Option.none_or] at hsame
        obtain rfl := List.mem_singleton.1 (List.mem_of_find?_eq_some hsame)
        exact ⟨rfl, rfl⟩
    · have hmap := effect_checkouts (fun id' userId h => hcreate ⟨id', userId, h⟩) hr s.pay
      have hcomp : ((fun y : CheckoutContext => y.checkoutId == id) ∘ c.onContext) =
          fun y => y.checkoutId == id := by
        funext y
        exact congrArg (· == id) (onContext_id c y)
      rw [hmap, List.find?_map, hcomp, hnone] at hsame
      cases hsame

theorem exec_records (c : CheckoutCmd) (r : Reply) (s : CheckoutStore) :
    (∀ t ∈ s.everCompleted, t ∈ (c.exec r s).everCompleted) ∧
      ∀ x ∈ s.signed, x ∈ (c.exec r s).signed :=
  ⟨fun _ h => List.mem_append_left _ (List.mem_append_left _ h), fun _ h => List.mem_append_left _ h⟩

/-! ### What the verifications record -/

def PaymentCompleted (signed : Option SignedPayment) (s : CheckoutStore) : Prop :=
  ∃ x, signed = some x ∧ x ∈ s.signed ∧ ∃ t ∈ s.everCompleted, ofPayment x t = true

/-- A verification records success or failure, and success only for a completed payment. -/
def VerifiedSoundly (e : Event CheckoutCmd Reply CheckoutStore) : Prop :=
  match e.cmd with
  | .pay signed c => (∀ status ∈ c.recorded, status = .success ∨ status = .failed) ∧
      (c.recorded = some .success → PaymentCompleted signed e.before)
  | _ => True

/-- The knowledge of the verifications among all the programs; a key is a signed payment. -/
def runKnowledge : Knowledge CheckoutCmd Reply CheckoutStore (Option SignedPayment) where
  allows k c := match c with
    | .pay signed c => signed = k ∧ checkoutKnowledge.allows k c
    | _ => True
  needs c := match c with
    | .pay _ c => checkoutKnowledge.needs c
    | _ => False
  shows k c r s := match c with
    | .pay _ c => checkoutKnowledge.shows k c r s.pay
    | _ => false

def CheckoutRequest.key : CheckoutRequest → Option SignedPayment
  | .verify orderId q => signedBy orderId q
  | _ => none

theorem learns_other {k : Option SignedPayment} {f : CheckoutFlow α}
    (h : f.Issues (fun _ => True) fun c => ∀ signed c', c ≠ .pay signed c') :
    runKnowledge.Learns k false f fun _ => False := by
  apply learns_of_issues
  apply Issues.mono h
  intro c hc
  cases c with
  | pay signed c' => exact absurd rfl (hc signed c')
  | _ => exact ⟨trivial, id⟩

variable {P : CheckoutCmd → Prop}

theorem ask_issues {f : Reply × CheckoutStore → CheckoutFlow α} {c : CheckoutCmd} (hc : P c)
    (hf : ∀ r s, (f (r, s)).Issues (fun _ => True) P) : (ask c >>= f).Issues (fun _ => True) P :=
  issues_call_bind hc fun r s _ => hf r s

theorem attach_issues (checkoutId : Option String) (orderId : String)
    (hP : ∀ id, P (.attachOrder id orderId)) :
    (attachCheckoutOrder checkoutId orderId).Issues (fun _ => True) P := by
  unfold attachCheckoutOrder
  split <;> simp [ask, hP]

theorem hosted_issues (status : Option CheckoutStatus) (decoded : Option String)
    (hP : ∀ id status, status = .cancelled ∨ status = .failed → P (.hostedResult id status)) :
    (recordHostedCheckoutResult status decoded).Issues (fun _ => True) P := by
  unfold recordHostedCheckoutResult
  split
  · exact issues_pure _
  · rename_i hstatus
    split
    · exact issues_pure _
    · rename_i checkoutId
      have hrecorded : status.getD .failed = .cancelled ∨ status.getD .failed = .failed := by
        rw [not_and_or, not_not, not_not] at hstatus
        rcases hstatus with rfl | rfl
        · exact .inl rfl
        · exact .inr rfl
      have hwrite : P (.hostedResult checkoutId (status.getD .failed)) := hP _ _ hrecorded
      simp [ask, hwrite]

theorem poll_issues (auth : Option String) (checkoutId : String)
    (hP : ∀ c : CheckoutCmd, (∀ signed c', c ≠ .pay signed c') → P c) :
    (getCheckoutStatus auth checkoutId).Issues (fun _ => True) P := by
  unfold getCheckoutStatus
  split
  · exact issues_pure _
  split
  · exact issues_pure _
  apply ask_issues (hP .findUser nofun)
  intro r s
  dsimp only
  split
  · exact issues_pure _
  apply ask_issues (hP (.findContext _ _) nofun)
  intro r' s'
  dsimp only
  split
  · exact issues_pure _
  split
  · exact issues_pure _
  split
  · exact issues_pure _
  apply ask_issues (hP (.findTransaction _ _) nofun)
  intro r'' s''
  dsimp only
  split
  · exact issues_pure _
  · exact ask_issues (hP (.writeStatus _ _) nofun) fun _ _ => issues_pure _

theorem request_learns (q : CheckoutRequest) :
    (checkoutProgram cfg q).Follows runKnowledge.next (q.key, false) fun _ _ => True := by
  have hother : ∀ {β : Type} {f : CheckoutFlow β},
      (f.Issues (fun _ => True) fun c => ∀ signed c', c ≠ .pay signed c') →
        (spawnedCheckout f).Follows runKnowledge.next (none, false) fun _ _ => True :=
    fun h => Follows.run (Follows.mono (learns_other h) (fun _ _ _ => trivial)
      fun _ _ _ => trivial)
  cases q with
  | create checkoutId userId => exact hother (issues_call nofun)
  | attach checkoutId orderId => exact hother (attach_issues checkoutId orderId fun _ => nofun)
  | hosted status decoded => exact hother (hosted_issues status decoded fun _ _ _ => nofun)
  | poll auth checkoutId => exact hother (poll_issues auth checkoutId fun _ h => h)
  | write ledger users events => exact hother (issues_call nofun)
  | verify orderId q =>
    have hverify : runKnowledge.Learns (signedBy orderId q) false (verifyCheckout cfg orderId q)
        fun _ => False :=
      learns_focus (verify_learns cfg orderId q) (fun c hc => ⟨rfl, hc⟩)
        (fun c hc => hc) fun c r s => rfl
    exact Follows.run (Follows.mono hverify (fun _ _ _ => trivial) fun _ _ _ => trivial)

theorem shows_completed {k : Option SignedPayment} (hallows : runKnowledge.allows k c)
    (h : runKnowledge.shows k c r s = true) : PaymentCompleted k (c.exec r s) := by
  cases c with
  | pay signed c =>
    obtain ⟨rfl, -⟩ := hallows
    obtain ⟨x, rfl, hany⟩ := (Option.any_eq_true _ _).1 h
    obtain ⟨t, ht, hsel⟩ := List.any_eq_true.1 hany
    refine ⟨x, rfl, List.mem_append_right _ (List.mem_singleton.2 rfl), t, ?_, hsel⟩
    rcases List.mem_append.1 ht with ht | ht
    · exact List.mem_append_left _ (List.mem_append_right _ ht)
    · apply List.mem_append_right
      unfold CheckoutCmd.effect
      split
      · rename_i hr
        unfold Payment.exec at ht
        rw [if_pos hr] at ht
        exact ht
      · exact ht
  | _ => cases h

/-- **In every run** the verifications record only results of their payments. -/
theorem verifications_sound (s : CheckoutStore) (ms : List (Move CheckoutRequest Reply)) :
    ∀ e ∈ ((Pool.start s).play CheckoutCmd.exec (checkoutProgram cfg) ms).log,
      VerifiedSoundly e := by
  apply Pool.play_knowledge PaymentCompleted (fun l _ => ∀ e ∈ l, VerifiedSoundly e)
    (fun _ => True) (request_learns cfg)
  · exact fun e he => nomatch he
  · rintro k c r t ⟨x, rfl, hx, row, hrow, hsel⟩
    obtain ⟨hcompleted, hsigned⟩ := exec_records c r t
    exact ⟨x, rfl, hsigned x hx, row, hcompleted row hrow, hsel⟩
  · exact fun l k c r t _ hallows h => shows_completed hallows h
  · intro l k c r t hl hallows hneeds _ e he
    rcases mem_snoc.1 he with he | rfl
    · exact hl e he
    · cases c with
      | pay signed c =>
        obtain ⟨rfl, hrecorded⟩ := hallows
        exact ⟨hrecorded, hneeds⟩
      | _ => trivial
  · exact fun _ _ => trivial

end VibemeetBackend.Payment
