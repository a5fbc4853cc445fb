import VibemeetBackend.Collected.Backfill

/-!
# The phases of a backfill
-/

namespace VibemeetBackend.Collected

open Async Flow
open Moments (Text)

/-! ### Phases -/

inductive Phase where
  | idle
  | drawn (owner : ℕ)
  | reading (owner : ℕ) (asOf : ℤ) (skip : ℕ)
  | recording (owner : ℕ) (asOf : ℤ) (skip : ℕ) (rest : List CapturedPaymentObservation)
    (isComplete : Bool)
  | failing (owner : ℕ)
  | observing (o : CapturedPaymentObservation)

def Phase.owner? : Phase → Option ℕ
  | .drawn owner | .reading owner .. | .recording owner .. | .failing owner => some owner
  | .idle | .observing _ => none

section Phases

variable (upper : UpperCase)

def observations (asOf : ℤ) (items : List RazorpayPaymentForCollected) :
    List CapturedPaymentObservation :=
  items.filterMap fun item =>
    if asOf ≤ item.created_at * 1000 then none
    else normalizeCapturedPaymentObservation upper.text item.value

variable {item : RazorpayPaymentForCollected}

variable {upper} in
theorem observations_late {asOf : ℤ} (h : asOf ≤ item.created_at * 1000)
    (items : List RazorpayPaymentForCollected) :
    observations upper asOf (item :: items) = observations upper asOf items :=
  List.filterMap_cons_none (if_pos h)

variable {upper} in
theorem observations_early {asOf : ℤ} (h : ¬asOf ≤ item.created_at * 1000)
    (items : List RazorpayPaymentForCollected) :
    observations upper asOf (item :: items) =
      (normalizeCapturedPaymentObservation upper.text item.value).toList ++
        observations upper asOf items := by
  unfold observations
  rw [List.filterMap_cons, if_neg h]
  cases normalizeCapturedPaymentObservation upper.text item.value <;> rfl

def received (owner : ℕ) (asOf : ℤ) (skip : ℕ) (rows : List ProviderPayment) : Phase :=
  match parseRazorpayPaymentPage upper.text (response rows) with
  | .ok items =>
    .recording owner asOf skip (observations upper asOf items) (decide (items.length < pageSize))
  | .error _ => .failing owner

def Phase.next (φ : Phase) (c : Cmd) (r : Reply) (s : Store) : Phase :=
  match φ, c with
  | .idle, .randomUUID => if r.ok then .drawn s.owners else .idle
  | .idle, .entity id =>
    match (s.entity id).bind fun p => normalizeCapturedPaymentObservation upper.text p.entry with
    | some o => if r.ok then .observing o else .idle
    | none => .idle
  | .drawn owner, .claim _ now =>
    match s.claimable now with
    | some d => if r.ok then .reading owner d.asOf d.nextSkip else .idle
    | none => .idle
  | .reading owner asOf skip, .fetchPage .. =>
    if r.ok then received upper owner asOf skip (s.pageAt skip (lastSecond asOf))
    else .failing owner
  | .recording owner asOf skip (_ :: rest) isComplete, .upsertPayment _ =>
    if r.ok then .recording owner asOf skip rest isComplete else .failing owner
  | .recording owner asOf skip [] isComplete, .checkpoint .. =>
    if r.ok && (s.owned owner).isSome then
      if isComplete then .idle else .reading owner asOf (skip + pageSize)
    else .failing owner
  | .observing _, .upsertPayment _ => .idle
  | .failing _, .fail _ => .idle
  | φ, _ => φ

def Allows (φ : Phase) : Cmd → Prop
  | .claim owner _ => φ = .drawn owner
  | .fetchPage skip toSecond =>
    ∃ owner asOf, φ = .reading owner asOf skip ∧ toSecond = lastSecond asOf
  | .upsertPayment o => φ = .observing o ∨ ∃ owner asOf skip rest isComplete,
    φ = .recording owner asOf skip (o :: rest) isComplete
  | .checkpoint owner isComplete nextSkip _ _ => ∃ asOf skip,
    φ = .recording owner asOf skip [] isComplete ∧ nextSkip = skip + pageSize
  | .fail owner => φ = .failing owner
  | _ => φ = .idle

abbrev FollowsBackfill {α : Type} (φ : Phase) (p : BackfillFlow α) (Q : α → Phase → Prop)
    (E : String → Phase → Prop) : Prop :=
  Follows (guarded Allows (Phase.next upper)) φ p Q E

variable {upper} {α : Type} {φ : Phase} {Q : α → Phase → Prop} {E : String → Phase → Prop}

variable {f : Reply × Store → BackfillFlow α}

theorem run_follows {c : Cmd} (hc : Allows φ c)
    (hE : ∀ r s, r.ok = false → E "command failed" (φ.next upper c r s))
    (h : ∀ r s, r.ok = true → FollowsBackfill upper (φ.next upper c r s) (f (r, s)) Q E) :
    FollowsBackfill upper φ (run c >>= f) Q E :=
  follows_call_bind fun r s => ⟨_, guarded_of hc, h r s, hE r s⟩

theorem idle_follows {c : Cmd} (hc : Allows .idle c)
    (hnext : ∀ r s, Phase.next upper .idle c r s = .idle)
    (h : ∀ r s, FollowsBackfill upper .idle (f (r, s)) Q fun _ _ => True) :
    FollowsBackfill upper .idle (run c >>= f) Q fun _ _ => True := by
  apply run_follows hc
  · intro _ _ _
    trivial
  · intro r s _
    rw [hnext]
    exact h r s

theorem processItems_follows (owner : ℕ) (asOf : ℤ) (skip : ℕ) (isComplete : Bool)
    (items : List RazorpayPaymentForCollected) :
    FollowsBackfill upper (.recording owner asOf skip (observations upper asOf items) isComplete)
      (processItems upper asOf items)
      (fun _ φ => φ = .recording owner asOf skip [] isComplete) fun _ φ => φ = .failing owner := by
  induction items with
  | nil => exact follows_pure rfl
  | cons item items ih =>
    unfold processItems
    split
    · simp_all [observations_late]
    · rename_i hearly
      rw [observations_early hearly]
      unfold upsertCapturedPaymentObservation
      have hrest : ∀ n : Bool, FollowsBackfill upper
          (.recording owner asOf skip (observations upper asOf items) isComplete)
          (processItems upper asOf items >>= fun rest => pure (rest + n.toNat))
          (fun _ φ => φ = .recording owner asOf skip [] isComplete)
          fun _ φ => φ = .failing owner := by
        simp_all
      cases normalizeCapturedPaymentObservation upper.text item.value with
      | none =>
        simp_all
      | some o =>
        apply follows_bind
        apply run_follows
        · exact .inr ⟨_, _, _, _, _, rfl⟩
        · intro r s hr
          show (if r.ok then _ else _) = _
          rw [hr]
          rfl
        · intro r s hr
          have hnext : Phase.next upper (.recording owner asOf skip
              (o :: observations upper asOf items) isComplete) (.upsertPayment o) r s =
                .recording owner asOf skip (observations upper asOf items) isComplete :=
            if_pos hr
          simp_all

theorem processPages_follows (owner : ℕ) (asOf : ℤ)
    (pages skip pagesProcessed paymentsObserved : ℕ) :
    FollowsBackfill upper (.reading owner asOf skip)
      (processPages upper owner asOf pages skip pagesProcessed paymentsObserved)
      (fun _ _ => True) fun _ φ => φ = .failing owner := by
  induction pages generalizing skip pagesProcessed paymentsObserved with
  | zero => exact follows_pure trivial
  | succ pages ih =>
    apply run_follows
    · exact ⟨owner, asOf, rfl, rfl⟩
    · intro r s hr
      show (if r.ok then _ else _) = _
      rw [hr]
      rfl
    intro r s hr
    have hnext : Phase.next upper (.reading owner asOf skip) (.fetchPage skip (lastSecond asOf)) r
        s = received upper owner asOf skip (s.pageAt skip (lastSecond asOf)) := if_pos hr
    rw [hnext]
    unfold received
    dsimp only
    cases parseRazorpayPaymentPage upper.text (response (s.pageAt skip (lastSecond asOf))) with
    | error e => exact follows_throw rfl
    | ok items =>
      apply follows_bind
      apply Follows.mono (processItems_follows owner asOf skip _ items)
      · rintro observed _ rfl
        apply run_follows
        · exact ⟨asOf, skip, rfl, rfl⟩
        · intro r s hr
          show (if (r.ok && _) = true then _ else _) = _
          rw [hr]
          rfl
        · intro r s hr
          show FollowsBackfill upper
            (if (r.ok && (s.owned owner).isSome) = true then _ else _) _ _ _
          rw [hr, Bool.true_and]
          cases s.owned owner with
          | none => exact follows_throw rfl
          | some d =>
            show FollowsBackfill upper (if decide (items.length < pageSize) = true then _ else _)
              (if decide (items.length < pageSize) = true then _ else _) _ _
            split
            · exact follows_pure trivial
            · exact ih _ _ _
      · intro _ _ hφ
        exact hφ

theorem backfill_follows (now : ℤ) (pages : ℕ) :
    FollowsBackfill upper .idle (runRazorpayCapturedPaymentBackfill upper now pages)
      (fun _ _ => True) fun _ _ => True := by
  apply idle_follows
  · exact rfl
  · exact fun _ _ => rfl
  intro _ _
  apply idle_follows
  · exact rfl
  · exact fun _ _ => rfl
  intro _ s
  dsimp only
  split
  · exact follows_pure trivial
  apply run_follows
  · exact rfl
  · intro _ _ _
    trivial
  intro r s hr
  have hdrawn : Phase.next upper .idle .randomUUID r s = .drawn s.owners := if_pos hr
  rw [hdrawn]
  apply run_follows
  · exact rfl
  · intro _ _ _
    trivial
  intro r t hr
  cases ht : t.claimable now with
  | none => exact follows_throw trivial
  | some claimed =>
    have hclaimed : Phase.next upper (.drawn s.owners) (.claim s.owners now) r t =
        .reading s.owners claimed.asOf claimed.nextSkip := by
      unfold Phase.next
      dsimp only
      rw [ht]
      exact if_pos hr
    rw [hclaimed]
    apply follows_tryCatch
    apply Follows.mono (processPages_follows s.owners claimed.asOf pages _ _ _)
    · intro _ _ _
      trivial
    · rintro e _ rfl
      apply run_follows
      · exact rfl
      · intro _ _ _
        trivial
      · intro _ _ _
        exact follows_throw trivial

theorem observe_follows (id : Text) :
    FollowsBackfill upper .idle (observeCapturedPaymentBestEffort upper id)
      (fun _ _ => True) fun _ _ => True := by
  apply run_follows
  · exact rfl
  · intro _ _ _
    trivial
  intro r s hr
  unfold Phase.next
  dsimp only
  cases s.entity id with
  | none => exact follows_pure trivial
  | some p =>
    dsimp only [Option.bind_some]
    unfold upsertCapturedPaymentObservation
    cases normalizeCapturedPaymentObservation upper.text p.entry <;> simp [hr, run, Allows]

theorem program_follows (q : Request) :
    (program upper q).Follows (guarded Allows (Phase.next upper)) .idle fun _ _ => True := by
  cases q with
  | backfill now pages => exact (backfill_follows now pages).run
  | observe id => exact (observe_follows id).run
  | _ => exact fun r s => ⟨_, guarded_of rfl, trivial⟩

end Phases

end VibemeetBackend.Collected
