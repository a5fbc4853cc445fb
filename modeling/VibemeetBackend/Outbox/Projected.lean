import VibemeetBackend.Outbox.Events

/-!
# Every projection of an event is applied

Whole runs of workers and replays on one event, with lost and failed commands, workers that stop for
good anywhere, and other writers of the call history between any two commands.
-/

namespace VibemeetBackend.Outbox

open Async Flow

variable {o : Setup}

/-! ### Phases -/

/-- How the dispatch of a worker stands; it is `lost` when the completion fails after it. -/
inductive Dispatch where
  | running | threw | lost
  deriving DecidableEq

structure Phase where
  claim : Option DomainEvent
  dispatch : Dispatch
  /-- A command of the projector in progress failed, or changed nothing. -/
  missed : Bool
  /-- The handlers that returned, and whether they have applied what they project. -/
  outcomes : List (Handler × Bool)

def Phase.start : Phase := ⟨none, .running, false, []⟩

def Phase.next (φ : Phase) (c : Cmd) (r : Reply) (s : Store) : Phase :=
  match c with
  | .claim instanceId =>
    { Phase.start with
      claim := if r.ok = true ∧ s.claimable r = true then some (s.doc.claim instanceId r.now)
        else none }
  | .findUser _ | .findCreator _ | .findCall | .findSettled =>
    { φ with missed := φ.missed || !r.ok }
  | .write w => { φ with missed := φ.missed || !(r.ok && w.applies s.rows) }
  | .log line =>
    { φ with missed := false, outcomes := φ.outcomes ++ [(.billing line.type, !φ.missed)] }
  | .handle name =>
    if r.ok = true then { φ with outcomes := φ.outcomes ++ [(.subscribed name, true)] }
    else { φ with dispatch := .threw }
  | .complete => if r.ok = true then φ else { φ with dispatch := .lost }
  | .resetStale | .fail .. | .findEvent | .replay | .setRows _ => φ

/-- The handlers with something to project: a billing event without a call has nothing. -/
def carriedOf (p : Payload) (handlers : List Handler) : List Handler :=
  handlers.filter fun h => match h with
    | .billing _ => p.namesCall
    | .subscribed _ => true

def Setup.carried (o : Setup) : List Handler := carriedOf o.payload o.getHandlersForType

def Setup.Permits (o : Setup) (φ : Phase) (c : Cmd) : Prop :=
  match c with
  | .log (.projectionFailed ..) => φ.missed = true
  | .complete => φ.outcomes.map Prod.fst = o.carried
  | .fail retryCount dead _ => φ.dispatch ≠ .running ∧ ∃ d, φ.claim = some d ∧
      retryCount = d.retryCount + 1 ∧ dead = decide (o.maxRetries ≤ (retryCount : ℤ))
  | _ => True

/-! ### The workers stay within their phases -/

section Phases

variable {α : Type} {φ : Phase} {m : Bool} {Q : α → Phase → Prop} {E : String → Phase → Prop}

def Phase.marked (φ : Phase) (m : Bool) : Phase := { φ with missed := m }

def Phase.ran (φ : Phase) (h : Handler) (b : Bool) : Phase :=
  { φ with missed := false, outcomes := φ.outcomes ++ [(h, b)] }

def Cmd.looksUp : Cmd → Bool
  | .findUser _ | .findCreator _ | .findCall | .findSettled => true
  | _ => false

theorem lookup_follows {c : Cmd} (hc : c.looksUp = true) {f : Reply × Store → OutboxFlow α}
    (hE : E "request failed" (φ.marked true))
    (h : ∀ r s m, (f (r, s)).Follows (guarded o.Permits Phase.next) (φ.marked m) Q E) :
    (run c >>= f).Follows (guarded o.Permits Phase.next) (φ.marked m) Q E := by
  apply follows_call_bind
  intro r s
  refine ⟨φ.marked (m || !r.ok), ?_, fun _ => h r s _, ?_⟩
  · cases c with
    | findUser | findCreator | findCall | findSettled => exact guarded_of trivial
    | resetStale | claim | write | log | handle | complete | fail | findEvent | replay | setRows =>
      cases hc
  · intro hr
    rw [hr, Bool.not_false, Bool.or_true]
    exact hE

theorem write_follows (w : HistoryWrite) {f : Unit → OutboxFlow α}
    (hE : ∀ e, E e (φ.marked true))
    (h : ∀ m, (f ()).Follows (guarded o.Permits Phase.next) (φ.marked m) Q E) :
    (write w >>= f).Follows (guarded o.Permits Phase.next) (φ.marked m) Q E := by
  apply follows_bind
  apply follows_call_bind
  intro r s
  refine ⟨φ.marked (m || !(r.ok && w.applies s.rows)), guarded_of trivial, ?_, ?_⟩
  · intro hr
    dsimp only
    split
    · rename_i hrefused
      apply follows_throw
      -- a write that is refused does not apply
      have happlies : w.applies s.rows = false := by
        cases w with
        | pending row =>
          show (!HistoryWrite.refused (.pending row) s.rows) = false
          rw [hrefused]
          rfl
        | settled | failed => cases hrefused
      rw [happlies, Bool.and_false, Bool.not_false, Bool.or_true]
      exact hE _
    · exact h _
  · intro hr
    rw [hr, Bool.false_and, Bool.not_false, Bool.or_true]
    exact hE _

theorem log_follows {line : LogLine} (hline : o.Permits (φ.marked m) (.log line)) :
    (log line).Follows (guarded o.Permits Phase.next) (φ.marked m)
      (fun _ ψ => ∃ b, ψ = φ.ran (.billing line.type) b) E := by
  apply follows_issue_bind
  intro r s
  exact ⟨φ.ran (.billing line.type) (!m), guarded_of hline, _, rfl⟩

/-- The projector logs the end, or throws after a failure. -/
def Projects (o : Setup) (φ : Phase) (type : BillingEventType) (p : OutboxFlow Unit) : Prop :=
  ∀ m, p.Follows (guarded o.Permits Phase.next) (φ.marked m)
    (fun _ ψ => ∃ b, ψ = φ.ran (.billing type) b) fun _ ψ => ψ = φ.marked true

variable (p : Payload)

theorem projectEnding_projects (x : Parties) : Projects o φ .ending (projectEnding p x) := by
  intro m
  apply lookup_follows
  · rfl
  · rfl
  intro r s m
  dsimp only
  split
  · exact log_follows trivial
  · apply write_follows
    · exact fun _ => rfl
    intro m
    unfold writeCreatorRow
    split
    · apply write_follows
      · exact fun _ => rfl
      intro m
      exact log_follows trivial
    · exact log_follows trivial

theorem projectSettled_projects (settledAt : ℤ) :
    Projects o φ .settled (projectSettled p settledAt) := by
  intro m
  apply write_follows
  · exact fun _ => rfl
  intro m
  apply write_follows
  · exact fun _ => rfl
  intro m
  exact log_follows trivial

theorem projectFailed_projects : Projects o φ .failedSettlement projectFailed := by
  intro m
  apply write_follows
  · exact fun _ => rfl
  intro m
  exact log_follows trivial

theorem projectEvent_projects (type : BillingEventType) (p : Payload) :
    Projects o φ type (projectEvent type p) := by
  intro m
  apply follows_bind
  apply lookup_follows
  · rfl
  · rfl
  intro ru su m
  apply lookup_follows
  · rfl
  · rfl
  intro rc sc m
  apply lookup_follows
  · rfl
  · rfl
  intro r s m
  apply follows_pure
  cases type with
  | ending => exact projectEnding_projects p _ m
  | settled => exact projectSettled_projects p _ m
  | failedSettlement => exact projectFailed_projects m

theorem projectCallHistoryFromBillingEvent_follows (type : BillingEventType) (p : Payload) :
    (projectCallHistoryFromBillingEvent type p).Follows (guarded o.Permits Phase.next)
      (φ.marked m) (fun _ ψ => ∃ b, ψ = φ.ran (.billing type) b) E := by
  apply follows_tryCatch
  apply (projectEvent_projects type p m).mono (fun _ _ h => h)
  rintro err ψ rfl
  exact log_follows rfl

structure Dispatching (φ ψ : Phase) (handlers : List Handler) : Prop where
  claim : ψ.claim = φ.claim
  dispatch : ψ.dispatch = .running
  outcomes : ψ.outcomes.map Prod.fst = handlers

def Thrown (φ ψ : Phase) : Prop := ψ.claim = φ.claim ∧ ψ.dispatch = .threw

theorem call_follows {ψ : Phase} {handlers : List Handler} (h : Handler)
    (hψ : Dispatching φ ψ handlers) :
    (h.call p).Follows (guarded o.Permits Phase.next) ψ
      (fun _ ψ' => Dispatching φ ψ' (handlers ++ carriedOf p [h])) fun _ ψ' => Thrown φ ψ' := by
  have hran : ∀ b, Dispatching φ (ψ.ran h b) (handlers ++ [h]) := by
    intro b
    refine ⟨hψ.claim, hψ.dispatch, ?_⟩
    show (ψ.outcomes ++ [(h, b)]).map Prod.fst = _
    rw [List.map_append, hψ.outcomes]
    rfl
  cases h with
  | billing type =>
    show Follows _ ψ (if p.namesCall = true then projectCallHistoryFromBillingEvent type p
      else pure ()) _ _
    unfold carriedOf
    cases hcall : p.namesCall with
    | false =>
      rw [if_neg Bool.false_ne_true, List.filter_cons_of_neg, List.filter_nil, List.append_nil]
      · exact follows_pure hψ
      · exact Bool.false_ne_true
    | true =>
      rw [if_pos rfl, List.filter_cons_of_pos, List.filter_nil]
      · apply (projectCallHistoryFromBillingEvent_follows (φ := ψ) (m := ψ.missed) type p).mono
        · rintro _ _ ⟨b, rfl⟩
          exact hran b
        · intro e ψ' h
          exact h
      · rfl
  | subscribed name =>
    apply follows_call_bind
    intro r s
    refine ⟨_, guarded_of trivial, ?_, ?_⟩
    · intro hr
      show Dispatching φ (if r.ok = true then _ else _) (handlers ++ [Handler.subscribed name])
      rw [if_pos hr]
      exact ⟨hψ.claim, hψ.dispatch, (hran true).outcomes⟩
    · intro hr
      show Thrown φ (if r.ok = true then _ else _)
      rw [if_neg (by rw [hr]; exact Bool.false_ne_true)]
      exact ⟨hψ.claim, rfl⟩

theorem dispatch_follows (hs : List Handler) :
    ∀ {ψ : Phase} {handlers : List Handler}, Dispatching φ ψ handlers →
      (dispatchDomainEventPayload p hs).Follows (guarded o.Permits Phase.next) ψ
        (fun _ ψ' => Dispatching φ ψ' (handlers ++ carriedOf p hs)) fun _ ψ' => Thrown φ ψ' := by
  induction hs with
  | nil =>
    intro ψ handlers hψ
    apply follows_pure
    show Dispatching φ ψ (handlers ++ [])
    rw [List.append_nil]
    exact hψ
  | cons h hs ih =>
    intro ψ handlers hψ
    apply follows_bind
    apply (call_follows p h hψ).mono
    · intro _ ψ' hψ'
      have hcarried : carriedOf p (h :: hs) = carriedOf p [h] ++ carriedOf p hs := by
        simp [carriedOf, ← List.filter_append]
      rw [hcarried, ← List.append_assoc]
      exact ih hψ'
    · intro e ψ' h
      exact h

theorem processEvent_follows (doc : DomainEvent) :
    (processEvent o doc).Follows (guarded o.Permits Phase.next)
      ⟨some doc, .running, false, []⟩ (fun _ _ => True) fun _ _ => True := by
  apply follows_tryCatch
  have hfail : ∀ (e : String) (ψ : Phase), ψ.claim = some doc → ψ.dispatch ≠ .running →
      Follows (guarded o.Permits Phase.next) ψ (do
        let _ ← run (.fail (doc.retryCount + 1)
          (decide (o.maxRetries ≤ ((doc.retryCount + 1 : ℕ) : ℤ))) (slice e 2000))
        pure false) (fun _ _ => True) fun _ _ => True := by
    intro e ψ hclaim hdispatch
    apply follows_guarded_bind
    · exact ⟨hdispatch, doc, hclaim, rfl, rfl⟩
    · exact fun _ _ => trivial
    · exact fun _ _ _ => trivial
  have hstart : Dispatching ⟨some doc, .running, false, []⟩ ⟨some doc, .running, false, []⟩ [] :=
    ⟨rfl, rfl, rfl⟩
  apply follows_bind
  apply (dispatch_follows o.payload o.getHandlersForType hstart).mono
  · intro _ ψ hψ
    apply follows_call_bind
    intro r s
    refine ⟨_, guarded_of hψ.outcomes, fun _ => trivial, ?_⟩
    intro hr
    have hnext : ψ.next .complete r s = { ψ with dispatch := .lost } :=
      if_neg (by rw [hr]; exact Bool.false_ne_true)
    rw [hnext]
    apply hfail
    · exact hψ.claim
    · exact fun h => nomatch h
  · rintro e ψ ⟨hclaim, hthrew⟩
    apply hfail e ψ hclaim
    rw [hthrew]
    exact fun h => nomatch h

theorem processLoop_follows (instanceId : String) (i : ℕ) : ∀ (ok : ℕ) (φ : Phase),
    (processLoop o instanceId i ok).Follows (guarded o.Permits Phase.next) φ
      (fun _ _ => True) fun _ _ => True := by
  induction i with
  | zero => exact fun _ _ => trivial
  | succ i ih =>
    intro ok φ
    apply follows_guarded_bind
    · trivial
    · exact fun _ _ => trivial
    intro r s hr
    dsimp only
    split
    · rename_i hclaimable
      have hnext : φ.next (.claim instanceId) r s =
          ⟨some (s.doc.claim instanceId r.now), .running, false, []⟩ := by
        show Phase.mk (if r.ok = true ∧ s.claimable r = true then _ else none) _ _ _ = _
        rw [if_pos ⟨hr, hclaimable⟩]
        rfl
      rw [hnext]
      apply follows_bind
      apply (processEvent_follows _).mono
      · exact fun done ψ _ => ih _ ψ
      · exact fun _ _ h => h
    · split
      · exact ih _ _
      · trivial

theorem prog_follows (q : Request) :
    (q.prog o).Follows (guarded o.Permits Phase.next) Phase.start fun _ _ => True := by
  cases q with
  | work instanceId limit =>
    apply Follows.run
    unfold processPendingDomainEvents
    split
    · trivial
    · apply follows_guarded_bind
      · trivial
      · exact fun _ _ => trivial
      · exact fun _ _ _ => processLoop_follows instanceId limit 0 _
  | replay =>
    apply Follows.run
    apply follows_guarded_bind
    · trivial
    · exact fun _ _ => trivial
    intro r s hr
    apply follows_guarded_bind
    · trivial
    · exact fun _ _ => trivial
    · exact fun _ _ _ => trivial
  | setRows rows =>
    apply Follows.run
    intro r s
    refine ⟨_, guarded_of trivial, ?_⟩
    rw [Prog.follows_ret]
    cases r.ok <;> trivial

end Phases

/-! ### The condition -/

/-- The condition on a command, with the phase of the worker that issues it.  No command of the
projector fails, and its writes apply; a completion is carried out and answered; and the document
that an outcome is written to is the one that the worker has claimed. -/
def Sound (x : Phase × Event Cmd Reply Store) : Prop :=
  match x.2.cmd with
  | .findUser _ | .findCreator _ | .findCall | .findSettled => x.2.ans.ok = true
  | .write w => x.2.ans.ok = true ∧ w.applies x.2.before.rows = true
  | .complete => x.2.ans.ok = true ∧ x.1.claim = some x.2.before.doc
  | .fail .. => x.2.ans.delivered = true → x.1.claim = some x.2.before.doc
  | _ => True

structure Clean (φ : Phase) : Prop where
  missed : φ.missed = false
  lost : φ.dispatch ≠ .lost
  outcomes : ∀ x ∈ φ.outcomes, x.2 = true
  processing : ∀ d, φ.claim = some d → d.status = .processing

theorem clean_start : Clean Phase.start :=
  ⟨rfl, fun h => (nomatch h), fun _ h => (nomatch h), fun _ h => (nomatch h)⟩

variable {φ : Phase} {c : Cmd} {r : Reply} {s t : Store}

theorem Clean.next (h : Clean φ) (hsound : Sound (φ, ⟨s, c, r, t⟩)) : Clean (φ.next c r s) := by
  have hmissed : ∀ b, b = true → Clean { φ with missed := φ.missed || !b } := by
    rintro b rfl
    exact ⟨by rw [h.missed]; rfl, h.lost, h.outcomes, h.processing⟩
  have hran : ∀ h' : Handler, ∀ x ∈ φ.outcomes ++ [(h', true)], x.2 = true := by
    intro h' x hx
    rcases mem_snoc.1 hx with hx | rfl
    · exact h.outcomes x hx
    · rfl
  cases c with
  | claim instanceId =>
    refine ⟨rfl, fun h => (nomatch h), fun _ h => (nomatch h), ?_⟩
    intro d hd
    have hd : (if r.ok = true ∧ s.claimable r = true then some (s.doc.claim instanceId r.now)
      else none) = some d := hd
    split at hd
    · cases hd
      rfl
    · cases hd
  | findUser | findCreator | findCall | findSettled => exact hmissed _ hsound
  | write w =>
    apply hmissed
    rw [hsound.1, hsound.2]
    rfl
  | log line =>
    refine ⟨rfl, h.lost, ?_, h.processing⟩
    show ∀ x ∈ φ.outcomes ++ [(Handler.billing line.type, !φ.missed)], x.2 = true
    rw [h.missed]
    exact hran _
  | handle name =>
    show Clean (if r.ok = true then _ else _)
    split
    · exact ⟨h.missed, h.lost, hran _, h.processing⟩
    · exact ⟨h.missed, fun h => (nomatch h), h.outcomes, h.processing⟩
  | complete =>
    show Clean (if r.ok = true then _ else _)
    rw [if_pos hsound.1]
    exact h
  | resetStale | fail | findEvent | replay | setRows => exact h

/-! ### What a command does -/

def replayed (x : Phase × Event Cmd Reply Store) : Bool :=
  match x.2.cmd with
  | .replay => x.2.ans.delivered
  | _ => false

def begun (x : Phase × Event Cmd Reply Store) : Bool :=
  match x.2.cmd with
  | .claim _ => x.2.ans.ok && x.2.before.claimable x.2.ans
  | _ => false

def failedDispatch (x : Phase × Event Cmd Reply Store) : Bool :=
  match x.2.cmd with
  | .fail .. => x.2.ans.delivered && x.1.dispatch == .threw
  | _ => false

def stamp (x : Phase × Event Cmd Reply Store) : Option (String × ℤ) :=
  match x.2.cmd with
  | .claim instanceId =>
    if x.2.ans.delivered = true ∧ x.2.before.claimable x.2.ans = true then
      some (instanceId, x.2.ans.now)
    else none
  | _ => none

/-- What a command does to the document: whether it is a replay, begins a dispatch or counts a
failed one, and the claim that it makes. -/
inductive Effect (o : Setup) (φ : Phase) (d : DomainEvent) :
    Bool → Bool → Bool → Option (String × ℤ) → DomainEvent → Prop where
  | rest : Effect o φ d false false false none d
  | reset (hd : d.status = .processing) : Effect o φ d false false false none d.reset
  | claimed (begun : Bool) (instanceId : String) (now : ℤ) (hd : d.status = .pending) :
    Effect o φ d false begun false (some (instanceId, now)) (d.claim instanceId now)
  | completed (now : ℤ) (hclaim : φ.claim = some d)
    (hall : φ.outcomes = o.carried.map fun h => (h, true)) :
    Effect o φ d false false false none (d.complete now)
  | failed (dead : Bool) (lastError : String) (hclaim : φ.claim = some d)
    (hdead : dead = decide (o.maxRetries ≤ ((d.retryCount + 1 : ℕ) : ℤ))) :
    Effect o φ d false false true none (d.fail (d.retryCount + 1) dead lastError)
  | replayed : Effect o φ d true false false none d.replay

theorem outcomes_eq (h : Clean φ) (hcarried : φ.outcomes.map Prod.fst = o.carried) :
    φ.outcomes = o.carried.map fun h => (h, true) := by
  rw [← hcarried, List.map_map]
  conv_lhs => rw [← List.map_id φ.outcomes]
  apply List.map_congr_left
  intro x hx
  show x = (x.1, true)
  rw [← h.outcomes x hx]

theorem exec_effect (hφ : Clean φ) (hpermits : o.Permits φ c)
    (hsound : Sound (φ, ⟨s, c, r, c.exec o r s⟩)) :
    Effect o φ s.doc (replayed (φ, ⟨s, c, r, c.exec o r s⟩)) (begun (φ, ⟨s, c, r, c.exec o r s⟩))
      (failedDispatch (φ, ⟨s, c, r, c.exec o r s⟩)) (stamp (φ, ⟨s, c, r, c.exec o r s⟩))
      (c.exec o r s).doc := by
  cases hr : r.delivered with
  | false =>
    have hexec : c.exec o r s = s := if_pos hr
    have hok : r.ok = false := by rw [Reply.ok, hr, Bool.false_and]
    rw [hexec]
    cases c with
    | claim instanceId =>
      show Effect o φ s.doc false (r.ok && s.claimable r) false (if _ then _ else _) s.doc
      rw [hok, Bool.false_and, if_neg (by rw [hr]; exact fun h => Bool.noConfusion h.1)]
      exact .rest
    | replay =>
      show Effect o φ s.doc r.delivered false false none s.doc
      rw [hr]
      exact .rest
    | fail =>
      show Effect o φ s.doc false false (r.delivered && _) none s.doc
      rw [hr]
      exact .rest
    | complete =>
      simp [hsound.1] at hok
    | resetStale | findUser | findCreator | findCall | findSettled | write | log | handle
      | findEvent | setRows => exact .rest
  | true =>
    have hexec : c.exec o r s = _ := if_neg (by rw [hr]; exact Bool.noConfusion)
    rw [hexec]
    cases c with
    | claim instanceId =>
      show Effect o φ s.doc false (r.ok && s.claimable r) false (if _ then _ else _)
        (if _ then _ else _ : Store).doc
      cases hclaimable : s.claimable r with
      | false =>
        simpa using .rest
      | true =>
        rw [if_pos ⟨hr, rfl⟩, if_pos rfl]
        exact .claimed _ _ _ (eq_of_beq (Bool.and_eq_true_iff.1 hclaimable).2)
    | replay =>
      show Effect o φ s.doc r.delivered false false none s.doc.replay
      rw [hr]
      exact .replayed
    | fail retryCount dead lastError =>
      obtain ⟨hdispatch, d, hd, rfl, hdead⟩ := hpermits
      have hclaim := hsound hr
      obtain rfl : d = s.doc := Option.mem_unique hd hclaim
      have hthrew : φ.dispatch = .threw := by
        cases h : φ.dispatch with
        | running => exact absurd h hdispatch
        | threw => rfl
        | lost => exact absurd h hφ.lost
      show Effect o φ s.doc false false (r.delivered && φ.dispatch == .threw) none _
      rw [hr, hthrew]
      exact .failed dead lastError hclaim hdead
    | complete => exact .completed _ hsound.2 (outcomes_eq hφ hpermits)
    | resetStale =>
      show Effect o φ s.doc false false false none (if _ then _ else _ : Store).doc
      split
      · rename_i hstale
        exact .reset (eq_of_beq (Bool.and_eq_true_iff.1 hstale).1)
      · exact .rest
    | findUser | findCreator | findCall | findSettled | write | log | handle | findEvent
      | setRows => exact .rest

namespace Effect

variable {d d' : DomainEvent} {a b f : Bool} {k : Option (String × ℤ)}

theorem applied (h : Effect o φ d a b f k d') (hbefore : d.status ≠ .processed)
    (hafter : d'.status = .processed) : φ.outcomes = o.carried.map fun h => (h, true) := by
  cases h with
  | completed now hclaim hall => exact hall
  | rest => exact absurd hafter hbefore
  | reset | claimed | replayed => cases hafter
  | failed dead =>
    cases dead <;> cases hafter

theorem stays (h : Effect o φ d a b f k d') (hφ : Clean φ) (hbefore : d.status = .processed)
    (ha : a = false) : d'.status = .processed := by
  cases h with
  | rest => exact hbefore
  | completed => rfl
  | replayed => cases ha
  | reset hd | claimed _ _ _ hd =>
    simp [hbefore] at hd
  | failed _ _ hclaim =>
    have hd := hφ.processing d hclaim
    simp [hbefore] at hd

theorem retryCount (h : Effect o φ d a b f k d') :
    d'.retryCount = if a = true then 0 else d.retryCount + f.toNat := by
  cases h <;> rfl

theorem dead (h : Effect o φ d a b f k d')
    (hd : d.status = .dead → o.maxRetries ≤ (d.retryCount : ℤ)) (hdead : d'.status = .dead) :
    o.maxRetries ≤ (d'.retryCount : ℤ) := by
  cases h with
  | rest => exact hd hdead
  | reset | claimed | completed | replayed => cases hdead
  | failed dead lastError hclaim hmax =>
    cases dead with
    | true => exact of_decide_eq_true hmax.symm
    | false => cases hdead

end Effect

/-! ### The statement -/

abbrev Log : Type := List (Phase × Event Cmd Reply Store)

def awaiting (l : Log) : Bool :=
  l.foldl (fun b x => replayed x || b && !begun x) false

def failures (l : Log) : ℕ :=
  l.foldl (fun n x => if replayed x = true then 0 else n + (failedDispatch x).toNat) 0

def stamps (l : Log) : List (String × ℤ) := l.filterMap stamp

structure OutboxKept (o : Setup) (l : Log) (s : Store) : Prop where
  /-- The event is marked by a dispatch that has run and applied all of its handlers. -/
  applied : ∀ x ∈ l, x.2.before.doc.status ≠ .processed → x.2.after.doc.status = .processed →
    x.1.outcomes = o.carried.map fun h => (h, true)
  stays : ∀ x ∈ l, x.2.before.doc.status = .processed → replayed x = false →
    x.2.after.doc.status = .processed
  dispatched : awaiting l = true → s.doc.status = .pending ∨ s.doc.status = .processing
  dead : s.doc.status = .dead → o.maxRetries ≤ (failures l : ℤ)

def watch (o : Setup) (rows : List CallHistory) (ms : List (Move Request Reply)) :
    Watched Phase Cmd Reply Store :=
  (Watched.start ⟨.persisted, rows⟩).play Phase.next (fun _ => Phase.start) (Cmd.exec o)
    (Request.prog o) ms

/-! ### Whole runs -/

section Log

variable {l : Log} {x : Phase × Event Cmd Reply Store}

theorem awaiting_snoc : awaiting (l ++ [x]) = (replayed x || awaiting l && !begun x) := by
  unfold awaiting
  rw [List.foldl_append]
  rfl

theorem failures_snoc : failures (l ++ [x]) =
    if replayed x = true then 0 else failures l + (failedDispatch x).toNat := by
  unfold failures
  rw [List.foldl_append]
  rfl

theorem stamps_snoc : stamps (l ++ [x]) = stamps l ++ (stamp x).toList := by
  grind [stamps]

end Log

def Stamped (l : Log) (φ : Phase) : Prop :=
  ∀ d, φ.claim = some d → ∃ k ∈ stamps l, d.claimedBy = some k.1 ∧ d.claimedAt = some k.2

/-- After a replay and before a dispatch, the event is pending, or under a claim that no worker
knows of. -/
def Waits (φs : List Phase) (d : DomainEvent) : Prop :=
  d.status = .pending ∨ d.status = .processing ∧ ∀ φ ∈ φs, φ.claim ≠ some d

structure Run (o : Setup) (φs : List Phase) (l : Log) (s : Store) : Prop where
  clean : ∀ φ ∈ φs, Clean φ
  stamped : ∀ φ ∈ φs, Stamped l φ
  applied : ∀ x ∈ l, x.2.before.doc.status ≠ .processed → x.2.after.doc.status = .processed →
    x.1.outcomes = o.carried.map fun h => (h, true)
  stays : ∀ x ∈ l, x.2.before.doc.status = .processed → replayed x = false →
    x.2.after.doc.status = .processed
  waits : (stamps l).Nodup → awaiting l = true → Waits φs s.doc
  retryCount : s.doc.retryCount = failures l
  dead : s.doc.status = .dead → o.maxRetries ≤ (s.doc.retryCount : ℤ)

theorem next_claim (φ : Phase) (c : Cmd) (r : Reply) (s : Store) :
    (φ.next c r s).claim = φ.claim ∨ (φ.next c r s).claim = none ∨
      ∃ instanceId, c = .claim instanceId ∧ r.ok = true ∧ s.claimable r = true ∧
        (φ.next c r s).claim = some (s.doc.claim instanceId r.now) := by
  cases c with
  | claim instanceId =>
    by_cases h : r.ok = true ∧ s.claimable r = true
    · exact .inr (.inr ⟨instanceId, rfl, h.1, h.2, if_pos h⟩)
    · exact .inr (.inl (if_neg h))
  | handle name =>
    left
    show (if r.ok = true then _ else _ : Phase).claim = _
    split <;> rfl
  | complete =>
    left
    show (if r.ok = true then _ else _ : Phase).claim = _
    split <;> rfl
  | resetStale | findUser | findCreator | findCall | findSettled | write | log | fail | findEvent
    | replay | setRows => exact .inl rfl

theorem delivered_of_ok (h : r.ok = true) : r.delivered = true := (Bool.and_eq_true_iff.1 h).1

variable {l : Log}

theorem Stamped.mono (h : Stamped l φ) (x : Phase × Event Cmd Reply Store) :
    Stamped (l ++ [x]) φ := by
  intro d hd
  obtain ⟨k, hk, hk'⟩ := h d hd
  refine ⟨k, ?_, hk'⟩
  rw [stamps_snoc]
  exact List.mem_append_left _ hk

theorem Stamped.next (h : Stamped l φ) : Stamped (l ++ [(φ, ⟨s, c, r, t⟩)]) (φ.next c r s) := by
  intro d hd
  obtain hclaim | hclaim | ⟨instanceId, rfl, hok, hclaimable, hclaim⟩ := next_claim φ c r s
  · rw [hclaim] at hd
    exact h.mono _ d hd
  · simp [hclaim] at hd
  · rw [hclaim] at hd
    cases hd
    refine ⟨(instanceId, r.now), ?_, rfl, rfl⟩
    have hstamp : stamp (φ, ⟨s, .claim instanceId, r, t⟩) = some (instanceId, r.now) :=
      if_pos ⟨delivered_of_ok hok, hclaimable⟩
    simp [stamps_snoc, hstamp]

variable {φs : List Phase}

theorem waits_step {i : ℕ} (h : Run o φs l s) (hi : φs[i]? = some φ)
    (heffect : Effect o φ s.doc (replayed (φ, ⟨s, c, r, t⟩)) (begun (φ, ⟨s, c, r, t⟩))
      (failedDispatch (φ, ⟨s, c, r, t⟩)) (stamp (φ, ⟨s, c, r, t⟩)) t.doc)
    (hnodup : (stamps (l ++ [(φ, ⟨s, c, r, t⟩)])).Nodup)
    (hawaiting : awaiting (l ++ [(φ, ⟨s, c, r, t⟩)]) = true) :
    Waits (φs.set i (φ.next c r s)) t.doc := by
  have hmem : φ ∈ φs := List.mem_of_getElem? hi
  rw [stamps_snoc] at hnodup
  rw [awaiting_snoc] at hawaiting
  have hold : (stamps l).Nodup := (List.nodup_append.1 hnodup).1
  have hnext : begun (φ, ⟨s, c, r, t⟩) = false → ∀ d, φ.claim ≠ some d →
      (φ.next c r s).claim ≠ some d := by
    intro hbegun d hd hclaim'
    obtain hclaim | hclaim | ⟨instanceId, rfl, hok, hclaimable, -⟩ := next_claim φ c r s
    · rw [hclaim] at hclaim'
      exact hd hclaim'
    · simp [hclaim] at hclaim'
    · have htrue : begun (φ, ⟨s, .claim instanceId, r, t⟩) = true := by
        show (r.ok && s.claimable r) = true
        rw [hok, hclaimable]
        rfl
      simp [hbegun] at htrue
  generalize replayed (φ, ⟨s, c, r, t⟩) = a at *
  generalize begun (φ, ⟨s, c, r, t⟩) = b at *
  generalize failedDispatch (φ, ⟨s, c, r, t⟩) = f at *
  generalize stamp (φ, ⟨s, c, r, t⟩) = k at *
  generalize t.doc = d at *
  -- an outcome is written to a document that a worker knows of
  have hknown : φ.claim = some s.doc → awaiting l = true → False := by
    intro hclaim hwait
    rcases h.waits hold hwait with hpending | ⟨-, hne⟩
    · simp [(h.clean φ hmem).processing _ hclaim] at hpending
    · exact hne φ hmem hclaim
  cases heffect with
  | rest =>
    rw [Bool.false_or, Bool.not_false, Bool.and_true] at hawaiting
    rcases h.waits hold hawaiting with hpending | ⟨hprocessing, hne⟩
    · exact .inl hpending
    · exact .inr ⟨hprocessing, Pool.forall_set hne (hnext rfl _ (hne φ hmem))⟩
  | reset | replayed => exact .inl rfl
  | claimed _ instanceId now hd =>
    right
    refine ⟨rfl, ?_⟩
    cases b with
    | true =>
      simp [Bool.not_true, Bool.and_false] at hawaiting
    | false =>
      -- the stamp is new, so no worker has it
      have hne : ∀ φ ∈ φs, φ.claim ≠ some (s.doc.claim instanceId now) := by
        intro ψ hψ hclaim
        obtain ⟨k, hk, hby, hat⟩ := h.stamped ψ hψ _ hclaim
        obtain rfl : (instanceId, now) = k :=
          Prod.ext (Option.some.inj hby) (Option.some.inj hat)
        exact (List.nodup_append.1 hnodup).2.2 _ hk _ List.mem_cons_self rfl
      exact Pool.forall_set hne (hnext rfl _ (hne φ hmem))
  | completed now hclaim =>
    rw [Bool.false_or, Bool.not_false, Bool.and_true] at hawaiting
    exact (hknown hclaim hawaiting).elim
  | failed dead lastError hclaim =>
    rw [Bool.false_or, Bool.not_false, Bool.and_true] at hawaiting
    exact (hknown hclaim hawaiting).elim

theorem Run.spawn (h : Run o φs l s) : Run o (φs ++ [Phase.start]) l s := by
  have hall : ∀ {P : Phase → Prop}, (∀ φ ∈ φs, P φ) → P Phase.start →
      ∀ φ ∈ φs ++ [Phase.start], P φ := by
    intro P hφs hstart φ hφ
    rcases mem_snoc.1 hφ with hφ | rfl
    · exact hφs φ hφ
    · exact hstart
  refine { h with
    clean := hall h.clean clean_start
    stamped := hall h.stamped fun _ hd => (nomatch hd)
    waits := fun hnodup hawaiting => ?_ }
  rcases h.waits hnodup hawaiting with hpending | ⟨hprocessing, hne⟩
  · exact .inl hpending
  · exact .inr ⟨hprocessing, hall hne fun hd => (nomatch hd)⟩

theorem run_step {i : ℕ} (h : Run o φs l s) (hi : φs[i]? = some φ) (hpermits : o.Permits φ c)
    (hsound : Sound (φ, ⟨s, c, r, c.exec o r s⟩)) :
    Run o (φs.set i (φ.next c r s)) (l ++ [(φ, ⟨s, c, r, c.exec o r s⟩)]) (c.exec o r s) := by
  have hmem : φ ∈ φs := List.mem_of_getElem? hi
  have hclean := h.clean φ hmem
  have heffect := exec_effect hclean hpermits hsound
  have hlog : ∀ {P : Phase × Event Cmd Reply Store → Prop}, (∀ x ∈ l, P x) →
      P (φ, ⟨s, c, r, c.exec o r s⟩) → ∀ x ∈ l ++ [(φ, ⟨s, c, r, c.exec o r s⟩)], P x := by
    intro P hl hx x hmem
    rcases mem_snoc.1 hmem with hmem | rfl
    · exact hl x hmem
    · exact hx
  constructor
  · exact Pool.forall_set h.clean (hclean.next hsound)
  · exact Pool.forall_set (fun ψ hψ => (h.stamped ψ hψ).mono _) (h.stamped φ hmem).next
  · exact hlog h.applied heffect.applied
  · exact hlog h.stays (heffect.stays hclean)
  · exact fun hnodup hawaiting => waits_step h hi heffect hnodup hawaiting
  · rw [heffect.retryCount, failures_snoc, h.retryCount]
  · exact heffect.dead h.dead

/-- **No projection of the event is lost**, in every run all of whose commands meet the condition,
and in which no instance claims the event twice at one time. -/
theorem outboxKept_run (o : Setup) (rows : List CallHistory) (ms : List (Move Request Reply))
    (hsound : ∀ x ∈ (watch o rows ms).log, Sound x)
    (hstamps : (stamps (watch o rows ms).log).Nodup) :
    OutboxKept o (watch o rows ms).log (watch o rows ms).pool.store := by
  obtain ⟨-, -, hrun⟩ := Watched.play_phased (fun φs l t => Run o φs l t) Sound prog_follows
    (s := ⟨.persisted, rows⟩)
    { clean := fun _ h => (nomatch h)
      stamped := fun _ h => (nomatch h)
      applied := fun _ h => (nomatch h)
      stays := fun _ h => (nomatch h)
      waits := fun _ h => Bool.noConfusion h
      retryCount := rfl
      dead := fun h => (nomatch h) }
    (fun _ _ _ _ h => h.spawn) (fun _ _ _ _ _ _ _ h hi hpermits hsound =>
      run_step h hi hpermits hsound) ms hsound
  have hrun : Run o (watch o rows ms).phases (watch o rows ms).log (watch o rows ms).pool.store :=
    hrun
  constructor
  · exact hrun.applied
  · exact hrun.stays
  · intro hawaiting
    rcases hrun.waits hstamps hawaiting with h | h
    · exact .inl h
    · exact .inr h.1
  · intro hdead
    rw [← hrun.retryCount]
    exact hrun.dead hdead

/-! ### Runs of a settled event -/

instance : DecidablePred Sound := fun x => by
  unfold Sound
  split <;> infer_instance

def settledCall (maxRetries : ℤ) : Setup where
  enabled := true
  maxRetries := maxRetries
  claimTtlMs := 120000
  subscriptions := billingSubscriptions
  eventType := "call.billing.settled"
  payload :=
    { callId := "call-1", aggregateId := "call-1", userMongoId := "u1", creatorMongoId := "c1"
      userFirebaseUid := "fu1", creatorFirebaseUid := "fc1", durationSeconds := some 60
      coinsDeducted := some 60, walletCoinsDeducted := some 60, coinsEarned := some 18
      paidCoinsEarned := none, freeCoinsEarned := none }

def pendingRows : List CallHistory :=
  let p := (settledCall 8).payload
  let x := parties none (some ⟨"c1", "Mira", none, some "u2"⟩) none 0
  [userRow p x, creatorRow p x "u2"]

def answer (ok : Bool) (now : ℤ) : Reply := ⟨ok, ok, now, true, none, none, none, none⟩

def steps (i : ℕ) (answers : List (Bool × ℤ)) : List (Move Request Reply) :=
  answers.map fun x => .step i (answer x.1 x.2)

/-- A worker that claims the event and dispatches it. -/
def processed : List (Move Request Reply) :=
  .spawn (.work "a" 1) :: steps 0 (List.replicate 9 (true, 5))

theorem outboxKept_processed :
    OutboxKept (settledCall 8) (watch (settledCall 8) pendingRows processed).log
        (watch (settledCall 8) pendingRows processed).pool.store ∧
      (watch (settledCall 8) pendingRows processed).pool.store.doc.status = .processed :=
  ⟨outboxKept_run _ _ _ (by decide +kernel) (by decide +kernel), by decide +kernel⟩

/-- The lookup of the user fails, and the event is completed. -/
def swallowed : List (Move Request Reply) :=
  .spawn (.work "a" 1) :: steps 0 [(true, 0), (true, 0), (false, 0), (true, 0), (true, 0)]

/-- A worker that stops for too long, and loses the completion that it then writes. -/
def overwritten : List (Move Request Reply) :=
  .spawn (.work "a" 1) :: .spawn (.work "b" 1) :: steps 0 (List.replicate 8 (true, 0)) ++
    steps 1 (List.replicate 9 (true, 200000)) ++ steps 0 [(false, 200000), (true, 200000)]

def replayedDuring : List (Move Request Reply) :=
  .spawn (.work "a" 1) :: .spawn .replay :: steps 0 (List.replicate 8 (true, 0)) ++
    steps 1 (List.replicate 2 (true, 0)) ++ steps 0 [(true, 0)]

/-- The completion fails, after a dispatch that did not. -/
def completionLost : List (Move Request Reply) :=
  .spawn (.work "a" 1) :: steps 0 (List.replicate 8 (true, 0) ++ [(false, 0), (true, 0)])

/-- Without the condition, each part of the statement fails. -/
theorem outbox_loses :
    ¬ OutboxKept (settledCall 8) (watch (settledCall 8) pendingRows swallowed).log
        (watch (settledCall 8) pendingRows swallowed).pool.store ∧
      ¬ OutboxKept (settledCall 8) (watch (settledCall 8) pendingRows overwritten).log
        (watch (settledCall 8) pendingRows overwritten).pool.store ∧
      ¬ OutboxKept (settledCall 8) (watch (settledCall 8) pendingRows replayedDuring).log
        (watch (settledCall 8) pendingRows replayedDuring).pool.store ∧
      ¬ OutboxKept (settledCall 1) (watch (settledCall 1) pendingRows completionLost).log
        (watch (settledCall 1) pendingRows completionLost).pool.store := by
  refine ⟨fun h => ?_, fun h => ?_, fun h => ?_, fun h => ?_⟩
  · exact absurd h.applied (by decide +kernel)
  · exact absurd h.stays (by decide +kernel)
  · exact absurd h.dispatched (by decide +kernel)
  · exact absurd h.dead (by decide +kernel)

end VibemeetBackend.Outbox
