import VibemeetBackend.Async.Flow
import VibemeetBackend.Async.Pool

/-!
# Programs that follow a protocol

A protocol is a transition function on phases: in a phase a program may issue a command only if the
function is defined on it, whatever the command is answered and whatever store it finds, and it then
is in the next phase.  What the phases of the programs in progress say about the shared store is a
pool invariant.
-/

namespace VibemeetBackend.Async

variable {C ρ σ α β Φ : Type} {C' ρ' σ' : Type}

variable {view : σ' → σ} {ans : ρ' → ρ} {wrap : C → C'} {φ : Φ} {P : C → Prop}

namespace Prog

/-- From a phase, the program issues only commands the protocol allows and returns in a phase that
satisfies `Q`. -/
def Follows (δ : Φ → C → ρ → σ → Option Φ) : Φ → Prog C ρ σ α → (α → Φ → Prop) → Prop
  | φ, .ret a, Q => Q a φ
  | φ, .act c k, Q => ∀ r s, ∃ φ', δ φ c r s = some φ' ∧ Follows δ φ' (k r s) Q

variable {δ : Φ → C → ρ → σ → Option Φ} {φ : Φ}

@[simp] theorem follows_ret {a : α} {Q : α → Φ → Prop} :
    Follows δ φ (.ret a : Prog C ρ σ α) Q ↔ Q a φ := Iff.rfl

theorem follows_bind {p : Prog C ρ σ α} {f : α → Prog C ρ σ β} {Q : β → Φ → Prop} :
    Follows δ φ (p >>= f) Q ↔ Follows δ φ p fun a φ' => Follows δ φ' (f a) Q := by
  induction p generalizing φ with
  | ret a => exact Iff.rfl
  | act c k ih =>
    refine forall_congr' fun r => forall_congr' fun s => exists_congr fun φ' => ?_
    exact and_congr_right fun _ => ih r s

theorem Follows.mono {p : Prog C ρ σ α} {Q Q' : α → Φ → Prop} (h : Follows δ φ p Q)
    (hq : ∀ a φ, Q a φ → Q' a φ) : Follows δ φ p Q' := by
  induction p generalizing φ with
  | ret a => exact hq a φ h
  | act c k ih =>
    intro r s
    obtain ⟨φ', hφ', hk⟩ := h r s
    exact ⟨φ', hφ', ih r s hk⟩

def focus (wrap : C → C') (ans : ρ' → ρ) (view : σ' → σ) : Prog C ρ σ α → Prog C' ρ' σ' α
  | .ret a => .ret a
  | .act c k => .act (wrap c) fun r s => focus wrap ans view (k (ans r) (view s))

theorem focus_bind (p : Prog C ρ σ α) (f : α → Prog C ρ σ β) :
    (p >>= f).focus wrap ans view =
      p.focus wrap ans view >>= fun a => (f a).focus wrap ans view := by
  induction p with
  | ret a => rfl
  | act c k ih =>
    show Prog.act _ _ = Prog.act _ _
    apply congrArg
    funext r s
    exact ih (ans r) (view s)

theorem issues_focus {I : σ → Prop} {I' : σ' → Prop} {P' : C' → Prop} {p : Prog C ρ σ α}
    (hp : p.Issues I P) (hI : ∀ s, I' s → I (view s)) (hP : ∀ c, P c → P' (wrap c)) :
    (p.focus wrap ans view).Issues I' P' := by
  induction p with
  | ret a => trivial
  | act c k ih =>
    refine ⟨hP c hp.1, ?_⟩
    intro r s hs
    exact ih _ _ (hp.2 (ans r) (view s) (hI s hs))

/-- A program on a part of the store whose protocol the larger one simulates. -/
theorem follows_focus {Ψ : Type} {δ' : Ψ → C → ρ → σ → Option Ψ} {ψ : Ψ}
    {δ : Φ → C' → ρ' → σ' → Option Φ} {R : Ψ → Φ → Prop} {p : Prog C ρ σ α} {Q : α → Ψ → Prop}
    (hp : p.Follows δ' ψ Q)
    (hδ : ∀ ψ φ c r s ψ', R ψ φ → δ' ψ c (ans r) (view s) = some ψ' →
      ∃ φ', δ φ (wrap c) r s = some φ' ∧ R ψ' φ') (h₀ : R ψ φ) :
    (p.focus wrap ans view).Follows δ φ fun a φ' => ∃ ψ', R ψ' φ' ∧ Q a ψ' := by
  induction p generalizing ψ φ with
  | ret a => exact ⟨ψ, h₀, hp⟩
  | act c k ih =>
    intro r s
    obtain ⟨ψ', hψ', hk⟩ := hp (ans r) (view s)
    obtain ⟨φ', hφ', hR⟩ := hδ ψ φ c r s ψ' h₀ hψ'
    exact ⟨φ', hφ', ih (ans r) (view s) hk hR⟩

/-- A program on a part of a store, as a `Flow`: a command whose answer is not `ok` throws. -/
def focusFlow (ok : C' → ρ' → Bool) (err : C' → String) (wrap : C → C') (ans : ρ' → ρ)
    (view : σ' → σ) : Prog C ρ σ α → Flow C' ρ' σ' α
  | .ret a => ExceptT.mk (.ret (.ok a))
  | .act c k => ExceptT.mk (.act (wrap c) fun r s =>
    if ok (wrap c) r then (focusFlow ok err wrap ans view (k (ans r) (view s))).run
    else .ret (.error (err (wrap c))))

end Prog

/-! ### Programs that may throw -/

namespace Flow

variable {δ : Φ → C → ρ → σ → Option Φ} {φ : Φ} {Q : α → Φ → Prop} {E : String → Φ → Prop}

/-- A `Flow` follows a protocol: it returns in a phase satisfying `Q` or throws in one satisfying
`E`. -/
def Follows (δ : Φ → C → ρ → σ → Option Φ) (φ : Φ) (p : Flow C ρ σ α) (Q : α → Φ → Prop)
    (E : String → Φ → Prop) : Prop :=
  Prog.Follows δ φ p.run fun x φ' => match x with
    | .ok a => Q a φ'
    | .error e => E e φ'

theorem follows_pure {a : α} (h : Q a φ) : Follows δ φ (pure a : Flow C ρ σ α) Q E := h

theorem follows_throw {e : String} (h : E e φ) : Follows δ φ (throw e : Flow C ρ σ α) Q E := h

theorem follows_bind {p : Flow C ρ σ β} {f : β → Flow C ρ σ α}
    (h : Follows δ φ p (fun b φ' => Follows δ φ' (f b) Q E) E) :
    Follows δ φ (p >>= f) Q E := by
  refine Prog.follows_bind.2 (Prog.Follows.mono h fun x φ' hx => ?_)
  cases x with
  | _ => exact hx

variable {p : Flow C ρ σ α} {h : String → Flow C ρ σ α}

theorem follows_tryCatch (hp : Follows δ φ p Q fun e φ' => Follows δ φ' (h e) Q E) :
    Follows δ φ (tryCatch p h) Q E := by
  refine Prog.follows_bind.2 (Prog.Follows.mono hp fun x φ' hx => ?_)
  cases x with
  | _ => exact hx

theorem follows_attempt {p : Flow C ρ σ β} {Q : Except String β → Φ → Prop}
    (hp : Follows δ φ p (fun b φ' => Q (.ok b) φ') fun e φ' => Q (.error e) φ') :
    Follows δ φ (attempt p) Q E := by
  refine Prog.follows_bind.2 (Prog.Follows.mono hp fun x φ' hx => ?_)
  cases x with
  | _ => exact hx

theorem follows_mk {x : Except String α} (hok : ∀ a, x = .ok a → Q a φ)
    (herror : ∀ e, x = .error e → E e φ) :
    Follows δ φ (ExceptT.mk (pure x) : Flow C ρ σ α) Q E := by
  cases x with
  | ok a => exact hok a rfl
  | error e => exact herror e rfl

variable {f : ρ × σ → Flow C ρ σ α} {ok : ρ → Bool} {err : String}

theorem follows_call_bind {c : C}
    (h : ∀ r s, ∃ φ', δ φ c r s = some φ' ∧ (ok r = true → Follows δ φ' (f (r, s)) Q E) ∧
      (ok r = false → E err φ')) : Follows δ φ (call ok err c >>= f) Q E := by
  intro r s
  obtain ⟨φ', hδ, hok, herror⟩ := h r s
  refine ⟨φ', hδ, ?_⟩
  show Prog.Follows δ φ' (ExceptT.bindCont f (if ok r then .ok (r, s) else .error err)) _
  cases hr : ok r with
  | true => exact hok hr
  | false => exact herror hr

theorem follows_keep_bind {c : C} (hδ : ∀ r s, δ φ c r s = some φ) (hE : E err φ)
    (h : ∀ r s, Follows δ φ (f (r, s)) Q E) : Follows δ φ (call ok err c >>= f) Q E :=
  follows_call_bind fun r s => ⟨φ, hδ r s, fun _ => h r s, fun _ => hE⟩

theorem Follows.mono {Q' : α → Φ → Prop} {E' : String → Φ → Prop} (h : Follows δ φ p Q E)
    (hQ : ∀ a φ, Q a φ → Q' a φ) (hE : ∀ e φ, E e φ → E' e φ) : Follows δ φ p Q' E' := by
  refine Prog.Follows.mono h fun x φ' hx => ?_
  cases x with
  | ok a => exact hQ a φ' hx
  | error e => exact hE e φ' hx

/-- A program all of whose commands keep the phase. -/
theorem follows_of_issues (hp : Issues (fun _ => True) P p)
    (hδ : ∀ c, P c → ∀ r s, δ φ c r s = some φ) :
    Follows δ φ p (fun _ φ' => φ' = φ) fun _ φ' => φ' = φ := by
  show Prog.Follows δ φ p.run _
  unfold Issues at hp
  generalize p.run = p' at hp
  induction p' with
  | ret x => cases x <;> exact rfl
  | act c k ih => exact fun r s => ⟨φ, hδ c hp.1 r s, ih r s (hp.2 r s trivial)⟩

/-- A program all of whose commands keep the phases of one kind. -/
theorem follows_within {R : Φ → Prop} (hp : Issues (fun _ => True) P p) (hφ : R φ)
    (hδ : ∀ c, P c → ∀ φ r s, R φ → ∃ φ', δ φ c r s = some φ' ∧ R φ') :
    Follows δ φ p (fun _ φ' => R φ') fun _ φ' => R φ' := by
  show Prog.Follows δ φ p.run _
  unfold Issues at hp
  generalize p.run = p' at hp
  induction p' generalizing φ with
  | ret x => cases x <;> exact hφ
  | act c k ih =>
    intro r s
    obtain ⟨φ', hφ', hR⟩ := hδ c hp.1 φ r s hφ
    exact ⟨φ', hφ', ih r s hR (hp.2 r s trivial)⟩

theorem issues_focusFlow {P : C' → Prop} {ok : C' → ρ' → Bool} {err : C' → String}
    (hP : ∀ c, P (wrap c)) (p : Prog C ρ σ α) :
    Issues (fun _ => True) P (Prog.focusFlow ok err wrap ans view p) := by
  induction p with
  | ret a => trivial
  | act c k ih =>
    refine ⟨hP c, ?_⟩
    intro r s _
    show Prog.Issues _ P (if ok (wrap c) r then _ else _)
    split
    · exact ih (ans r) (view s)
    · trivial

/-- A program whose result nobody waits for ends in a phase in which it may return or throw. -/
theorem Follows.run_of {R : Φ → Prop} (h : Follows δ φ p (fun _ φ' => R φ') fun _ φ' => R φ') :
    (p.run >>= fun _ => (.ret () : Prog C ρ σ Unit)).Follows δ φ fun _ => R := by
  apply Prog.follows_bind.2
  apply Prog.Follows.mono h
  intro x φ' hx
  cases x with
  | _ => exact hx

theorem Follows.run (h : Follows δ φ p (fun _ _ => True) fun _ _ => True) :
    (p.run >>= fun _ => (.ret () : Prog C ρ σ Unit)).Follows δ φ fun _ _ => True :=
  run_of h

/-- A program on a part of the store, when the larger protocol stays in one phase. -/
theorem follows_focusFlow {Ψ : Type} {δ' : Ψ → C → ρ → σ → Option Ψ} {ψ : Ψ}
    {δ : Φ → C' → ρ' → σ' → Option Φ} {p : Prog C ρ σ α} {Q : α → Ψ → Prop} {ok : C' → ρ' → Bool}
    {err : C' → String} (hp : p.Follows δ' ψ Q)
    (hδ : ∀ ψ c r s ψ', δ' ψ c (ans r) (view s) = some ψ' → δ φ (wrap c) r s = some φ) :
    Follows δ φ (Prog.focusFlow ok err wrap ans view p) (fun a φ' => φ' = φ ∧ ∃ ψ, Q a ψ)
      fun _ φ' => φ' = φ := by
  induction p generalizing ψ with
  | ret a => exact ⟨rfl, ψ, hp⟩
  | act c k ih =>
    intro r s
    obtain ⟨ψ', hψ', hk⟩ := hp (ans r) (view s)
    refine ⟨φ, hδ ψ c r s ψ' hψ', ?_⟩
    show Prog.Follows δ φ (if ok (wrap c) r then _ else _) _
    split
    · exact ih (ans r) (view s) hk
    · exact rfl

/-! ### The rules as equivalences -/

@[simp] theorem follows_pure_iff (a : α) : Follows δ φ (pure a : Flow C ρ σ α) Q E ↔ Q a φ := Iff.rfl

@[simp] theorem follows_throw_iff (e : String) :
    Follows δ φ (throw e : Flow C ρ σ α) Q E ↔ E e φ := Iff.rfl

@[simp] theorem follows_bind_iff {p : Flow C ρ σ β} {f : β → Flow C ρ σ α} :
    Follows δ φ (p >>= f) Q E ↔ Follows δ φ p (fun b φ' => Follows δ φ' (f b) Q E) E := by
  refine (Prog.follows_bind (p := p.run)).trans (iff_of_eq ?_)
  congr 1
  funext x φ'
  cases x <;> rfl

@[simp] theorem follows_tryCatch_iff :
    Follows δ φ (tryCatch p h) Q E ↔ Follows δ φ p Q fun e φ' => Follows δ φ' (h e) Q E := by
  refine (Prog.follows_bind (p := p.run)).trans (iff_of_eq ?_)
  congr 1
  funext x φ'
  cases x <;> rfl

@[simp] theorem follows_attempt_iff {p : Flow C ρ σ β} {Q : Except String β → Φ → Prop} :
    Follows δ φ (attempt p) Q E ↔
      Follows δ φ p (fun b φ' => Q (.ok b) φ') fun e φ' => Q (.error e) φ' := by
  refine (Prog.follows_bind (p := p.run)).trans (iff_of_eq ?_)
  congr 1
  funext x φ'
  cases x <;> rfl

@[simp] theorem follows_call_iff {c : C} {Q : ρ × σ → Φ → Prop} :
    Follows δ φ (call ok err c : Flow C ρ σ (ρ × σ)) Q E ↔
      ∀ r s, ∃ φ', δ φ c r s = some φ' ∧ (ok r = true → Q (r, s) φ') ∧ (ok r = false → E err φ') := by
  refine forall₂_congr fun r s => exists_congr fun φ' => and_congr_right fun _ => ?_
  cases hr : ok r <;> simp [hr]

@[simp] theorem follows_ite_iff {c : Prop} [Decidable c] {q : Flow C ρ σ α} :
    Follows δ φ (if c then p else q) Q E ↔ (c → Follows δ φ p Q E) ∧ (¬ c → Follows δ φ q Q E) := by
  split <;> simp_all

/-! ### Guarded protocols -/

open Classical in
/-- The protocol of a total function on phases and a condition on the commands of each phase. -/
noncomputable def guarded (A : Φ → C → Prop) (next : Φ → C → ρ → σ → Φ) (φ : Φ) (c : C) (r : ρ)
    (s : σ) : Option Φ :=
  if A φ c then some (next φ c r s) else none

variable {A : Φ → C → Prop} {next : Φ → C → ρ → σ → Φ} {c : C} {r : ρ} {s : σ} {φ' : Φ}

theorem guarded_of (h : A φ c) : guarded A next φ c r s = some (next φ c r s) := if_pos h

@[simp] theorem guarded_eq_some_iff :
    guarded A next φ c r s = some φ' ↔ A φ c ∧ next φ c r s = φ' := by
  rw [guarded, Option.ite_none_right_eq_some, Option.some_inj]

theorem guarded_eq_some (h : guarded A next φ c r s = some φ') : A φ c ∧ next φ c r s = φ' := by
  rw [guarded] at h
  split at h
  · rename_i hA
    exact ⟨hA, Option.some.inj h⟩
  · cases h

theorem follows_guarded_bind (hc : A φ c) (hE : ∀ r s, E err (next φ c r s))
    (h : ∀ r s, ok r = true → Follows (guarded A next) (next φ c r s) (f (r, s)) Q E) :
    Follows (guarded A next) φ (call ok err c >>= f) Q E :=
  follows_call_bind fun r s => ⟨_, guarded_of hc, h r s, fun _ => hE r s⟩

/-! ### From every phase -/

/-- A program that follows the protocol from every phase. -/
def Anytime (δ : Φ → C → ρ → σ → Option Φ) (p : Flow C ρ σ α) : Prop :=
  ∀ φ, Follows δ φ p (fun _ _ => True) fun _ _ => True

/-- A program all of whose commands every phase allows. -/
theorem anytime_of_issues (hp : Issues (fun _ => True) P p)
    (hδ : ∀ c, P c → ∀ φ r s, ∃ φ', δ φ c r s = some φ') : Anytime δ p := by
  unfold Issues at hp
  intro φ
  show Prog.Follows δ φ p.run _
  generalize p.run = p' at hp
  induction p' generalizing φ with
  | ret x => cases x <;> trivial
  | act c k ih =>
    intro r s
    obtain ⟨φ', hφ'⟩ := hδ c hp.1 φ r s
    exact ⟨φ', hφ', ih r s φ' (hp.2 r s trivial)⟩

theorem anytime_pure (a : α) : Anytime δ (pure a : Flow C ρ σ α) := fun _ => trivial

theorem anytime_throw (e : String) : Anytime δ (throw e : Flow C ρ σ α) := fun _ => trivial

theorem anytime_bind {p : Flow C ρ σ β} {f : β → Flow C ρ σ α} (hp : Anytime δ p)
    (hf : ∀ x, Anytime δ (f x)) : Anytime δ (p >>= f) := fun φ =>
  follows_bind ((hp φ).mono (fun x φ' _ => hf x φ') fun _ _ he => he)

theorem anytime_tryCatch (hp : Anytime δ p) (hh : ∀ e, Anytime δ (h e)) :
    Anytime δ (tryCatch p h) := fun φ =>
  follows_tryCatch ((hp φ).mono (fun _ _ ha => ha) fun e φ' _ => hh e φ')

theorem anytime_attempt (hp : Anytime δ p) : Anytime δ (attempt p) :=
  fun φ => follows_attempt (hp φ)

theorem anytime_mk (x : Except String α) :
    Anytime δ (ExceptT.mk (pure x) : Flow C ρ σ α) := fun _ =>
  follows_mk (fun _ _ => trivial) fun _ _ => trivial

theorem anytime_call_bind {c : C} (hc : ∀ φ r s, ∃ φ', δ φ c r s = some φ')
    (hf : ∀ r s, Anytime δ (f (r, s))) : Anytime δ (call ok err c >>= f) := by
  intro φ
  refine follows_call_bind fun r s => ?_
  obtain ⟨φ', hφ'⟩ := hc φ r s
  exact ⟨φ', hφ', fun _ => hf r s φ', fun _ => trivial⟩

variable {δ' : Φ → C' → ρ' → σ' → Option Φ}

/-- A program on a part of the store, all of whose commands every phase allows. -/
theorem anytime_focus (hδ : ∀ φ c r s, ∃ φ', δ' φ (wrap c) r s = some φ') (p : Flow C ρ σ α) :
    Anytime δ' (ExceptT.mk (p.run.focus wrap ans view)) := by
  have hall : ∀ (q : Prog C ρ σ (Except String α)) (φ : Φ),
      (q.focus wrap ans view).Follows δ' φ fun _ _ => True := by
    intro q
    induction q with
    | ret x => exact fun _ => trivial
    | act c k ih =>
      intro φ r s
      obtain ⟨φ', hφ'⟩ := hδ φ c r s
      exact ⟨φ', hφ', ih _ _ φ'⟩
  exact fun φ => Prog.Follows.mono (hall p.run φ) fun x _ _ => by cases x <;> trivial

theorem anytime_focusFlow {ok : C' → ρ' → Bool} {err : C' → String}
    (hδ : ∀ φ c r s, ∃ φ', δ' φ (wrap c) r s = some φ') (p : Prog C ρ σ α) :
    Anytime δ' (Prog.focusFlow ok err wrap ans view p) := by
  induction p with
  | ret a => exact fun _ => trivial
  | act c k ih =>
    intro φ r s
    obtain ⟨φ', hφ'⟩ := hδ φ c r s
    refine ⟨φ', hφ', ?_⟩
    show Prog.Follows δ' φ' (if ok (wrap c) r then _ else _) _
    split
    · exact ih (ans r) (view s) φ'
    · trivial

end Flow

/-! ### Runs -/

namespace Pool

variable {Q : Type} {sem : C → ρ → σ → σ} {prog : Q → Prog C ρ σ Unit}
  {δ : Φ → C → ρ → σ → Option Φ}

structure InPhases (δ : Φ → C → ρ → σ → Option Φ) (R : Φ → Prop) (φs : List Φ)
    (procs : List (Prog C ρ σ Unit)) : Prop where
  length : φs.length = procs.length
  follows : ∀ (i : ℕ) (p : Prog C ρ σ Unit), procs[i]? = some p →
    ∃ φ, φs[i]? = some φ ∧ p.Follows δ φ fun _ => R

variable {R : Φ → Prop} {φs : List Φ} {procs : List (Prog C ρ σ Unit)}

theorem InPhases.append (h : InPhases δ R φs procs) {p : Prog C ρ σ Unit}
    (hp : p.Follows δ φ fun _ => R) : InPhases δ R (φs ++ [φ]) (procs ++ [p]) := by
  refine ⟨by simp [h.length], fun i q hq => ?_⟩
  rw [List.getElem?_append] at hq ⊢
  rw [h.length]
  split at hq
  · rename_i hi
    rw [if_pos hi]
    exact h.follows i q hq
  · rename_i hi
    rw [if_neg hi]
    obtain ⟨hlt, rfl⟩ := List.getElem?_eq_some_iff.1 hq
    have h0 : i - procs.length = 0 := by simpa using hlt
    exact ⟨φ, by simp [h0], by simpa [h0] using hp⟩

variable {i : ℕ}

theorem InPhases.set (h : InPhases δ R φs procs) {p : Prog C ρ σ Unit}
    (hp : p.Follows δ φ fun _ => R) : InPhases δ R (φs.set i φ) (procs.set i p) := by
  refine ⟨by simp [h.length], fun j q hq => ?_⟩
  rw [List.getElem?_set] at hq ⊢
  rw [h.length]
  split at hq
  · rename_i hij
    rw [if_pos hij]
    split at hq
    · rename_i hlt
      rw [if_pos hlt]
      cases hq
      exact ⟨φ, rfl, hp⟩
    · cases hq
  · rename_i hij
    rw [if_neg hij]
    exact h.follows j q hq

/-- When no program has a command left, all phases are last ones. -/
theorem InPhases.of_returned (h : InPhases δ R φs procs)
    (hret : ∀ p ∈ procs, p.returned = true) : ∀ φ ∈ φs, R φ := by
  intro φ hφ
  obtain ⟨i, hlt, rfl⟩ := List.getElem_of_mem hφ
  have hp : i < procs.length := h.length ▸ hlt
  obtain ⟨φ', hi, hfollows⟩ := h.follows i _ (List.getElem?_eq_getElem hp)
  rw [List.getElem?_eq_getElem hlt] at hi
  cases hi
  have hreturned := hret _ (List.getElem_mem hp)
  generalize procs[i] = p at hreturned hfollows
  cases p with
  | ret a => exact hfollows
  | act c k => cases hreturned

theorem getElem?_set_cases {j : ℕ} {φ' : Φ} (h : (φs.set i φ')[j]? = some φ) :
    (j = i ∧ φ' = φ) ∨ (j ≠ i ∧ φs[j]? = some φ) := by
  grind

variable {ψ : Φ}

/-- What holds of every phase, after a step. -/
theorem forall_set {P : Φ → Prop} (h : ∀ φ ∈ φs, P φ) (hψ : P ψ) : ∀ φ ∈ φs.set i ψ, P φ := by
  intro φ hφ
  rcases List.mem_or_eq_of_mem_set hφ with hφ | rfl
  · exact h φ hφ
  · exact hψ

theorem mem_set_self (hi : φs[i]? = some φ) : ψ ∈ φs.set i ψ := by
  obtain ⟨hlt, -⟩ := List.getElem?_eq_some_iff.1 hi
  apply List.mem_of_getElem? (i := i)
  rw [List.getElem?_set_self hlt]

theorem mem_set_of_ne {j : ℕ} (hj : φs[j]? = some φ) (hne : j ≠ i) : φ ∈ φs.set i ψ := by
  apply List.mem_of_getElem? (i := j)
  rw [List.getElem?_set_ne hne.symm]
  exact hj

/-- How many programs are in phases of one kind, after a step. -/
theorem countP_phases_set (hi : φs[i]? = some φ) (P : Φ → Bool) :
    (φs.set i ψ).countP P + (P φ).toNat = φs.countP P + (P ψ).toNat := by
  induction φs generalizing i with
  | nil => cases hi
  | cons χ φs ih =>
    cases i with
    | zero =>
      obtain rfl : χ = φ := Option.some.inj hi
      rw [List.set_cons_zero, List.countP_cons, List.countP_cons]
      cases P χ <;> cases P ψ <;> simp
    | succ i =>
      have h := ih hi
      rw [List.set_cons_succ, List.countP_cons, List.countP_cons]
      omega

theorem sum_phases_set (hi : φs[i]? = some φ) (f : Φ → ℤ) :
    ((φs.set i ψ).map f).sum = (φs.map f).sum + (f ψ - f φ) := by
  induction φs generalizing i with
  | nil => cases hi
  | cons χ φs ih =>
    cases i with
    | zero =>
      obtain rfl : χ = φ := Option.some.inj hi
      rw [List.set_cons_zero, List.map_cons, List.map_cons, List.sum_cons, List.sum_cons]
      omega
    | succ i =>
      rw [List.set_cons_succ, List.map_cons, List.map_cons, List.sum_cons, List.sum_cons, ih hi]
      omega

theorem getElem?_snoc_cases {j : ℕ} {φ₀ : Φ} (h : (φs ++ [φ₀])[j]? = some φ) :
    φs[j]? = some φ ∨ φ₀ = φ := by
  rw [List.getElem?_append] at h
  split at h
  · exact .inl h
  · rcases hj : j - φs.length with _ | k
    · rw [hj] at h
      exact .inr (Option.some.inj h)
    · simp [hj] at h

/-- A program that can move was admitted in the list. -/
theorem getElem?_of_next? {w : Pool C ρ σ} {c : C} {k : ρ → σ → Prog C ρ σ Unit}
    (h : w.next? i = some (c, k)) : w.procs[i]? = some (.act c k) := by
  simp only [next?] at h
  split at h
  · rename_i c' k' hi
    cases h
    exact hi
  · cases h

/-- **The invariant rule for protocols.**  `J` relates the phases of the programs and the log to the
store: it holds at the start, a new program and every command that the protocol allows and that
meets its condition `G` extend it. -/
theorem play_protocol {init : Q → Φ} (J : List Φ → List (Event C ρ σ) → σ → Prop)
    (G : Event C ρ σ → Prop) {s : σ} (hprog : ∀ q, (prog q).Follows δ (init q) fun _ => R)
    (h₀ : J [] [] s) (hspawn : ∀ φs l t q, J φs l t → J (φs ++ [init q]) l t)
    (hstep : ∀ φs l t i φ c r φ', J φs l t → φs[i]? = some φ → δ φ c r t = some φ' →
      G ⟨t, c, r, sem c r t⟩ → J (φs.set i φ') (l ++ [⟨t, c, r, sem c r t⟩]) (sem c r t))
    (ms : List (Move Q ρ)) (hG : ∀ e ∈ ((start s).play sem prog ms).log, G e) :
    ∃ φs, InPhases δ R φs ((start s).play sem prog ms).procs ∧
      J φs ((start s).play sem prog ms).log ((start s).play sem prog ms).store := by
  induction ms using List.reverseRecOn with
  | nil => exact ⟨[], ⟨rfl, fun i p hp => nomatch hp⟩, h₀⟩
  | append_singleton ms m ih =>
    rw [play_snoc] at hG ⊢
    have hlog : ∀ e ∈ ((start s).play sem prog ms).log, G e := by
      intro e he
      obtain ⟨-, hl⟩ | ⟨c, r, -, hl⟩ := move_cases sem prog ((start s).play sem prog ms) m
      · exact hG e (hl ▸ he)
      · exact hG e (hl ▸ List.mem_append_left _ he)
    obtain ⟨φs, hφs, hJ⟩ := ih hlog
    generalize (start s).play sem prog ms = w at hG hφs hJ
    cases m with
    | spawn q => exact ⟨φs ++ [init q], hφs.append (hprog q), hspawn φs _ _ q hJ⟩
    | step i r =>
      cases hn : w.next? i with
      | none =>
        have hmove : w.move sem prog (.step i r) = w := by simp only [move, hn]
        rw [hmove]
        exact ⟨φs, hφs, hJ⟩
      | some ck =>
        obtain ⟨c, k⟩ := ck
        have hmove : w.move sem prog (.step i r) =
            ⟨w.procs.set i (k r w.store), sem c r w.store,
              w.log ++ [⟨w.store, c, r, sem c r w.store⟩]⟩ := by simp only [move, hn]
        rw [hmove] at hG ⊢
        obtain ⟨φ, hφ, hfollows⟩ := hφs.follows i _ (getElem?_of_next? hn)
        obtain ⟨φ', hδ, hk⟩ := hfollows r w.store
        refine ⟨φs.set i φ', hφs.set hk, hstep φs _ _ i φ c r φ' hJ hφ hδ (hG _ ?_)⟩
        exact List.mem_concat_self

end Pool

end VibemeetBackend.Async
