import VibemeetBackend.Async.Prog

/-!
# Programs that may throw

A `Flow` is a `Prog` in the exception monad: the `try`, `catch` and `throw` of an asynchronous
function.  `call` issues a command and throws when the answer says that the call failed, whether or
not the command took effect.

The lemmas are the rules of `Prog.Issues` for the constructs of a `Flow`.
-/

namespace VibemeetBackend.Async

variable {C ρ σ α β : Type}

/-- A program that returns a value or throws a message. -/
abbrev Flow (C ρ σ α : Type) : Type := ExceptT String (Prog C ρ σ) α

namespace Flow

/-- Issue a command; an answer that is not `ok` is an exception with the message `err`. -/
def call (ok : ρ → Bool) (err : String) (c : C) : Flow C ρ σ (ρ × σ) :=
  ExceptT.mk (.act c fun r s => .ret (if ok r then .ok (r, s) else .error err))

/-- Run to the end and return what happened: `try { … } catch (error) { … }` as a value. -/
def attempt (p : Flow C ρ σ α) : Flow C ρ σ (Except String α) :=
  ExceptT.mk (p.run >>= fun x => .ret (.ok x))

/-- Which commands a `Flow` can issue. -/
def Issues (I : σ → Prop) (P : C → Prop) (p : Flow C ρ σ α) : Prop := Prog.Issues I P p.run

variable {I : σ → Prop} {P : C → Prop}

variable {p : Flow C ρ σ α}

theorem Issues.mono {P' : C → Prop} (hp : Issues I P p) (hP : ∀ c, P c → P' c) : Issues I P' p := by
  unfold Issues at hp ⊢
  generalize p.run = q at hp ⊢
  induction q with
  | ret x => trivial
  | act c k ih => exact ⟨hP c hp.1, fun r s hs => ih r s (hp.2 r s hs)⟩

def Returns (I : σ → Prop) (p : Flow C ρ σ α) (x : Except String α) : Prop := p.run.Returns I x

theorem issues_pure (a : α) : Issues I P (pure a : Flow C ρ σ α) := trivial

theorem issues_throw (e : String) : Issues I P (throw e : Flow C ρ σ α) := trivial

theorem issues_bind {f : α → Flow C ρ σ β} (hp : Issues I P p) (hf : ∀ a, Issues I P (f a)) :
    Issues I P (p >>= f) := by
  refine Prog.issues_bind (p := p.run) hp fun x => ?_
  cases x with
  | ok a => exact hf a
  | error e => trivial

theorem issues_tryCatch {h : String → Flow C ρ σ α} (hp : Issues I P p)
    (hh : ∀ e, Issues I P (h e)) : Issues I P (tryCatch p h) := by
  refine Prog.issues_bind (p := p.run) hp fun x => ?_
  cases x with
  | ok a => trivial
  | error e => exact hh e

theorem issues_attempt (hp : Issues I P p) : Issues I P (attempt p) :=
  Prog.issues_bind (p := p.run) hp fun _ => trivial

variable {ok : ρ → Bool} {err : String}

/-- A call whose continuation may rely on the store the command found. -/
theorem issues_call_bind {c : C} {f : ρ × σ → Flow C ρ σ β} (hc : P c)
    (hf : ∀ r s, I s → Issues I P (f (r, s))) : Issues I P (call ok err c >>= f) := by
  refine ⟨hc, fun r s hs => ?_⟩
  show Prog.Issues I P (ExceptT.bindCont f (if ok r then .ok (r, s) else .error err))
  split
  · exact hf r s hs
  · trivial

theorem issues_call {c : C} (hc : P c) : Issues I P (call ok err c : Flow C ρ σ (ρ × σ)) :=
  ⟨hc, fun _ _ _ => trivial⟩

/-! ### The rules as equivalences -/

@[simp] theorem issues_pure_iff (a : α) : Issues I P (pure a : Flow C ρ σ α) ↔ True := Iff.rfl

@[simp] theorem issues_throw_iff (e : String) : Issues I P (throw e : Flow C ρ σ α) ↔ True := Iff.rfl

@[simp] theorem issues_bind_iff {f : α → Flow C ρ σ β} :
    Issues I P (p >>= f) ↔ Issues I P p ∧ ∀ a, p.Returns I (.ok a) → Issues I P (f a) := by
  refine (Prog.issues_bind_iff (p := p.run)).trans (and_congr_right fun _ => ⟨fun h a => h (.ok a), ?_⟩)
  intro h x hx
  cases x with
  | ok a => exact h a hx
  | error e => trivial

@[simp] theorem issues_tryCatch_iff {h : String → Flow C ρ σ α} :
    Issues I P (tryCatch p h) ↔ Issues I P p ∧ ∀ e, p.Returns I (.error e) → Issues I P (h e) := by
  refine (Prog.issues_bind_iff (p := p.run)).trans (and_congr_right fun _ => ⟨fun h e => h (.error e), ?_⟩)
  intro h x hx
  cases x with
  | ok a => trivial
  | error e => exact h e hx

@[simp] theorem issues_attempt_iff : Issues I P (attempt p) ↔ Issues I P p :=
  (Prog.issues_bind_iff (p := p.run)).trans (and_iff_left fun _ _ => trivial)

@[simp] theorem issues_call_iff {c : C} :
    Issues I P (call ok err c : Flow C ρ σ (ρ × σ)) ↔ P c := and_iff_left fun _ _ _ => trivial

@[simp] theorem returns_call_iff {c : C} {r : ρ} {s : σ} :
    Returns I (call ok err c : Flow C ρ σ (ρ × σ)) (.ok (r, s)) ↔ I s ∧ ok r = true := by
  show (∃ r' s', I s' ∧ Except.ok (r, s) = if ok r' then .ok (r', s') else .error err) ↔ _
  constructor
  · rintro ⟨r', s', hs, h⟩
    split at h
    · cases h
      exact ⟨hs, ‹_›⟩
    · cases h
  · exact fun h => ⟨r, s, h.1, (if_pos h.2).symm⟩

@[simp] theorem issues_ite_iff {c : Prop} [Decidable c] {q : Flow C ρ σ α} :
    Issues I P (if c then p else q) ↔ (c → Issues I P p) ∧ (¬ c → Issues I P q) := by
  split <;> simp_all

end Flow

end VibemeetBackend.Async
