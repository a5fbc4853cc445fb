import Mathlib.Tactic

/-!
# Asynchronous programs as trees of atomic commands

A server function talks to its stores one awaited command at a time.  `Prog C ρ σ α` is such a
function: a tree whose nodes issue a command of type `C`, receive the environment's answer of type
`ρ` together with the store `σ` the command found, and continue.  What a command does to the store
is a parameter `sem : C → ρ → σ → σ`, so one program text serves every semantics.

The commands of several programs are interleaved in `Async.Pool`.
-/

namespace VibemeetBackend.Async

variable {C ρ σ α β : Type}

/-- A sequential program over atomic commands. -/
inductive Prog (C ρ σ α : Type) : Type where
  | ret : α → Prog C ρ σ α
  | act : C → (ρ → σ → Prog C ρ σ α) → Prog C ρ σ α

/-- One executed command: the store it found, its answer and the store it left. -/
structure Event (C ρ σ : Type) where
  before : σ
  cmd : C
  ans : ρ
  after : σ

namespace Prog

/-- Sequencing: the continuation starts where the first program returns. -/
protected def bind : Prog C ρ σ α → (α → Prog C ρ σ β) → Prog C ρ σ β
  | .ret a, f => f a
  | .act c k, f => .act c fun r s => (k r s).bind f

instance : Monad (Prog C ρ σ) where
  pure := .ret
  bind := Prog.bind

def command (c : C) : Prog C ρ σ (ρ × σ) :=
  .act c fun r s => .ret (r, s)

@[simp] theorem pure_eq (a : α) : (pure a : Prog C ρ σ α) = .ret a := rfl

@[simp] theorem ret_bind (a : α) (f : α → Prog C ρ σ β) : (.ret a : Prog C ρ σ α) >>= f = f a := rfl

@[simp] theorem act_bind (c : C) (k : ρ → σ → Prog C ρ σ α) (f : α → Prog C ρ σ β) :
    (.act c k : Prog C ρ σ α) >>= f = .act c fun r s => k r s >>= f := rfl

def returned : Prog C ρ σ α → Bool
  | .ret _ => true
  | .act .. => false

/-! ### Running a program alone -/

/-- Run the program alone from `s`, taking its answers from the list.  The second component is the
value it returned, or `none` when the answers ran out first. -/
def exec (sem : C → ρ → σ → σ) : Prog C ρ σ α → List ρ → σ → σ × Option α
  | .ret a, _, s => (s, some a)
  | .act _ _, [], s => (s, none)
  | .act c k, r :: rs, s => exec sem (k r s) rs (sem c r s)

theorem exec_nil (sem : C → ρ → σ → σ) (p : Prog C ρ σ α) (s : σ) : (p.exec sem [] s).1 = s := by
  cases p with
  | ret a => rfl
  | act c k => rfl

/-- The commands that `exec` executes, oldest first. -/
def events (sem : C → ρ → σ → σ) : Prog C ρ σ α → List ρ → σ → List (Event C ρ σ)
  | .ret _, _, _ => []
  | .act _ _, [], _ => []
  | .act c k, r :: rs, s => ⟨s, c, r, sem c r s⟩ :: events sem (k r s) rs (sem c r s)

/-! ### A logic for programs that run alone -/

/-- From `s`, every command of the program leaves a store satisfying `I`, and when the program
returns, its value and the store satisfy `Q`. -/
def Holds (sem : C → ρ → σ → σ) (I : σ → Prop) :
    Prog C ρ σ α → (α → σ → Prop) → σ → Prop
  | .ret a, Q, s => Q a s
  | .act c k, Q, s => ∀ r, I (sem c r s) ∧ Holds sem I (k r s) Q (sem c r s)

variable {sem : C → ρ → σ → σ} {I : σ → Prop}

variable {Q : α → σ → Prop} {s : σ}

@[simp] theorem holds_ret {a : α} :
    Holds sem I (.ret a : Prog C ρ σ α) Q s ↔ Q a s := Iff.rfl

variable {p : Prog C ρ σ α} {f : α → Prog C ρ σ β}

theorem holds_bind {Q : β → σ → Prop} :
    Holds sem I (p >>= f) Q s ↔ Holds sem I p (fun a s' => Holds sem I (f a) Q s') s := by
  induction p generalizing s with
  | ret a => exact Iff.rfl
  | act c k ih => exact forall_congr' fun r => and_congr_right fun _ => ih r s

theorem holds_command_bind {c : C} {f : ρ × σ → Prog C ρ σ β} {Q : β → σ → Prop} :
    Holds sem I (command c >>= f) Q s ↔
      ∀ r, I (sem c r s) ∧ Holds sem I (f (r, s)) Q (sem c r s) := Iff.rfl

theorem holds_of_preserved (hsem : ∀ c r s, I s → I (sem c r s)) (p : Prog C ρ σ α) (hs : I s) :
    Holds sem I p (fun _ s' => I s') s := by
  induction p generalizing s with
  | ret a => exact hs
  | act c k ih => exact fun r => ⟨hsem c r s hs, ih r s (hsem c r s hs)⟩

theorem Holds.mono {Q' : α → σ → Prop} (h : Holds sem I p Q s) (hq : ∀ a s', Q a s' → Q' a s') :
    Holds sem I p Q' s := by
  induction p generalizing s with
  | ret a => exact hq a s h
  | act c k ih => exact fun r => ⟨(h r).1, ih r s (h r).2⟩

theorem Holds.mono_inv {I' : σ → Prop} (h : Holds sem I p Q s) (hI : ∀ s, I s → I' s) :
    Holds sem I' p Q s := by
  induction p generalizing s with
  | ret a => exact h
  | act c k ih => exact fun r => ⟨hI _ (h r).1, ih r s (h r).2⟩

/-- **Soundness.**  What the logic proves holds of every run, complete or cut short. -/
theorem exec_of_holds (hs : I s) (h : Holds sem I p Q s) (rs : List ρ) :
    I (p.exec sem rs s).1 ∧ ∀ a, (p.exec sem rs s).2 = some a → Q a (p.exec sem rs s).1 := by
  induction p generalizing s rs with
  | ret a =>
    refine ⟨hs, fun a' ha => ?_⟩
    obtain rfl : a = a' := Option.some.inj ha
    exact h
  | act c k ih =>
    cases rs with
    | nil => exact ⟨hs, fun a ha => by cases ha⟩
    | cons r rs => exact ih r s (h r).1 (h r).2 rs

/-! ### Which commands a program can issue -/

/-- Whatever it is answered and whatever stores satisfying `I` it finds, the program issues only
commands satisfying `P`. -/
def Issues (I : σ → Prop) (P : C → Prop) : Prog C ρ σ α → Prop
  | .ret _ => True
  | .act c k => P c ∧ ∀ r s, I s → Issues I P (k r s)

variable {P : C → Prop}

theorem issues_bind (hp : Issues I P p) (hf : ∀ a, Issues I P (f a)) : Issues I P (p >>= f) := by
  induction p with
  | ret a => exact hf a
  | act c k ih => exact ⟨hp.1, fun r s hs => ih r s (hp.2 r s hs)⟩

/-- The program can return the value when every store it finds satisfies `I`. -/
def Returns (I : σ → Prop) : Prog C ρ σ α → α → Prop
  | .ret b, a => a = b
  | .act _ k, a => ∃ r s, I s ∧ (k r s).Returns I a

theorem issues_bind_iff :
    Issues I P (p >>= f) ↔ Issues I P p ∧ ∀ a, p.Returns I a → Issues I P (f a) := by
  induction p with
  | ret a => exact ⟨fun h => ⟨trivial, fun _ ha => ha ▸ h⟩, fun h => h.2 a rfl⟩
  | act c k ih =>
    show (P c ∧ ∀ r s, I s → Issues I P (k r s >>= f)) ↔
      (P c ∧ ∀ r s, I s → Issues I P (k r s)) ∧ ∀ a, (∃ r s, I s ∧ (k r s).Returns I a) → _
    grind

theorem Issues.mono_inv {I' : σ → Prop} (h : Issues I P p) (hI : ∀ s, I' s → I s) :
    Issues I' P p := by
  induction p with
  | ret a => trivial
  | act c k ih => exact ⟨h.1, fun r s hs => ih r s (h.2 r s (hI s hs))⟩

theorem issues_of_forall (hP : ∀ c, P c) (p : Prog C ρ σ α) : Issues I P p := by
  induction p with
  | ret a => trivial
  | act c k ih => exact ⟨hP c, fun r s _ => ih r s⟩

end Prog

end VibemeetBackend.Async
