import VibemeetBackend.Async.Flow

/-!
# Programs whose commands have given answers

When each command is issued at most once, what comes of a program that runs alone is decided by one
answer for each command.
-/

namespace VibemeetBackend.Async

variable {C ρ σ α β : Type}

/-- Run the program alone, with this answer to each command. -/
def Prog.given (sem : C → ρ → σ → σ) (o : C → ρ) : Prog C ρ σ α → σ → α × σ
  | .ret a, s => (a, s)
  | .act c k, s => given sem o (k (o c) s) (sem c (o c) s)

theorem Prog.given_bind (sem : C → ρ → σ → σ) (o : C → ρ) (p : Prog C ρ σ α)
    (f : α → Prog C ρ σ β) (s : σ) :
    (p >>= f).given sem o s = (f (p.given sem o s).1).given sem o (p.given sem o s).2 := by
  induction p generalizing s with
  | ret a => rfl
  | act c k ih => exact ih (o c) s (sem c (o c) s)

namespace Flow

def given (sem : C → ρ → σ → σ) (o : C → ρ) (p : Flow C ρ σ α) (s : σ) : Except String α × σ :=
  p.run.given sem o s

variable {sem : C → ρ → σ → σ} {o : C → ρ} {s : σ}

theorem given_bind (p : Flow C ρ σ α) (f : α → Flow C ρ σ β) :
    (p >>= f).given sem o s =
      match p.given sem o s with
      | (.ok a, t) => (f a).given sem o t
      | (.error e, t) => (.error e, t) := by
  show Prog.given sem o (p.run >>= ExceptT.bindCont f) s = _
  rw [Prog.given_bind]
  unfold given
  generalize Prog.given sem o p.run s = x
  obtain ⟨a | e, t⟩ := x <;> rfl

theorem given_call (ok : ρ → Bool) (err : String) (c : C) :
    (call ok err c).given sem o s =
      (if ok (o c) = true then .ok (o c, s) else .error err, sem c (o c) s) := by
  show (if ok (o c) = true then _ else _, _) = _
  split <;> rfl

theorem given_call_bind (ok : ρ → Bool) (err : String) (c : C) (f : ρ × σ → Flow C ρ σ β) :
    (call ok err c >>= f).given sem o s =
      if ok (o c) = true then (f (o c, s)).given sem o (sem c (o c) s)
      else (.error err, sem c (o c) s) := by
  rw [given_bind, given_call]
  by_cases h : ok (o c) = true
  · rw [if_pos h, if_pos h]
  · rw [if_neg h, if_neg h]

end Flow

end VibemeetBackend.Async
