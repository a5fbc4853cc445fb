import VibemeetBackend.Async.Flow

/-!
# Programs that are served

The logic of programs that run alone and whose answers all meet a condition: nothing is lost, say, or
a lookup is always answered in the same way.
-/

namespace VibemeetBackend.Async

variable {C ρ σ α β : Type}

namespace Prog

/-- From `s`, when every answer satisfies `G` and the program returns, its value and the store satisfy
`Q`. -/
def Ensures (sem : C → ρ → σ → σ) (G : ρ → Prop) :
    Prog C ρ σ α → (α → σ → Prop) → σ → Prop
  | .ret a, Q, s => Q a s
  | .act c k, Q, s => ∀ r, G r → Ensures sem G (k r s) Q (sem c r s)

variable {sem : C → ρ → σ → σ} {G : ρ → Prop} {s : σ}

variable {p : Prog C ρ σ α}

theorem ensures_bind {f : α → Prog C ρ σ β} {Q : β → σ → Prop} :
    Ensures sem G (p >>= f) Q s ↔ Ensures sem G p (fun a s' => Ensures sem G (f a) Q s') s := by
  induction p generalizing s with
  | ret a => exact Iff.rfl
  | act c k ih => exact forall_congr' fun r => forall_congr' fun _ => ih r s

theorem Ensures.mono {Q Q' : α → σ → Prop} (h : Ensures sem G p Q s)
    (hq : ∀ a s', Q a s' → Q' a s') : Ensures sem G p Q' s := by
  induction p generalizing s with
  | ret a => exact hq a s h
  | act c k ih => exact fun r hr => ih r s (h r hr)

theorem ensures_of_issues {I : σ → Prop} {P : C → Prop} (hp : Issues I P p)
    (hsem : ∀ c r t, P c → G r → I t → I (sem c r t)) (hs : I s) :
    Ensures sem G p (fun _ s' => I s') s := by
  induction p generalizing s with
  | ret a => exact hs
  | act c k ih => exact fun r hr => ih r s (hp.2 r s hs) (hsem c r s hp.1 hr hs)

/-- **Soundness.** -/
theorem exec_of_ensures {Q : α → σ → Prop} (h : Ensures sem G p Q s) {rs : List ρ}
    (hrs : ∀ r ∈ rs, G r) {a : α} (ha : (p.exec sem rs s).2 = some a) :
    Q a (p.exec sem rs s).1 := by
  induction p generalizing s rs with
  | ret a' =>
    obtain rfl : a' = a := Option.some.inj ha
    exact h
  | act c k ih =>
    cases rs with
    | nil => cases ha
    | cons r rs =>
      exact ih r s (h r (hrs r List.mem_cons_self))
        (fun r' hr' => hrs r' (List.mem_cons_of_mem r hr')) ha

end Prog

namespace Flow

/-- A `Flow` that is served: it returns with `Q` or throws with `E`. -/
def Ensures (sem : C → ρ → σ → σ) (G : ρ → Prop) (p : Flow C ρ σ α) (Q : α → σ → Prop)
    (E : String → σ → Prop) (s : σ) : Prop :=
  Prog.Ensures sem G p.run (fun x s' => match x with
    | .ok a => Q a s'
    | .error e => E e s') s

variable {sem : C → ρ → σ → σ} {G : ρ → Prop} {s : σ} {Q : α → σ → Prop} {E : String → σ → Prop}

theorem ensures_pure {a : α} (h : Q a s) : Ensures sem G (pure a : Flow C ρ σ α) Q E s := h

variable {p : Flow C ρ σ α}

theorem Ensures.mono {Q' : α → σ → Prop} {E' : String → σ → Prop} (h : Ensures sem G p Q E s)
    (hQ : ∀ a t, Q a t → Q' a t) (hE : ∀ e t, E e t → E' e t) : Ensures sem G p Q' E' s := by
  refine Prog.Ensures.mono h fun x t hx => ?_
  cases x with
  | ok a => exact hQ a t hx
  | error e => exact hE e t hx

theorem ensures_bind {p : Flow C ρ σ β} {f : β → Flow C ρ σ α}
    (h : Ensures sem G p (fun b t => Ensures sem G (f b) Q E t) E s) :
    Ensures sem G (p >>= f) Q E s := by
  refine Prog.ensures_bind.2 (Prog.Ensures.mono h fun x t hx => ?_)
  cases x with
  | _ => exact hx

theorem ensures_tryCatch {h : String → Flow C ρ σ α}
    (hp : Ensures sem G p Q (fun e t => Ensures sem G (h e) Q E t) s) :
    Ensures sem G (tryCatch p h) Q E s := by
  refine Prog.ensures_bind.2 (Prog.Ensures.mono hp fun x t hx => ?_)
  cases x with
  | _ => exact hx

theorem ensures_attempt {p : Flow C ρ σ β} {Q : Except String β → σ → Prop}
    (hp : Ensures sem G p (fun b t => Q (.ok b) t) (fun e t => Q (.error e) t) s) :
    Ensures sem G (attempt p) Q E s := by
  refine Prog.ensures_bind.2 (Prog.Ensures.mono hp fun x t hx => ?_)
  cases x with
  | _ => exact hx

theorem ensures_call_bind {ok : ρ → Bool} {err : String} {c : C} {f : ρ × σ → Flow C ρ σ α}
    (hok : ∀ r, G r → ok r = true)
    (h : ∀ r, G r → Ensures sem G (f (r, s)) Q E (sem c r s)) :
    Ensures sem G (call ok err c >>= f) Q E s := by
  intro r hr
  show Prog.Ensures sem G (ExceptT.bindCont f (if ok r then .ok (r, s) else .error err)) _ _
  rw [if_pos (hok r hr)]
  exact h r hr

/-- What every command of a program preserves holds when it returns and when it throws. -/
theorem ensures_of_issues {I : σ → Prop} {P : C → Prop} (hp : Issues I P p)
    (hsem : ∀ c r t, P c → G r → I t → I (sem c r t)) (hs : I s) :
    Ensures sem G p (fun _ t => I t) (fun _ t => I t) s :=
  Prog.Ensures.mono (Prog.ensures_of_issues hp hsem hs) fun x t hx => by
    cases x with
    | _ => exact hx

theorem ensures_any (p : Flow C ρ σ α) : Ensures sem G p (fun _ _ => True) (fun _ _ => True) s := by
  show Prog.Ensures sem G p.run _ s
  generalize p.run = q
  induction q generalizing s with
  | ret x => cases x <;> trivial
  | act c k ih => exact fun r _ => ih r s

end Flow

end VibemeetBackend.Async
