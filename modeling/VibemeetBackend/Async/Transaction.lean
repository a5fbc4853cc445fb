import VibemeetBackend.Async.Protocol

/-!
# Transactions that are retried

A transaction reads one snapshot of the store and, when it commits, applies all its writes or none:
they carry what they were computed from, and a commit that finds it changed is aborted.  What is told
to the program is one of three things: the commit happened, it did not and may be tried again
(`transient`), or nothing certain.
-/

namespace VibemeetBackend.Async

variable {C ρ σ W α Φ : Type}

/-- The commands of the transactions on a store, with writes `W`, and how their answers read. -/
structure Transactions (C ρ σ W : Type) where
  snapshot : C
  commit : Option W → C
  delivered : ρ → Bool
  answered : ρ → Bool
  transient : ρ → Bool
  conflicts : W → σ → Bool

namespace Transactions

/-- The commit takes effect. -/
def applied (T : Transactions C ρ σ W) (w : Option W) (r : ρ) (s : σ) : Bool :=
  T.delivered r && w.all fun w => !T.conflicts w s

end Transactions

namespace Flow

def issue (c : C) : Flow C ρ σ (ρ × σ) := ExceptT.mk (.act c fun r s => .ret (.ok (r, s)))

/-- `session.withTransaction(body)`, with as many attempts as its deadline allows.  The body reads
the snapshot; it throws, or it returns with its writes. -/
def withTransaction (T : Transactions C ρ σ W) (body : σ → Except String (Option W × α)) :
    ℕ → Flow C ρ σ α
  | 0 => throw "Transaction timed out"
  | attempts + 1 => do
    let (r, s) ← issue T.snapshot
    if (T.delivered r && T.answered r) = true then
      match body s with
      | .error e => throw e
      | .ok (w, a) => do
        let (r, s) ← issue (T.commit w)
        if T.applied w r s = true then
          if T.answered r = true then pure a else throw "UnknownTransactionCommitResult"
        else if T.transient r = true then withTransaction T body attempts
        else throw "MongoServerError"
    else if T.transient r = true then withTransaction T body attempts
    else throw "MongoServerError"

variable {δ : Φ → C → ρ → σ → Option Φ} {φ : Φ} {Q : α → Φ → Prop} {E : String → Φ → Prop}

theorem follows_issue_bind {β : Type} {c : C} {f : ρ × σ → Flow C ρ σ β} {Q : β → Φ → Prop}
    (h : ∀ r s, ∃ φ', δ φ c r s = some φ' ∧ Follows δ φ' (f (r, s)) Q E) :
    Follows δ φ (issue c >>= f) Q E := h

variable {body : σ → Except String (Option W × α)}

/-- **The rule of a transaction.**  An attempt that does not commit keeps `P`, and `R` is what the
phase says of the snapshot that an attempt has read. -/
theorem follows_withTransaction_reading (T : Transactions C ρ σ W) {P : Φ → Prop}
    {R : σ → Φ → Prop}
    (hsnapshot : ∀ φ r s, P φ →
      ∃ φ', δ φ T.snapshot r s = some φ' ∧ P φ' ∧ (T.delivered r = true → R s φ'))
    (hcommit : ∀ φ s₀ w a, P φ → R s₀ φ → body s₀ = .ok (w, a) → ∀ r s, ∃ φ',
      δ φ (T.commit w) r s = some φ' ∧
        (T.applied w r s = true → Q a φ' ∧ ∀ e, E e φ') ∧ (T.applied w r s = false → P φ'))
    (hthrow : ∀ e φ, P φ → E e φ) (attempts : ℕ) (hφ : P φ) :
    Follows δ φ (withTransaction T body attempts) Q E := by
  induction attempts generalizing φ with
  | zero => exact hthrow _ _ hφ
  | succ attempts ih =>
    apply follows_issue_bind
    intro r s
    obtain ⟨φ', hδ, hφ', hR⟩ := hsnapshot φ r s hφ
    refine ⟨φ', hδ, ?_⟩
    dsimp only
    split
    · rename_i hr
      rw [Bool.and_eq_true] at hr
      split
      · exact follows_throw (hthrow _ _ hφ')
      · rename_i w a hbody
        apply follows_issue_bind
        intro r' s'
        obtain ⟨φ'', hδ', hdone, hkept⟩ := hcommit φ' s w a hφ' (hR hr.1) hbody r' s'
        refine ⟨φ'', hδ', ?_⟩
        split
        · rename_i happlied
          obtain ⟨hQ, hE⟩ := hdone happlied
          split
          · exact follows_pure hQ
          · exact follows_throw (hE _)
        · rename_i happlied
          rw [Bool.not_eq_true] at happlied
          have hφ'' := hkept happlied
          split
          · exact ih hφ''
          · exact follows_throw (hthrow _ _ hφ'')
    · split
      · exact ih hφ'
      · exact follows_throw (hthrow _ _ hφ')

theorem follows_withTransaction (T : Transactions C ρ σ W) {P : Φ → Prop}
    (hsnapshot : ∀ φ r s, P φ → ∃ φ', δ φ T.snapshot r s = some φ' ∧ P φ')
    (hcommit : ∀ φ s₀ w a, P φ → body s₀ = .ok (w, a) → ∀ r s, ∃ φ',
      δ φ (T.commit w) r s = some φ' ∧
        (T.applied w r s = true → Q a φ' ∧ ∀ e, E e φ') ∧ (T.applied w r s = false → P φ'))
    (hthrow : ∀ e φ, P φ → E e φ) (attempts : ℕ) (hφ : P φ) :
    Follows δ φ (withTransaction T body attempts) Q E := by
  apply follows_withTransaction_reading T (P := P) (R := fun _ _ => True)
  · intro φ r s hφ
    obtain ⟨φ', hδ, hφ'⟩ := hsnapshot φ r s hφ
    exact ⟨φ', hδ, hφ', fun _ => trivial⟩
  · exact fun φ s₀ w a hφ _ hbody => hcommit φ s₀ w a hφ hbody
  · exact hthrow
  · exact hφ

end Flow

end VibemeetBackend.Async
