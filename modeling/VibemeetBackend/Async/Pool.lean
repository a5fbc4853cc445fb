import VibemeetBackend.Async.Prog

/-!
# Interleavings of asynchronous programs

A `Pool` is a shared store, the programs in progress on it and the log of the commands executed so
far.  A `Move` either admits a request, whose program `prog q` joins the pool, or lets the program
at one position execute its next command with an answer of the environment's choice.  A run is a
list of moves, so quantifying over lists of moves quantifies over every set of requests, every
interleaving of their commands and every point at which a process may have stopped for good.
-/

namespace VibemeetBackend.Async

variable {Q C ρ σ : Type}

theorem mem_snoc {α : Type} {l : List α} {a x : α} : x ∈ l ++ [a] ↔ x ∈ l ∨ x = a := by
  rw [List.mem_append, List.mem_singleton]

/-- The shared store, the programs in progress and the commands executed so far, oldest first. -/
structure Pool (C ρ σ : Type) where
  procs : List (Prog C ρ σ Unit)
  store : σ
  log : List (Event C ρ σ)

/-- Admit a request, or let the program at a position take its next command. -/
inductive Move (Q ρ : Type) where
  | spawn (q : Q)
  | step (i : ℕ) (r : ρ)

namespace Pool

/-- No program has been admitted yet. -/
def start (s : σ) : Pool C ρ σ := ⟨[], s, []⟩

/-- The program at a position, when it still has a command to issue. -/
def next? (w : Pool C ρ σ) (i : ℕ) : Option (C × (ρ → σ → Prog C ρ σ Unit)) :=
  match w.procs[i]? with
  | some (.act c k) => some (c, k)
  | _ => none

/-- One move.  A step of a program that has returned changes nothing. -/
def move (sem : C → ρ → σ → σ) (prog : Q → Prog C ρ σ Unit) (w : Pool C ρ σ) :
    Move Q ρ → Pool C ρ σ
  | .spawn q => { w with procs := w.procs ++ [prog q] }
  | .step i r =>
    match w.next? i with
    | some (c, k) =>
      { procs := w.procs.set i (k r w.store)
        store := sem c r w.store
        log := w.log ++ [⟨w.store, c, r, sem c r w.store⟩] }
    | none => w

/-- What holds of every entry, after one more. -/
theorem forall_snoc {α : Type} {P : α → Prop} {l : List α} {a : α} (h : ∀ x ∈ l, P x) (ha : P a) :
    ∀ x ∈ l ++ [a], P x := by
  intro x hx
  rcases List.mem_append.1 hx with hx | hx
  · exact h x hx
  · rw [List.mem_singleton.1 hx]
    exact ha

/-- A run: the moves in order. -/
def play (sem : C → ρ → σ → σ) (prog : Q → Prog C ρ σ Unit) (w : Pool C ρ σ)
    (ms : List (Move Q ρ)) : Pool C ρ σ :=
  ms.foldl (move sem prog) w

variable {sem : C → ρ → σ → σ} {prog : Q → Prog C ρ σ Unit}

@[simp] theorem play_nil (w : Pool C ρ σ) : w.play sem prog [] = w := rfl

@[simp] theorem play_snoc (w : Pool C ρ σ) (ms : List (Move Q ρ)) (m : Move Q ρ) :
    w.play sem prog (ms ++ [m]) = (w.play sem prog ms).move sem prog m := by
  simp [play]

theorem move_cases (sem : C → ρ → σ → σ) (prog : Q → Prog C ρ σ Unit) (w : Pool C ρ σ)
    (m : Move Q ρ) :
    ((w.move sem prog m).store = w.store ∧ (w.move sem prog m).log = w.log) ∨
      ∃ c r, (w.move sem prog m).store = sem c r w.store ∧
        (w.move sem prog m).log = w.log ++ [⟨w.store, c, r, sem c r w.store⟩] := by
  cases m <;> grind [move]

/-- The invariant rule over whole runs.  `J` relates the log to the store: it holds at the start
and every command that meets its condition `G` extends it. -/
theorem play_invariant (J : List (Event C ρ σ) → σ → Prop) (G : Event C ρ σ → Prop) {s : σ}
    (h₀ : J [] s)
    (hstep : ∀ l t c r, J l t → G ⟨t, c, r, sem c r t⟩ →
      J (l ++ [⟨t, c, r, sem c r t⟩]) (sem c r t))
    (ms : List (Move Q ρ)) (hG : ∀ e ∈ ((start s).play sem prog ms).log, G e) :
    J ((start s).play sem prog ms).log ((start s).play sem prog ms).store := by
  induction ms using List.reverseRecOn with
  | nil => exact h₀
  | append_singleton ms m ih =>
    rw [play_snoc] at hG ⊢
    obtain ⟨hs, hl⟩ | ⟨c, r, hs, hl⟩ :=
      move_cases sem prog ((start s).play sem prog ms) m
    · rw [hs, hl]
      exact ih fun e he => hG e (hl ▸ he)
    simp_all

/-- Every logged command did to the store what its semantics says. -/
theorem log_sem (s : σ) (ms : List (Move Q ρ)) :
    ∀ e ∈ ((start s).play sem prog ms).log, e.after = sem e.cmd e.ans e.before := by
  refine play_invariant (fun l _ => ∀ e ∈ l, e.after = sem e.cmd e.ans e.before)
    (fun _ => True) (by simp) ?_ ms (by simp)
  intro l t c r hl _ e he
  rcases List.mem_append.1 he with h | h
  · exact hl e h
  · obtain rfl := List.mem_singleton.1 h
    rfl

theorem procs_issues {I : σ → Prop} {P : C → Prop} {s : σ} (h₀ : I s)
    (hprog : ∀ q, (prog q).Issues I P) (hsem : ∀ c r t, P c → I t → I (sem c r t))
    (ms : List (Move Q ρ)) :
    (∀ p ∈ ((start s).play sem prog ms).procs, p.Issues I P) ∧
      I ((start s).play sem prog ms).store ∧
      ∀ e ∈ ((start s).play sem prog ms).log, P e.cmd ∧ I e.before ∧ I e.after := by
  induction ms using List.reverseRecOn with
  | nil => exact ⟨by simp [start], h₀, by simp [start]⟩
  | append_singleton ms m ih =>
    obtain ⟨hp, hs, hl⟩ := ih
    rw [play_snoc]
    generalize (start s).play sem prog ms = w at hp hs hl
    cases m with
    | spawn q =>
      refine ⟨fun p h => ?_, hs, hl⟩
      rcases List.mem_append.1 h with h | h
      · exact hp p h
      · obtain rfl := List.mem_singleton.1 h
        exact hprog q
    | step i r =>
      simp only [move]
      split
      · rename_i c k hn
        have hc : (Prog.act c k).Issues I P := by
          refine hp _ ?_
          simp only [next?] at hn
          split at hn
          · rename_i c' k' hi
            cases hn
            exact List.mem_of_getElem? hi
          · cases hn
        have hs' : I (sem c r w.store) := hsem c r _ hc.1 hs
        refine ⟨fun p h => ?_, hs', forall_snoc hl ⟨hc.1, hs, hs'⟩⟩
        rcases List.mem_or_eq_of_mem_set h with h | rfl
        · exact hp p h
        · exact hc.2 r _ hs
      · exact ⟨hp, hs, hl⟩

/-- Only commands the requests may issue are ever executed, each from a store satisfying the
invariant the programs rely on. -/
theorem log_issues {I : σ → Prop} {P : C → Prop} {s : σ} (h₀ : I s)
    (hprog : ∀ q, (prog q).Issues I P) (hsem : ∀ c r t, P c → I t → I (sem c r t))
    (ms : List (Move Q ρ)) :
    ∀ e ∈ ((start s).play sem prog ms).log, P e.cmd ∧ I e.before ∧ I e.after :=
  (procs_issues h₀ hprog hsem ms).2.2

end Pool

/-! ### What holds along a log -/

/-- Every event has the property relative to the events before it. -/
def Along {E : Type} (P : List E → E → Prop) (log : List E) : Prop :=
  ∀ l₁ e l₂, log = l₁ ++ e :: l₂ → P l₁ e

/-- Every event that comes after one satisfying `A` satisfies `K`. -/
def After {E : Type} (A K : E → Prop) (log : List E) : Prop :=
  ∀ l₁ e l₂, log = l₁ ++ e :: l₂ → (∃ c ∈ l₁, A c) → K e

variable {E : Type} {A K : E → Prop} {P : List E → E → Prop}

/-- How often something is logged, one event later. -/
theorem countP_snoc (l : List E) (x : E) (p : E → Bool) :
    (l ++ [x]).countP p = l.countP p + (p x).toNat := by
  rw [List.countP_append, List.countP_singleton]
  cases p x <;> rfl

theorem along_nil : Along P [] := fun l₁ _ _ h =>
  (List.append_ne_nil_of_right_ne_nil l₁ (List.cons_ne_nil _ _) h.symm).elim

variable {l : List E}

theorem along_snoc {x : E} : Along P (l ++ [x]) ↔ Along P l ∧ P l x := by
  constructor
  · intro h
    refine ⟨fun l₁ e l₂ hl => ?_, h l x [] rfl⟩
    apply h l₁ e (l₂ ++ [x])
    rw [hl, List.append_assoc, List.cons_append]
  · rintro ⟨hl, hx⟩ l₁ e l₂ h
    -- the event is the last one or one of those before
    rcases List.eq_nil_or_concat l₂ with rfl | ⟨l₂', y, rfl⟩
    · obtain ⟨rfl, hxe⟩ := List.append_inj' h rfl
      obtain rfl : x = e := List.head_eq_of_cons_eq hxe
      exact hx
    · rw [List.concat_eq_append, ← List.cons_append, ← List.append_assoc] at h
      obtain ⟨rfl, -⟩ := List.append_inj' h rfl
      exact hl l₁ e l₂' rfl

theorem along_const {K : E → Prop} {log : List E} :
    Along (fun _ e => K e) log ↔ ∀ e ∈ log, K e := by
  constructor
  · intro h e he
    obtain ⟨l₁, l₂, hl⟩ := List.append_of_mem he
    exact h l₁ e l₂ hl
  · rintro h l₁ e l₂ rfl
    exact h e (List.mem_append_right l₁ List.mem_cons_self)

theorem along_iff_take {log : List E} :
    Along P log ↔ ∀ (n : ℕ) (hn : n < log.length), P (log.take n) log[n] := by
  constructor
  · intro h n hn
    apply h (log.take n) log[n] (log.drop (n + 1))
    rw [List.cons_getElem_drop_succ, List.take_append_drop]
  · rintro h l₁ e l₂ rfl
    have hn : l₁.length < (l₁ ++ e :: l₂).length := by simp
    have hP := h l₁.length hn
    rw [List.take_left', List.getElem_append_right le_rfl] at hP
    · simpa using hP
    · rfl

theorem Along.getElem? {log : List E} (h : Along P log) {n : ℕ} {e : E}
    (he : log[n]? = some e) : P (log.take n) e := by
  obtain ⟨hn, rfl⟩ := List.getElem?_eq_some_iff.1 he
  exact along_iff_take.1 h n hn

theorem after_nil : After A K [] := along_nil

theorem after_snoc {x : E} : After A K (l ++ [x]) ↔ After A K l ∧ ((∃ c ∈ l, A c) → K x) :=
  along_snoc (P := fun l e => (∃ c ∈ l, A c) → K e)

theorem After.mono {K' : E → Prop} (h : After A K l) (hK : ∀ e ∈ l, K e → K' e) : After A K' l := by
  intro l₁ e l₂ hl hA
  refine hK e ?_ (h l₁ e l₂ hl hA)
  simp [hl]

theorem not_after {n : ℕ} {e : E} (he : l[n]? = some e) (hA : ∃ c ∈ l.take n, A c) (hK : ¬ K e) :
    ¬ After A K l := by
  intro h
  refine hK (h (l.take n) e (l.drop (n + 1)) ?_ hA)
  obtain ⟨hn, rfl⟩ := List.getElem?_eq_some_iff.1 he
  rw [List.cons_getElem_drop_succ, List.take_append_drop]

end VibemeetBackend.Async
