import VibemeetBackend.Async.Protocol

/-!
# Watched runs

What a program has read is not in the store.  A watched run keeps, beside each program, the phase of a
guarded protocol that it is in, and beside each logged command the phase in which it was issued, so
that a condition on a run may speak of both: what the program has read, and what the command finds.
-/

namespace VibemeetBackend.Async

variable {C ρ σ Φ Q : Type}

/-- A pool, the phases of its programs, and its log with the phase of each command. -/
structure Watched (Φ C ρ σ : Type) where
  pool : Pool C ρ σ
  phases : List Φ
  log : List (Φ × Event C ρ σ)

namespace Watched

def start (s : σ) : Watched Φ C ρ σ := ⟨Pool.start s, [], []⟩

def move (next : Φ → C → ρ → σ → Φ) (init : Q → Φ) (sem : C → ρ → σ → σ)
    (prog : Q → Prog C ρ σ Unit) (w : Watched Φ C ρ σ) (m : Move Q ρ) : Watched Φ C ρ σ :=
  match m with
  | .spawn q => { w with pool := w.pool.move sem prog m, phases := w.phases ++ [init q] }
  | .step i r =>
    match w.pool.next? i, w.phases[i]? with
    | some (c, _), some φ =>
      { pool := w.pool.move sem prog m
        phases := w.phases.set i (next φ c r w.pool.store)
        log := w.log ++ [(φ, ⟨w.pool.store, c, r, sem c r w.pool.store⟩)] }
    | _, _ => { w with pool := w.pool.move sem prog m }

/-- A run: the moves in order. -/
def play (next : Φ → C → ρ → σ → Φ) (init : Q → Φ) (sem : C → ρ → σ → σ)
    (prog : Q → Prog C ρ σ Unit) (w : Watched Φ C ρ σ) (ms : List (Move Q ρ)) : Watched Φ C ρ σ :=
  ms.foldl (move next init sem prog) w

variable {A : Φ → C → Prop} {next : Φ → C → ρ → σ → Φ} {init : Q → Φ} {sem : C → ρ → σ → σ}
  {prog : Q → Prog C ρ σ Unit}

variable (w : Watched Φ C ρ σ)

@[simp] theorem play_snoc (ms : List (Move Q ρ)) (m : Move Q ρ) :
    w.play next init sem prog (ms ++ [m]) = (w.play next init sem prog ms).move next init sem prog m := by
  simp [play]

theorem move_pool (m : Move Q ρ) : (w.move next init sem prog m).pool = w.pool.move sem prog m := by
  cases m with
  | spawn q => rfl
  | step i r =>
    rw [move]
    split <;> rfl

theorem play_pool (ms : List (Move Q ρ)) :
    (w.play next init sem prog ms).pool = w.pool.play sem prog ms := by
  induction ms using List.reverseRecOn with
  | nil => rfl
  | append_singleton ms m ih => rw [play_snoc, Pool.play_snoc, move_pool, ih]

variable {R : Φ → Prop}

/-- **The invariant rule for watched runs.**  `J` relates the phases of the programs and the watched
log to the store: it holds at the start, a new program extends it, and so does every command that the
protocol allows and that, with its phase, meets the condition `G`. -/
theorem play_phased (J : List Φ → List (Φ × Event C ρ σ) → σ → Prop) (G : Φ × Event C ρ σ → Prop)
    {s : σ} (hprog : ∀ q, (prog q).Follows (Flow.guarded A next) (init q) fun _ => R)
    (h₀ : J [] [] s) (hspawn : ∀ φs l t q, J φs l t → J (φs ++ [init q]) l t)
    (hstep : ∀ φs l t i φ c r, J φs l t → φs[i]? = some φ → A φ c →
      G (φ, ⟨t, c, r, sem c r t⟩) →
      J (φs.set i (next φ c r t)) (l ++ [(φ, ⟨t, c, r, sem c r t⟩)]) (sem c r t))
    (ms : List (Move Q ρ)) (hG : ∀ x ∈ ((start s).play next init sem prog ms).log, G x) :
    Pool.InPhases (Flow.guarded A next) R ((start s).play next init sem prog ms).phases
        ((start s).play next init sem prog ms).pool.procs ∧
      ((start s).play next init sem prog ms).log.map Prod.snd =
        ((start s).play next init sem prog ms).pool.log ∧
      J ((start s).play next init sem prog ms).phases ((start s).play next init sem prog ms).log
        ((start s).play next init sem prog ms).pool.store := by
  induction ms using List.reverseRecOn with
  | nil => exact ⟨⟨rfl, fun i p hp => nomatch hp⟩, rfl, h₀⟩
  | append_singleton ms m ih =>
    rw [play_snoc] at hG ⊢
    generalize (start s).play next init sem prog ms = w at hG ih
    cases m with
    | spawn q =>
      obtain ⟨hphases, hlog, hJ⟩ := ih hG
      exact ⟨hphases.append (hprog q), hlog, hspawn _ _ _ q hJ⟩
    | step i r =>
      rw [move] at hG ⊢
      cases hn : w.pool.next? i with
      | none =>
        rw [hn] at hG
        have hmove : w.pool.move sem prog (.step i r) = w.pool := by simp only [Pool.move, hn]
        simpa [hmove] using ih hG
      | some ck =>
        obtain ⟨c, k⟩ := ck
        have hmove : w.pool.move sem prog (.step i r) =
            ⟨w.pool.procs.set i (k r w.pool.store), sem c r w.pool.store,
              w.pool.log ++ [⟨w.pool.store, c, r, sem c r w.pool.store⟩]⟩ := by
          simp only [Pool.move, hn]
        rw [hn] at hG
        cases hi : w.phases[i]? with
        | none =>
          rw [hi] at hG
          obtain ⟨hphases, -, -⟩ := ih hG
          obtain ⟨φ, hφ, -⟩ := hphases.follows i _ (Pool.getElem?_of_next? hn)
          simp [hi] at hφ
        | some φ =>
          rw [hi] at hG
          obtain ⟨hphases, hlog, hJ⟩ := ih fun x hx => hG x (List.mem_append_left _ hx)
          obtain ⟨φ₁, hφ₁, hfollows⟩ := hphases.follows i _ (Pool.getElem?_of_next? hn)
          rw [hi] at hφ₁
          cases hφ₁
          obtain ⟨φ', hδ, hk⟩ := hfollows r w.pool.store
          obtain ⟨hA, rfl⟩ := Flow.guarded_eq_some hδ
          rw [hmove]
          refine ⟨hphases.set hk, ?_, hstep _ _ _ i φ c r hJ hi hA (hG _ ?_)⟩
          · rw [List.map_append, hlog]
            rfl
          · exact List.mem_concat_self

theorem play_watched (J : List (Φ × Event C ρ σ) → σ → Prop) (G : Φ × Event C ρ σ → Prop) {s : σ}
    (hprog : ∀ q, (prog q).Follows (Flow.guarded A next) (init q) fun _ => R) (h₀ : J [] s)
    (hstep : ∀ l t φ c r, J l t → A φ c → G (φ, ⟨t, c, r, sem c r t⟩) →
      J (l ++ [(φ, ⟨t, c, r, sem c r t⟩)]) (sem c r t)) (ms : List (Move Q ρ))
    (hG : ∀ x ∈ ((start s).play next init sem prog ms).log, G x) :
    Pool.InPhases (Flow.guarded A next) R ((start s).play next init sem prog ms).phases
        ((start s).play next init sem prog ms).pool.procs ∧
      ((start s).play next init sem prog ms).log.map Prod.snd =
        ((start s).play next init sem prog ms).pool.log ∧
      J ((start s).play next init sem prog ms).log
        ((start s).play next init sem prog ms).pool.store :=
  play_phased (fun _ l t => J l t) G hprog h₀ (fun _ _ _ _ hJ => hJ)
    (fun _ l t _ φ c r hJ _ hA he => hstep l t φ c r hJ hA he) ms hG

theorem forall_pool_log {P : Event C ρ σ → Prop} {s : σ}
    (hprog : ∀ q, (prog q).Follows (Flow.guarded A next) (init q) fun _ => R)
    (ms : List (Move Q ρ)) (hP : ∀ x ∈ ((start s).play next init sem prog ms).log, P x.2) :
    ∀ e ∈ ((Pool.start s).play sem prog ms).log, P e := by
  obtain ⟨-, hlog, -⟩ := play_watched (fun _ _ => True) (fun _ => True) hprog trivial
    (fun _ _ _ _ _ _ _ _ => trivial) ms fun _ _ => trivial
  rw [play_pool] at hlog
  intro e he
  have hmem : e ∈ ((start s).play next init sem prog ms).log.map Prod.snd := by
    rw [hlog]
    exact he
  obtain ⟨x, hx, rfl⟩ := List.mem_map.1 hmem
  exact hP x hx

/-- What every watched command satisfies that the protocol allows and that meets its condition, every
logged command satisfies. -/
theorem forall_log {P : Event C ρ σ → Prop} {G : Φ × Event C ρ σ → Prop} {s : σ}
    (hprog : ∀ q, (prog q).Follows (Flow.guarded A next) (init q) fun _ => R)
    (hP : ∀ φ t c r, A φ c → G (φ, ⟨t, c, r, sem c r t⟩) → P ⟨t, c, r, sem c r t⟩)
    (ms : List (Move Q ρ)) (hG : ∀ x ∈ ((start s).play next init sem prog ms).log, G x) :
    ∀ e ∈ ((Pool.start s).play sem prog ms).log, P e := by
  let J : List (Φ × Event C ρ σ) → σ → Prop := fun l _ => ∀ x ∈ l, P x.2
  have hstep : ∀ l t φ c r, J l t → A φ c → G (φ, ⟨t, c, r, sem c r t⟩) →
      J (l ++ [(φ, ⟨t, c, r, sem c r t⟩)]) (sem c r t) := by
    intro l t φ c r hl hA he x hx
    rcases mem_snoc.1 hx with hx | rfl
    · exact hl x hx
    · exact hP φ t c r hA he
  obtain ⟨-, -, hJ⟩ := play_watched J G hprog (fun _ hx => nomatch hx) hstep ms hG
  exact forall_pool_log hprog ms hJ

end Watched

end VibemeetBackend.Async
