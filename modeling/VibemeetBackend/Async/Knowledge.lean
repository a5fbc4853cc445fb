import VibemeetBackend.Async.Protocol

/-!
# Programs that learn

A protocol with one fact per key.  A program about a key may issue some commands only once it knows
the fact, and it learns the fact from what a command finds or does.  If the fact is true whenever it
is shown, and stays true, those commands are only ever executed when it is true.
-/

namespace VibemeetBackend.Async

variable {C ρ σ α β K : Type} {C' ρ' σ' K' : Type}

structure Knowledge (C ρ σ K : Type) where
  /-- A program about the key may issue the command at all. -/
  allows : K → C → Prop
  needs : C → Prop
  /-- The command shows the fact. -/
  shows : K → C → ρ → σ → Bool

namespace Knowledge

open Classical in
/-- The transition function on phases: the key, and whether the fact is known. -/
noncomputable def next (κ : Knowledge C ρ σ K) (φ : K × Bool) (c : C) (r : ρ) (s : σ) :
    Option (K × Bool) :=
  if κ.allows φ.1 c ∧ (κ.needs c → φ.2 = true) then some (φ.1, φ.2 || κ.shows φ.1 c r s) else none

variable {κ : Knowledge C ρ σ K} {k : K} {b : Bool} {R : α → Prop} {R' : β → Prop}

/-- A program about the key `k`, which knows the fact when `b`, issues only what it may; it knows the
fact when its result satisfies `R`. -/
def Learns (κ : Knowledge C ρ σ K) (k : K) (b : Bool) (p : Flow C ρ σ α) (R : α → Prop) : Prop :=
  Flow.Follows κ.next (k, b) p (fun a φ => φ.1 = k ∧ (b = true ∨ R a → φ.2 = true))
    fun _ φ => φ.1 = k ∧ (b = true → φ.2 = true)

theorem learns_pure {a : α} (h : R a → b = true) :
    κ.Learns k b (pure a : Flow C ρ σ α) R :=
  Flow.follows_pure ⟨rfl, fun hb => hb.elim id h⟩

theorem learns_throw (e : String) : κ.Learns k b (throw e : Flow C ρ σ α) R :=
  Flow.follows_throw ⟨rfl, id⟩

variable {p : Flow C ρ σ α}

theorem Learns.mono {R₂ : α → Prop} (h : κ.Learns k b p R) (hR : ∀ a, R₂ a → R a) :
    κ.Learns k b p R₂ :=
  Flow.Follows.mono h (fun a _ ha => ⟨ha.1, fun hb => ha.2 (hb.imp_right (hR a))⟩) fun _ _ he => he

/-- Sequencing: what the first program told, the second one knows. -/
theorem learns_bind {p : Flow C ρ σ β} {f : β → Flow C ρ σ α} (hp : κ.Learns k b p R')
    (hf : ∀ x b', (b = true ∨ R' x → b' = true) → κ.Learns k b' (f x) R) :
    κ.Learns k b (p >>= f) R := by
  refine Flow.follows_bind (Flow.Follows.mono hp ?_ fun _ _ he => he)
  rintro x ⟨k', b'⟩ ⟨rfl, hb'⟩
  refine Flow.Follows.mono (hf x b' hb') ?_ ?_
  · exact fun a φ ha => ⟨ha.1, fun hb => ha.2 (hb.imp_left fun h => hb' (.inl h))⟩
  · exact fun e φ he => ⟨he.1, fun hb => he.2 (hb' (.inl hb))⟩

theorem learns_call_bind {ok : ρ → Bool} {err : String} {c : C} {f : ρ × σ → Flow C ρ σ α}
    (hallows : κ.allows k c) (hneeds : κ.needs c → b = true)
    (h : ∀ r s b', (b = true ∨ κ.shows k c r s = true → b' = true) → ok r = true →
      κ.Learns k b' (f (r, s)) R) : κ.Learns k b (Flow.call ok err c >>= f) R := by
  refine Flow.follows_call_bind fun r s => ⟨_, if_pos ⟨hallows, hneeds⟩, fun hr => ?_, fun _ => ?_⟩
  · have hb' : b = true ∨ κ.shows k c r s = true → (b || κ.shows k c r s) = true :=
      (Bool.or_eq_true _ _).mpr
    refine Flow.Follows.mono (h r s _ hb' hr) ?_ ?_
    · exact fun a φ ha => ⟨ha.1, fun hb => ha.2 (hb.imp_left fun hb => hb' (.inl hb))⟩
    · exact fun e φ he => ⟨he.1, fun hb => he.2 (hb' (.inl hb))⟩
  · exact ⟨rfl, fun hb => (Bool.or_eq_true _ _).mpr (.inl hb)⟩

theorem learns_tryCatch {h : String → Flow C ρ σ α} (hp : κ.Learns k b p R)
    (hh : ∀ e b', (b = true → b' = true) → κ.Learns k b' (h e) R) :
    κ.Learns k b (tryCatch p h) R := by
  refine Flow.follows_tryCatch (Flow.Follows.mono hp (fun _ _ ha => ha) ?_)
  rintro e ⟨k', b'⟩ ⟨rfl, hb'⟩
  refine Flow.Follows.mono (hh e b' hb') ?_ ?_
  · exact fun a φ ha => ⟨ha.1, fun hb => ha.2 (hb.imp_left hb')⟩
  · exact fun e φ he => ⟨he.1, fun hb => he.2 (hb' hb)⟩

theorem learns_attempt (hp : κ.Learns k b p R) :
    κ.Learns k b (Flow.attempt p) fun x => ∃ a, x = .ok a ∧ R a := by
  refine Flow.follows_attempt (Flow.Follows.mono hp ?_ ?_)
  · rintro a φ ⟨hk, ha⟩
    refine ⟨hk, fun hb => ha (hb.imp_right ?_)⟩
    rintro ⟨a', h, hR⟩
    cases h
    exact hR
  · rintro e φ ⟨hk, he⟩
    exact ⟨hk, fun hb => hb.elim he fun ⟨_, h, _⟩ => nomatch h⟩

theorem learns_mk {x : Except String α} (h : ∀ a, x = .ok a → R a → b = true) :
    κ.Learns k b (ExceptT.mk (pure x) : Flow C ρ σ α) R :=
  Flow.follows_mk (fun a ha => ⟨rfl, fun hb => hb.elim id (h a ha)⟩) fun _ _ => ⟨rfl, id⟩

theorem learns_of_issues
    (hp : Flow.Issues (fun _ => True) (fun c => κ.allows k c ∧ ¬ κ.needs c) p) :
    κ.Learns k b p fun _ => False := by
  have hfollows : ∀ (b : Bool) (q : Prog C ρ σ (Except String α)),
      q.Issues (fun _ => True) (fun c => κ.allows k c ∧ ¬ κ.needs c) →
      q.Follows κ.next (k, b) fun _ φ => φ.1 = k ∧ (b = true → φ.2 = true) := by
    intro b q hq
    induction q generalizing b with
    | ret x => exact ⟨rfl, id⟩
    | act c f ih =>
      intro r s
      refine ⟨_, if_pos ⟨hq.1.1, fun hn => (hq.1.2 hn).elim⟩, ?_⟩
      refine Prog.Follows.mono (ih r s _ (hq.2 r s trivial)) fun x φ hφ => ⟨hφ.1, fun hb => hφ.2 ?_⟩
      exact (Bool.or_eq_true _ _).mpr (.inl hb)
  refine Prog.Follows.mono (hfollows b p.run hp) fun x φ hφ => ?_
  cases x with
  | ok a => exact ⟨hφ.1, fun hb => hb.elim hφ.2 False.elim⟩
  | error e => exact hφ

theorem learns_focus {κ' : Knowledge C' ρ' σ' K'} {k' : K'} {wrap : C → C'} {ans : ρ' → ρ}
    {view : σ' → σ} (hp : κ.Learns k b p R) (hallows : ∀ c, κ.allows k c → κ'.allows k' (wrap c))
    (hneeds : ∀ c, κ'.needs (wrap c) → κ.needs c)
    (hshows : ∀ c r s, κ'.shows k' (wrap c) r s = κ.shows k c (ans r) (view s)) :
    κ'.Learns k' b (ExceptT.mk (p.run.focus wrap ans view)) R := by
  -- the smaller protocol is followed with its key `k`, the larger one with `k'`
  have hfollows : ∀ (b : Bool) (q : Prog C ρ σ (Except String α)) {Q : Except String α → K × Bool → Prop},
      q.Follows κ.next (k, b) Q →
      (q.focus wrap ans view).Follows κ'.next (k', b)
        fun x φ' => φ'.1 = k' ∧ Q x (k, φ'.2) := by
    intro b q Q hq
    induction q generalizing b with
    | ret x => exact ⟨rfl, hq⟩
    | act c f ih =>
      intro r s
      obtain ⟨φ, hφ, hf⟩ := hq (ans r) (view s)
      rw [next] at hφ
      split at hφ
      · rename_i hc
        cases hφ
        have hc' : κ'.allows k' (wrap c) ∧ (κ'.needs (wrap c) → b = true) :=
          ⟨hallows c hc.1, fun hn => hc.2 (hneeds c hn)⟩
        refine ⟨_, if_pos hc', ?_⟩
        rw [hshows]
        exact ih _ _ _ hf
      · cases hφ
  refine Prog.Follows.mono (hfollows b p.run hp) ?_
  rintro x ⟨k'', b'⟩ ⟨rfl, hx⟩
  cases x with
  | _ => exact ⟨rfl, hx.2⟩

end Knowledge

/-! ### Runs -/

namespace Pool

variable {Q : Type} {sem : C → ρ → σ → σ} {prog : Q → Prog C ρ σ Unit}

/-- **The invariant rule for knowledge.**  `J` relates the log to the store and `Fact` is what the keys
are about.  The facts stay true, what shows one makes it true, and a command that needs a fact may
rely on it. -/
theorem play_knowledge {κ : Knowledge C ρ σ K} {key : Q → K} (Fact : K → σ → Prop)
    (J : List (Event C ρ σ) → σ → Prop) (G : Event C ρ σ → Prop) {s : σ}
    (hprog : ∀ q, (prog q).Follows κ.next (key q, false) fun _ _ => True) (h₀ : J [] s)
    (hstays : ∀ k c r t, Fact k t → Fact k (sem c r t))
    (hshows : ∀ l k c r t, J l t → κ.allows k c → κ.shows k c r t = true → Fact k (sem c r t))
    (hstep : ∀ l k c r t, J l t → κ.allows k c → (κ.needs c → Fact k t) →
      G ⟨t, c, r, sem c r t⟩ → J (l ++ [⟨t, c, r, sem c r t⟩]) (sem c r t))
    (ms : List (Move Q ρ)) (hG : ∀ e ∈ ((start s).play sem prog ms).log, G e) :
    J ((start s).play sem prog ms).log ((start s).play sem prog ms).store := by
  let J' : List (K × Bool) → List (Event C ρ σ) → σ → Prop :=
    fun φs l t => (∀ φ ∈ φs, φ.2 = true → Fact φ.1 t) ∧ J l t
  have hspawn : ∀ φs l t q, J' φs l t → J' (φs ++ [(key q, false)]) l t := by
    rintro φs l t q ⟨hφs, hJ⟩
    refine ⟨fun φ hφ hb => ?_, hJ⟩
    rcases mem_snoc.1 hφ with hφ | rfl
    · exact hφs φ hφ hb
    · cases hb
  have hmove : ∀ φs l t i φ c r φ', J' φs l t → φs[i]? = some φ → κ.next φ c r t = some φ' →
      G ⟨t, c, r, sem c r t⟩ → J' (φs.set i φ') (l ++ [⟨t, c, r, sem c r t⟩]) (sem c r t) := by
    rintro φs l t i φ c r φ' ⟨hφs, hJ⟩ hi hδ he
    rw [Knowledge.next] at hδ
    split at hδ
    · rename_i hc
      cases hδ
      have hknown : φ.2 = true → Fact φ.1 t := hφs φ (List.mem_of_getElem? hi)
      refine ⟨fun ψ hψ hb => ?_, hstep l φ.1 c r t hJ hc.1 (fun hn => hknown (hc.2 hn)) he⟩
      rcases List.mem_or_eq_of_mem_set hψ with hψ | rfl
      · exact hstays ψ.1 c r t (hφs ψ hψ hb)
      · rcases (Bool.or_eq_true _ _).mp hb with hb | hb
        · exact hstays φ.1 c r t (hknown hb)
        · exact hshows l φ.1 c r t hJ hc.1 hb
    · cases hδ
  obtain ⟨φs, -, -, hJ⟩ := play_protocol J' G hprog ⟨fun _ hφ => (nomatch hφ), h₀⟩ hspawn hmove ms hG
  exact hJ

end Pool

end VibemeetBackend.Async
