import VibemeetBackend.Collected.BackfillPhases

/-!
# A completed backfill misses nothing

Whole runs of backfills, of observations and of the provider, from an empty store.
-/

namespace VibemeetBackend.Collected

open Async Pool
open Billing (isTrimmed)
open Moments (Text)
open Mongo (Unique)
open Paging

/-! ### What is ahead -/

abbrev BackfillEvent : Type := Event Cmd Reply Store

def keyOf (p : ProviderPayment) : Text × ℤ := (p.id, p.created_at)

def Store.keys (s : Store) (asOf : ℤ) : List (Text × ℤ) :=
  (s.provider.map keyOf).filter fun k => decide (k.2 ≤ lastSecond asOf)

def Ahead (s : Store) (asOf : ℤ) (skip : ℕ) (p : ProviderPayment) : Prop :=
  keyOf p ∈ (s.keys asOf).drop skip

def sees (p : ProviderPayment) (e : BackfillEvent) : Bool :=
  match e.cmd with
  | .fetchPage skip toSecond =>
    e.ans.ok && decide (keyOf p ∈ (e.before.pageAt skip toSecond).map keyOf)
  | _ => false

def Observed (l : List BackfillEvent) (p : ProviderPayment) : Prop := ∃ e ∈ l, sees p e = true

section Invariant

variable (upper : UpperCase)

def Recorded (s : Store) (p : ProviderPayment) : Prop := s.payments.get p.id = some (p.row upper)

/-- What was listed at the beginning has been on a page, and is recorded or among `rest`; or it is
still to come. -/
def Covers (l : List BackfillEvent) (s : Store) (asOf : ℤ)
    (rest : List CapturedPaymentObservation) (ahead : ProviderPayment → Prop) : Prop :=
  ∀ p ∈ s.begun, p.created_at * 1000 < asOf →
    (Observed l p ∧ (p.Valid upper → Recorded upper s p ∨ ∃ o ∈ rest, o.row = p.row upper)) ∨
      ahead p

def Truthful (s : Store) (o : CapturedPaymentObservation) : Prop :=
  ∃ p ∈ s.provider, p.isCaptured = true ∧ o.row = p.row upper

/-- The document that a run works for; while the run owns it, it is where the run is. -/
def Current (s : Store) (owner : ℕ) (asOf : ℤ) (skip : ℕ) : Prop :=
  ∃ d, s.backfill = some d ∧ d.asOf = asOf ∧ (d.leaseOwner = some owner → d.nextSkip = skip)

structure DocOk (l : List BackfillEvent) (s : Store) (d : RazorpayProjectionBackfill) : Prop where
  owner : ∀ owner, d.leaseOwner = some owner → owner < s.owners
  covers : Covers upper l s d.asOf [] (Ahead s d.asOf d.nextSkip)
  released : d.status = .complete → d.leaseOwner = none
  complete : d.status = .complete → Covers upper l s d.asOf [] fun _ => False

structure Sound (l : List BackfillEvent) (s : Store) : Prop where
  ids : (s.provider.map (·.id)).Nodup
  rows : ∀ row ∈ s.payments.rows, ∃ p ∈ s.provider, p.isCaptured = true ∧ row = p.row upper
  listed : s.begun.map keyOf <:+ s.provider.map keyOf
  kept : ∀ p ∈ s.begun, p.isCaptured = true → p ∈ s.provider
  doc : ∀ d, s.backfill = some d → DocOk upper l s d

def PhaseOk (l : List BackfillEvent) (s : Store) : Phase → Prop
  | .idle => True
  | .drawn owner | .failing owner => owner < s.owners
  | .reading owner asOf skip =>
    owner < s.owners ∧ Current s owner asOf skip ∧ Covers upper l s asOf [] (Ahead s asOf skip)
  | .recording owner asOf skip rest isComplete =>
    owner < s.owners ∧ Current s owner asOf skip ∧ (∀ o ∈ rest, Truthful upper s o) ∧
      Covers upper l s asOf rest (Ahead s asOf (skip + pageSize)) ∧
      (isComplete = true → Covers upper l s asOf rest fun _ => False)
  | .observing o => Truthful upper s o

structure Extends (s t : Store) : Prop where
  owners : s.owners ≤ t.owners
  begun : s.backfill ≠ none → t.begun = s.begun
  listed : s.provider.map keyOf <:+ t.provider.map keyOf
  kept : ∀ p ∈ s.provider, p.isCaptured = true → p ∈ t.provider
  recorded : ∀ p ∈ s.provider, p.isCaptured = true → Recorded upper s p → Recorded upper t p

variable {upper} {l l' : List BackfillEvent} {s t : Store} {asOf : ℤ} {skip : ℕ} {φ ψ : Phase}
  {p q : ProviderPayment} {rest : List CapturedPaymentObservation}
  {ahead ahead' : ProviderPayment → Prop}

theorem Sound.eq_of_id (h : Sound upper l s) (hp : p ∈ s.provider) (hq : q ∈ s.provider)
    (hid : p.id = q.id) : p = q :=
  List.inj_on_of_nodup_map h.ids hp hq hid

theorem Ahead.mono (h : Ahead s asOf skip p)
    (hlisted : s.provider.map keyOf <:+ t.provider.map keyOf) : Ahead t asOf skip p :=
  drop_subset_of_suffix (hlisted.filter _) skip h

theorem Observed.mono (h : Observed l p) (hl : l ⊆ l') : Observed l' p := by
  obtain ⟨e, he, hsees⟩ := h
  exact ⟨e, hl he, hsees⟩

variable {o : CapturedPaymentObservation}

theorem Truthful.mono (h : Truthful upper s o) (hext : Extends upper s t) : Truthful upper t o := by
  obtain ⟨p, hp, hcaptured, hrow⟩ := h
  exact ⟨p, hext.kept p hp hcaptured, hcaptured, hrow⟩

theorem Covers.mono (h : Covers upper l s asOf rest ahead) (hsound : Sound upper l s)
    (hext : Extends upper s t) (hdoc : s.backfill ≠ none) (hl : l ⊆ l')
    (hahead : ∀ p, ahead p → ahead' p) : Covers upper l' t asOf rest ahead' := by
  intro p hp hbefore
  rw [hext.begun hdoc] at hp
  apply (h p hp hbefore).imp ?_ (hahead p)
  rintro ⟨hobserved, hrecorded⟩
  refine ⟨hobserved.mono hl, fun hvalid => (hrecorded hvalid).imp_left ?_⟩
  exact hext.recorded p (hsound.kept p hp hvalid.captured) hvalid.captured

variable {owner : ℕ}

theorem Current.backfill_ne_none (h : Current s owner asOf skip) : s.backfill ≠ none := by
  obtain ⟨d, hd, -⟩ := h
  rw [hd]
  exact Option.some_ne_none d

theorem phaseOk_other (h : PhaseOk upper l s φ) (hsound : Sound upper l s)
    (hext : Extends upper s t) (hl : l ⊆ l')
    (hcurrent : ∀ owner asOf skip, φ.owner? = some owner → Current s owner asOf skip →
      Current t owner asOf skip) : PhaseOk upper l' t φ := by
  cases φ with
  | idle => trivial
  | drawn owner => exact lt_of_lt_of_le h hext.owners
  | failing owner => exact lt_of_lt_of_le h hext.owners
  | observing o => exact Truthful.mono h hext
  | reading owner asOf skip =>
    obtain ⟨howner, hcur, hcovers⟩ := h
    refine ⟨howner.trans_le hext.owners, hcurrent owner asOf skip rfl hcur, ?_⟩
    exact hcovers.mono hsound hext hcur.backfill_ne_none hl fun p hp => hp.mono hext.listed
  | recording owner asOf skip rest isComplete =>
    obtain ⟨howner, hcur, htruthful, hcovers, hcomplete⟩ := h
    refine ⟨howner.trans_le hext.owners, hcurrent owner asOf skip rfl hcur,
      fun o ho => (htruthful o ho).mono hext, ?_, fun hlast => ?_⟩
    · exact hcovers.mono hsound hext hcur.backfill_ne_none hl fun p hp => hp.mono hext.listed
    · exact (hcomplete hlast).mono hsound hext hcur.backfill_ne_none hl fun p hp => hp

/-! ### What a command does -/

theorem setBackfill_parts (s : Store) (found : Option RazorpayProjectionBackfill)
    (f : RazorpayProjectionBackfill → RazorpayProjectionBackfill) :
    (s.setBackfill found f).provider = s.provider ∧ (s.setBackfill found f).payments = s.payments ∧
      (s.setBackfill found f).owners = s.owners ∧ (s.setBackfill found f).begun = s.begun := by
  cases found <;> exact ⟨rfl, rfl, rfl, rfl⟩

theorem keys_amend (s : Store) (p : ProviderPayment) :
    (s.amend p).provider.map keyOf = s.provider.map keyOf := by
  show (s.provider.map _).map keyOf = _
  rw [List.map_map]
  apply List.map_congr_left
  intro q _
  show keyOf (if _ then _ else q) = keyOf q
  split <;> rfl

theorem ids_of_keys (rows : List ProviderPayment) :
    rows.map (·.id) = (rows.map keyOf).map Prod.fst := by
  rw [List.map_map]
  rfl

theorem Extends.of_parts (hprovider : t.provider = s.provider) (hpayments : t.payments = s.payments)
    (howners : s.owners ≤ t.owners) (hbegun : s.backfill ≠ none → t.begun = s.begun) :
    Extends upper s t where
  owners := howners
  begun := hbegun
  listed := by rw [hprovider]
  kept p hp _ := by rwa [hprovider]
  recorded p _ _ h := by
    unfold Recorded
    rwa [hpayments]

theorem extends_setBackfill (s : Store) (found : Option RazorpayProjectionBackfill)
    (f : RazorpayProjectionBackfill → RazorpayProjectionBackfill) :
    Extends upper s (s.setBackfill found f) := by
  obtain ⟨hprovider, hpayments, howners, hbegun⟩ := setBackfill_parts s found f
  exact .of_parts hprovider hpayments howners.ge fun _ => hbegun

theorem extends_refl (s : Store) : Extends upper s s := .of_parts rfl rfl le_rfl fun _ => rfl

theorem extends_upsert (hsound : Sound upper l s) (ho : Truthful upper s o) :
    Extends upper s { s with payments := s.payments.put o.row } where
  owners := le_rfl
  begun _ := rfl
  listed := List.suffix_refl _
  kept p hp _ := hp
  recorded p hp hcaptured h := by
    obtain ⟨q, hq, -, hrow⟩ := ho
    show (s.payments.put o.row).get p.id = _
    rw [Unique.get_put]
    split
    · rename_i hid
      rw [hrow] at hid ⊢
      rw [hsound.eq_of_id hq hp hid]
    · exact h

theorem extends_arrive (s : Store) (p : ProviderPayment) : Extends upper s (s.arrive p) := by
  unfold Store.arrive
  split
  · exact extends_refl s
  · exact
      { owners := le_rfl
        begun := fun _ => rfl
        listed := List.suffix_cons _ _
        kept := fun q hq _ => List.mem_cons_of_mem _ hq
        recorded := fun q _ _ h => h }

theorem extends_amend (s : Store) (p : ProviderPayment) : Extends upper s (s.amend p) where
  owners := le_rfl
  begun _ := rfl
  listed := by rw [keys_amend]
  kept q hq hcaptured := by
    apply List.mem_map.2
    exact ⟨q, hq, if_neg fun h => by rw [hcaptured] at h; exact Bool.noConfusion h.2⟩
  recorded q _ _ h := h

variable {c : Cmd} {r : Reply}

theorem truthful_of_allows (hφ : PhaseOk upper l s φ) (hc : Allows φ (.upsertPayment o)) :
    Truthful upper s o := by
  rcases hc with rfl | ⟨owner, asOf, skip, rest, isComplete, rfl⟩
  · exact hφ
  · exact hφ.2.2.1 o List.mem_cons_self

/-- **Every command leaves what is recorded, and what is ahead.** -/
theorem extends_exec (hsound : Sound upper l s) (hφ : PhaseOk upper l s φ) (hc : Allows φ c) :
    Extends upper s (c.exec r s) := by
  unfold Cmd.exec
  split
  · exact extends_refl s
  · cases c with
    | findBackfill => exact extends_refl s
    | fetchPage _ _ => exact extends_refl s
    | entity _ => exact extends_refl s
    | insertBackfill asOf =>
      dsimp only
      split
      · rename_i hnone
        exact .of_parts rfl rfl le_rfl fun h => absurd hnone h
      · exact extends_refl s
    | randomUUID => exact .of_parts rfl rfl (Nat.le_succ _) fun _ => rfl
    | claim owner now => exact extends_setBackfill s _ _
    | upsertPayment o => exact extends_upsert hsound (truthful_of_allows hφ hc)
    | checkpoint owner isComplete nextSkip pagesProcessed paymentsObserved =>
      exact extends_setBackfill s _ _
    | fail owner => exact extends_setBackfill s _ _
    | arrive p => exact extends_arrive s p
    | amend p => exact extends_amend s p

def Cmd.owner? : Cmd → Option ℕ
  | .claim owner _ | .checkpoint owner .. | .fail owner => some owner
  | _ => none

theorem owner?_of_allows (hc : Allows φ c) (h : c.owner? = some owner) : φ.owner? = some owner := by
  cases c with
  | claim o now =>
    obtain rfl := Option.some.inj h
    rw [show φ = .drawn o from hc]
    rfl
  | checkpoint o isComplete nextSkip pagesProcessed paymentsObserved =>
    cases h
    obtain ⟨asOf, skip, rfl, -⟩ := hc
    rfl
  | fail o =>
    obtain rfl := Option.some.inj h
    rw [show φ = .failing o from hc]
    rfl
  | _ => cases h

variable {f : RazorpayProjectionBackfill → RazorpayProjectionBackfill}
  {found : Option RazorpayProjectionBackfill}

theorem Current.setBackfill (h : Current s owner asOf skip)
    (hfound : ∀ d, found = some d → s.backfill = some d) (hasOf : ∀ d, (f d).asOf = d.asOf)
    (howner : ∀ d, found = some d → (f d).leaseOwner ≠ some owner) :
    Current (s.setBackfill found f) owner asOf skip := by
  cases found with
  | none => exact h
  | some d =>
    obtain ⟨d', hd', hdate, -⟩ := h
    obtain rfl := Option.some.inj ((hfound d rfl).symm.trans hd')
    exact ⟨f d, rfl, (hasOf d).trans hdate, fun heq => absurd heq (howner d rfl)⟩

variable {d : RazorpayProjectionBackfill}

theorem backfill_of_filter {P : RazorpayProjectionBackfill → Bool}
    (h : s.backfill.filter P = some d) : s.backfill = some d :=
  (Option.filter_eq_some_iff.1 h).1

theorem owned_eq_some (h : s.owned owner = some d) :
    s.backfill = some d ∧ d.leaseOwner = some owner := by
  obtain ⟨hd, howner⟩ := Option.filter_eq_some_iff.1 h
  exact ⟨hd, of_decide_eq_true howner⟩

/-- **A command of another run** leaves the document of a run, or takes it from it. -/
theorem current_exec (h : Current s owner asOf skip) (hne : c.owner? ≠ some owner) :
    Current (c.exec r s) owner asOf skip := by
  unfold Cmd.exec
  split
  · exact h
  · cases c with
    | findBackfill => exact h
    | fetchPage _ _ => exact h
    | entity _ => exact h
    | randomUUID => exact h
    | upsertPayment _ => exact h
    | amend _ => exact h
    | insertBackfill _ =>
      obtain ⟨d, hd, hrest⟩ := h
      simpa [hd] using ⟨d, hd, hrest⟩
    | arrive p =>
      dsimp only [Store.arrive]
      split <;> exact h
    | claim o now =>
      apply h.setBackfill
      · exact fun d hd => backfill_of_filter hd
      · exact fun d => rfl
      · exact fun d _ => hne
    | checkpoint o isComplete nextSkip pagesProcessed paymentsObserved =>
      apply h.setBackfill
      · exact fun d hd => (owned_eq_some hd).1
      · exact fun d => rfl
      · intro d hd heq
        cases isComplete with
        | true => cases heq
        | false => exact hne ((owned_eq_some hd).2.symm.trans heq)
    | fail o =>
      apply h.setBackfill
      · exact fun d hd => (owned_eq_some hd).1
      · exact fun d => rfl
      · exact fun d _ => nofun

/-! ### The invariant is kept -/

theorem DocOk.mono (h : DocOk upper l s d) (hsound : Sound upper l s) (hd : s.backfill = some d)
    (hext : Extends upper s t) (hl : l ⊆ l') : DocOk upper l' t d := by
  have hdoc : s.backfill ≠ none := by
    rw [hd]
    exact Option.some_ne_none d
  exact
    { owner := fun owner howner => (h.owner owner howner).trans_le hext.owners
      covers := h.covers.mono hsound hext hdoc hl fun p hp => hp.mono hext.listed
      released := h.released
      complete := fun hstatus => (h.complete hstatus).mono hsound hext hdoc hl fun p hp => hp }

theorem Sound.extend (h : Sound upper l s) (hext : Extends upper s t) (hl : l ⊆ l')
    (hbegun : t.begun = s.begun) (hids : (t.provider.map (·.id)).Nodup)
    (hrows : ∀ row ∈ t.payments.rows, row ∈ s.payments.rows ∨
      ∃ p ∈ s.provider, p.isCaptured = true ∧ row = p.row upper)
    (hdoc : ∀ d, t.backfill = some d → s.backfill = some d ∨ DocOk upper l' t d) :
    Sound upper l' t where
  ids := hids
  rows row hrow := by
    obtain ⟨p, hp, hcaptured, heq⟩ := (hrows row hrow).elim (h.rows row) id
    exact ⟨p, hext.kept p hp hcaptured, hcaptured, heq⟩
  listed := by
    rw [hbegun]
    exact h.listed.trans hext.listed
  kept p hp hcaptured := by
    rw [hbegun] at hp
    exact hext.kept p (h.kept p hp hcaptured) hcaptured
  doc d hd := by
    rcases hdoc d hd with hsame | hok
    · exact (h.doc d hsame).mono h hsame hext hl
    · exact hok

theorem Sound.setBackfill (h : Sound upper l s) (hl : l ⊆ l')
    (hdoc : ∀ d, found = some d → DocOk upper l' (s.setBackfill found f) (f d)) :
    Sound upper l' (s.setBackfill found f) := by
  obtain ⟨hprovider, hpayments, -, hbegun⟩ := setBackfill_parts s found f
  apply h.extend (extends_setBackfill s found f) hl hbegun
  · rw [hprovider]
    exact h.ids
  · intro row hrow
    rw [hpayments] at hrow
    exact .inl hrow
  · intro d hd
    cases found with
    | none => exact .inl hd
    | some d' =>
      cases hd
      exact .inr (hdoc d' rfl)

theorem Sound.same (h : Sound upper l s) (hl : l ⊆ l') (hprovider : t.provider = s.provider)
    (hpayments : t.payments = s.payments) (hbackfill : t.backfill = s.backfill)
    (hbegun : t.begun = s.begun) (howners : s.owners ≤ t.owners) : Sound upper l' t := by
  apply h.extend (.of_parts hprovider hpayments howners fun _ => hbegun) hl hbegun
  · rw [hprovider]
    exact h.ids
  · intro row hrow
    rw [hpayments] at hrow
    exact .inl hrow
  · intro d hd
    rw [hbackfill] at hd
    exact .inl hd

theorem sound_insert (h : Sound upper l s) (asOf : ℤ) : Sound upper l'
    { s with backfill := some ⟨.pending, asOf, 0, 0, 0, none, none⟩, begun := s.provider } where
  ids := h.ids
  rows := h.rows
  listed := List.suffix_refl _
  kept p hp _ := hp
  doc d hd := by
    cases hd
    exact
      { owner := fun owner howner => nomatch howner
        covers := by
          intro p hp hbefore
          right
          show keyOf p ∈ (List.filter _ (s.provider.map keyOf)).drop 0
          apply List.mem_filter.2
          refine ⟨List.mem_map_of_mem hp, decide_eq_true ?_⟩
          show p.created_at ≤ lastSecond asOf
          dsimp only at hbefore
          unfold lastSecond
          omega
        released := fun _ => rfl
        complete := fun hstatus => nomatch hstatus }

theorem sound_upsert (h : Sound upper l s) (hl : l ⊆ l') (ho : Truthful upper s o) :
    Sound upper l' { s with payments := s.payments.put o.row } := by
  apply h.extend (extends_upsert h ho) hl rfl h.ids
  · intro row hrow
    have hget := Unique.get_of_mem hrow
    rw [show (({ s with payments := s.payments.put o.row } : Store).payments).get row.paymentId =
      _ from Unique.get_put s.payments o.row row.paymentId] at hget
    split at hget
    · obtain ⟨p, hp, hcaptured, heq⟩ := ho
      exact .inr ⟨p, hp, hcaptured, (Option.some.inj hget).symm.trans heq⟩
    · exact .inl (Unique.mem_of_get hget).1
  · exact fun d hd => .inl hd

theorem sound_arrive (h : Sound upper l s) (hl : l ⊆ l') (p : ProviderPayment) :
    Sound upper l' (s.arrive p) := by
  have hext : Extends upper s (s.arrive p) := extends_arrive s p
  unfold Store.arrive at hext ⊢
  split
  · exact h.same hl rfl rfl rfl rfl le_rfl
  · rename_i hnew
    rw [if_neg hnew] at hext
    exact h.extend hext hl rfl (List.nodup_cons.2 ⟨hnew, h.ids⟩) (fun row hrow => .inl hrow)
      fun d hd => .inl hd

theorem sound_amend (h : Sound upper l s) (hl : l ⊆ l') (p : ProviderPayment) :
    Sound upper l' (s.amend p) := by
  apply h.extend (extends_amend s p) hl rfl
  · rw [ids_of_keys, keys_amend, ← ids_of_keys]
    exact h.ids
  · exact fun row hrow => .inl hrow
  · exact fun d hd => .inl hd

/-- **Every command keeps the invariant.** -/
theorem sound_exec (h : Sound upper l s) (hφ : PhaseOk upper l s φ) (hc : Allows φ c)
    (hl : l ⊆ l') : Sound upper l' (c.exec r s) := by
  have hext : Extends upper s (c.exec r s) := extends_exec h hφ hc
  have hsame : Sound upper l' s := h.same hl rfl rfl rfl rfl le_rfl
  unfold Cmd.exec at hext ⊢
  split
  · exact hsame
  · rename_i hdelivered
    rw [if_neg hdelivered] at hext
    cases c with
    | findBackfill => exact hsame
    | fetchPage _ _ => exact hsame
    | entity _ => exact hsame
    | insertBackfill asOf =>
      dsimp only
      split
      · exact sound_insert h asOf
      · exact hsame
    | randomUUID => exact h.same hl rfl rfl rfl rfl (Nat.le_succ _)
    | upsertPayment o => exact sound_upsert h hl (truthful_of_allows hφ hc)
    | arrive p => exact sound_arrive h hl p
    | amend p => exact sound_amend h hl p
    | claim owner now =>
      apply h.setBackfill hl
      intro d hd
      have hbackfill := backfill_of_filter hd
      have hok := (h.doc d hbackfill).mono h hbackfill hext hl
      obtain rfl : φ = .drawn owner := hc
      exact
        { owner := by
            rintro o ho
            cases ho
            exact lt_of_lt_of_le hφ hext.owners
          covers := hok.covers
          released := fun hstatus => nomatch hstatus
          complete := fun hstatus => nomatch hstatus }
    | checkpoint owner isComplete nextSkip pagesProcessed paymentsObserved =>
      apply h.setBackfill hl
      intro d hd
      obtain ⟨hbackfill, howner⟩ := owned_eq_some hd
      have hok := (h.doc d hbackfill).mono h hbackfill hext hl
      obtain ⟨asOf, skip, rfl, rfl⟩ := hc
      obtain ⟨-, ⟨d', hd', rfl, -⟩, -, hcovers, hcomplete⟩ := hφ
      obtain rfl := Option.mem_unique hbackfill hd'
      have hdoc : s.backfill ≠ none := by
        simp [hbackfill]
      cases isComplete with
      | true =>
        exact
          { owner := fun o ho => nomatch ho
            covers := hcovers.mono h hext hdoc hl fun p hp => hp.mono hext.listed
            released := fun _ => rfl
            complete := fun _ => (hcomplete rfl).mono h hext hdoc hl fun p hp => hp }
      | false =>
        exact
          { owner := hok.owner
            covers := hcovers.mono h hext hdoc hl fun p hp => hp.mono hext.listed
            released := fun hstatus => nomatch hstatus
            complete := fun hstatus => nomatch hstatus }
    | fail owner =>
      apply h.setBackfill hl
      intro d hd
      have hbackfill := (owned_eq_some hd).1
      have hok := (h.doc d hbackfill).mono h hbackfill hext hl
      exact
        { owner := fun o ho => nomatch ho
          covers := hok.covers
          released := fun hstatus => nomatch hstatus
          complete := fun hstatus => nomatch hstatus }

/-! ### Pages -/

theorem pageAt_keys (s : Store) (asOf : ℤ) (skip : ℕ) :
    (s.pageAt skip (lastSecond asOf)).map keyOf = page (s.keys asOf) skip pageSize := by
  unfold Store.pageAt page Store.keys
  have hkeep : inSeconds none (lastSecond asOf) =
      (fun k : Text × ℤ => decide (k.2 ≤ lastSecond asOf)) ∘ keyOf := by
    funext p
    exact decide_eq_decide.2 (and_iff_right fun second hsecond => nomatch hsecond)
  rw [List.map_take, List.map_drop, List.filter_map, hkeep]

variable {items : List RazorpayPaymentForCollected}

theorem mem_observations {rows : List ProviderPayment}
    (hparsed : List.Forall₂ (Parsed upper.text) items rows) (hp : p ∈ rows)
    (hvalid : p.Valid upper) (hbefore : p.created_at * 1000 < asOf) :
    ∃ o ∈ observations upper asOf items, o.row = p.row upper := by
  induction hparsed with
  | nil => cases hp
  | @cons item q items rows hitem hparsed ih =>
    rcases List.mem_cons.1 hp with rfl | hp
    · obtain ⟨o, ho⟩ := normalize_value_of_valid hitem hvalid
      have hearly : ¬asOf ≤ item.created_at * 1000 := by
        rw [hitem.created_at]
        exact not_le.2 hbefore
      rw [observations_early hearly, ho]
      exact ⟨o, List.mem_cons_self, (normalize_value hitem ho).2⟩
    · obtain ⟨o, ho, hrow⟩ := ih hp
      refine ⟨o, ?_, hrow⟩
      by_cases hlate : asOf ≤ item.created_at * 1000
      · rwa [observations_late hlate]
      · rw [observations_early hlate]
        exact List.mem_append_right _ ho

theorem truthful_observations {rows : List ProviderPayment}
    (hparsed : List.Forall₂ (Parsed upper.text) items rows) (hrows : rows ⊆ s.provider) :
    ∀ o ∈ observations upper asOf items, Truthful upper s o := by
  induction hparsed with
  | nil => exact fun o ho => nomatch ho
  | @cons item q items rows hitem hparsed ih =>
    obtain ⟨hq, hrest⟩ := List.cons_subset.1 hrows
    intro o ho
    by_cases hlate : asOf ≤ item.created_at * 1000
    · rw [observations_late hlate] at ho
      exact ih hrest o ho
    · rw [observations_early hlate] at ho
      rcases List.mem_append.1 ho with ho | ho
      · obtain ⟨hcaptured, hrow⟩ := normalize_value hitem (Option.mem_toList.1 ho)
        exact ⟨q, hq, hcaptured, hrow⟩
      · exact ih hrest o ho

/-- **The phase of a run that has a page.** -/
theorem phaseOk_received (h : Sound upper l s) (hφ : PhaseOk upper l s (.reading owner asOf skip))
    (hr : r.ok = true) {cmd : Cmd} (hcmd : cmd = .fetchPage skip (lastSecond asOf)) :
    PhaseOk upper (l ++ [⟨s, cmd, r, s⟩]) s
      (received upper owner asOf skip (s.pageAt skip (lastSecond asOf))) := by
  subst hcmd
  obtain ⟨howner, hcur, hcovers⟩ := hφ
  unfold received
  cases hitems : parseRazorpayPaymentPage upper.text
      (response (s.pageAt skip (lastSecond asOf))) with
  | error e => exact howner
  | ok items =>
    have hparsed := parseRazorpayPaymentPage_serves (serves_response _) hitems
    have hrows : s.pageAt skip (lastSecond asOf) ⊆ s.provider :=
      fun q hq => List.mem_of_mem_filter (page_subset _ _ _ hq)
    have hl := List.subset_append_left l
      [(⟨s, .fetchPage skip (lastSecond asOf), r, s⟩ : BackfillEvent)]
    -- What was ahead of the page is on it, or still ahead.
    have hpage : ∀ p ∈ s.begun, p.created_at * 1000 < asOf → Ahead s asOf skip p →
        (Observed (l ++ [⟨s, .fetchPage skip (lastSecond asOf), r, s⟩]) p ∧
          (p.Valid upper → ∃ o ∈ observations upper asOf items, o.row = p.row upper)) ∨
        Ahead s asOf (skip + pageSize) p := by
      intro p hp hbefore hahead
      apply (mem_page_or_ahead hahead).imp_left
      intro hmem
      rw [← pageAt_keys] at hmem
      refine ⟨⟨_, List.mem_append_right l List.mem_cons_self, ?_⟩, fun hvalid => ?_⟩
      · exact Bool.and_eq_true_iff.2 ⟨hr, decide_eq_true hmem⟩
      · obtain ⟨q, hq, hkey⟩ := List.mem_map.1 hmem
        have hsame : q = p := h.eq_of_id (hrows hq) (h.kept p hp hvalid.captured)
          (Prod.ext_iff.1 hkey).1
        rw [hsame] at hq
        exact mem_observations hparsed hq hvalid hbefore
    have hnext : Covers upper (l ++ [⟨s, .fetchPage skip (lastSecond asOf), r, s⟩]) s asOf
        (observations upper asOf items) (Ahead s asOf (skip + pageSize)) := by
      intro p hp hbefore
      rcases hcovers p hp hbefore with ⟨hobserved, hrecorded⟩ | hahead
      · refine .inl ⟨hobserved.mono hl, fun hvalid => .inl ?_⟩
        exact (hrecorded hvalid).resolve_right fun ⟨o, ho, _⟩ => nomatch ho
      · apply (hpage p hp hbefore hahead).imp_left
        exact fun hon => ⟨hon.1, fun hvalid => .inr (hon.2 hvalid)⟩
    refine ⟨howner, hcur, truthful_observations hparsed hrows, hnext, fun hshort p hp hbefore => ?_⟩
    apply (hnext p hp hbefore).imp_right
    intro hahead
    have hlength : (page (s.keys asOf) skip pageSize).length < pageSize := by
      rw [← pageAt_keys, List.length_map, ← hparsed.length_eq]
      exact of_decide_eq_true hshort
    unfold Ahead at hahead
    rw [drop_eq_nil_of_short hlength] at hahead
    exact List.not_mem_nil hahead

variable {isComplete : Bool}

theorem phaseOk_recorded
    (h : PhaseOk upper l t (.recording owner asOf skip (o :: rest) isComplete))
    (ho : ∀ p, o.row = p.row upper → Recorded upper t p) :
    PhaseOk upper l t (.recording owner asOf skip rest isComplete) := by
  have hcovers : ∀ {ahead}, Covers upper l t asOf (o :: rest) ahead →
      Covers upper l t asOf rest ahead := by
    intro ahead hcov p hp hbefore
    apply (hcov p hp hbefore).imp_left
    rintro ⟨hobserved, hrecorded⟩
    refine ⟨hobserved, fun hvalid => ?_⟩
    rcases hrecorded hvalid with hdone | ⟨o', ho', hrow⟩
    · exact .inl hdone
    · rcases List.mem_cons.1 ho' with rfl | ho'
      · exact .inl (ho p hrow)
      · exact .inr ⟨o', ho', hrow⟩
  obtain ⟨howner, hcur, htruthful, hnext, hlast⟩ := h
  exact ⟨howner, hcur, fun o' ho' => htruthful o' (List.mem_cons_of_mem _ ho'), hcovers hnext,
    fun hcomplete => hcovers (hlast hcomplete)⟩

/-! ### The commands of a phase -/

theorem allows_drawn (h : Allows (.drawn owner) c) : ∃ now, c = .claim owner now := by
  cases c <;> simp_all [Allows]

theorem allows_reading (h : Allows (.reading owner asOf skip) c) :
    c = .fetchPage skip (lastSecond asOf) := by
  cases c <;> simp_all [Allows]

theorem allows_recording (h : Allows (.recording owner asOf skip (o :: rest) isComplete) c) :
    c = .upsertPayment o := by
  cases c <;> simp_all [Allows]

theorem allows_recorded (h : Allows (.recording owner asOf skip [] isComplete) c) :
    ∃ pagesProcessed paymentsObserved,
      c = .checkpoint owner isComplete (skip + pageSize) pagesProcessed paymentsObserved := by
  cases c <;> simp_all [Allows]

theorem allows_failing (h : Allows (.failing owner) c) : c = .fail owner := by
  cases c <;> simp_all [Allows]

theorem allows_observing (h : Allows (.observing o) c) : c = .upsertPayment o := by
  cases c <;> simp_all [Allows]

theorem fetchPage_exec (skip : ℕ) (toSecond : ℤ) (r : Reply) (s : Store) :
    (Cmd.fetchPage skip toSecond).exec r s = s := by
  unfold Cmd.exec
  split <;> rfl

theorem Reply.ok.delivered (hr : r.ok = true) : ¬r.delivered = false := by
  simp [(Bool.and_eq_true_iff.1 hr).1]

/-- **The phase of a run after its command.** -/
theorem phaseOk_next (h : Sound upper l s) (hφ : PhaseOk upper l s φ) (hc : Allows φ c) :
    PhaseOk upper (l ++ [⟨s, c, r, c.exec r s⟩]) (c.exec r s) (φ.next upper c r s) := by
  have hl := List.subset_append_left l [(⟨s, c, r, c.exec r s⟩ : BackfillEvent)]
  have hext : Extends upper s (c.exec r s) := extends_exec h hφ hc
  have hsound := sound_exec (r := r) h hφ hc hl
  cases φ with
  | idle =>
    cases c with
    | randomUUID =>
      unfold Phase.next
      dsimp only
      split
      · rename_i hr
        unfold Cmd.exec
        rw [if_neg (Reply.ok.delivered hr)]
        exact Nat.lt_succ_self _
      · trivial
    | entity id =>
      unfold Phase.next
      dsimp only
      split
      · rename_i o ho
        split
        · obtain ⟨p, hp, ho⟩ := Option.bind_eq_some_iff.1 ho
          obtain ⟨hcaptured, hrow⟩ := normalize_entry ho
          have htruthful : Truthful upper s o :=
            ⟨p, List.mem_of_find?_eq_some hp, hcaptured, hrow⟩
          exact htruthful.mono hext
        · trivial
      · trivial
    | _ => trivial
  | drawn owner =>
    obtain ⟨now, rfl⟩ := allows_drawn hc
    unfold Phase.next
    dsimp only
    split
    · rename_i d hd
      split
      · rename_i hr
        have hbackfill := backfill_of_filter hd
        have hdoc : s.backfill ≠ none := by
          simp [hbackfill]
        have hcovers := (h.doc d hbackfill).covers.mono h hext hdoc hl
          fun p hp => hp.mono hext.listed
        refine ⟨lt_of_lt_of_le hφ hext.owners, ?_, hcovers⟩
        unfold Cmd.exec
        rw [if_neg (Reply.ok.delivered hr)]
        dsimp only
        rw [hd]
        exact ⟨_, rfl, rfl, fun _ => rfl⟩
      · trivial
    · trivial
  | reading owner asOf skip =>
    obtain rfl := allows_reading hc
    unfold Phase.next
    dsimp only
    rw [fetchPage_exec]
    split
    · rename_i hr
      exact phaseOk_received h hφ hr rfl
    · exact hφ.1
  | recording owner asOf skip rest isComplete =>
    cases rest with
    | cons o rest =>
      obtain rfl := allows_recording hc
      unfold Phase.next
      dsimp only
      split
      · rename_i hr
        have hkept := phaseOk_other hφ h hext hl fun owner asOf skip _ hcur =>
          current_exec (c := .upsertPayment o) (r := r) hcur nofun
        apply phaseOk_recorded hkept
        intro p hrow
        unfold Cmd.exec
        rw [if_neg (Reply.ok.delivered hr)]
        show (s.payments.put o.row).get p.id = _
        rw [Unique.get_put, hrow]
        exact if_pos rfl
      · exact lt_of_lt_of_le hφ.1 hext.owners
    | nil =>
      obtain ⟨pagesProcessed, paymentsObserved, rfl⟩ := allows_recorded hc
      unfold Phase.next
      dsimp only
      split
      · rename_i hok
        obtain ⟨hr, howned⟩ := Bool.and_eq_true_iff.1 hok
        split
        · trivial
        · rename_i hmore
          obtain ⟨d, hd⟩ := Option.isSome_iff_exists.1 howned
          obtain ⟨hbackfill, howner⟩ := owned_eq_some hd
          obtain ⟨d', hd', rfl, -⟩ := hφ.2.1
          obtain rfl := Option.mem_unique hbackfill hd'
          have hafter : ((Cmd.checkpoint owner isComplete (skip + pageSize) pagesProcessed
              paymentsObserved).exec r s).backfill = some (d.checkpointed isComplete
                (skip + pageSize) pagesProcessed paymentsObserved r.now) := by
            unfold Cmd.exec
            rw [if_neg (Reply.ok.delivered hr)]
            dsimp only
            rw [hd]
            rfl
          refine ⟨lt_of_lt_of_le hφ.1 hext.owners, ⟨_, hafter, rfl, fun _ => rfl⟩, ?_⟩
          exact (hsound.doc _ hafter).covers
      · exact lt_of_lt_of_le hφ.1 hext.owners
  | failing owner =>
    obtain rfl := allows_failing hc
    trivial
  | observing o =>
    obtain rfl := allows_observing hc
    trivial

/-! ### Progress -/

/-- The document stays, with its time; its offset does not decrease, and it stays complete. -/
def Progresses (e : BackfillEvent) : Prop :=
  ∀ d, e.before.backfill = some d → ∃ d', e.after.backfill = some d' ∧ d'.asOf = d.asOf ∧
    d.nextSkip ≤ d'.nextSkip ∧ (d.status = .complete → d'.status = .complete)

theorem progresses_same (hsame : t.backfill = s.backfill) (c : Cmd) (r : Reply) :
    Progresses ⟨s, c, r, t⟩ :=
  fun d hd => ⟨d, hsame.trans hd, rfl, le_rfl, id⟩

theorem progresses_setBackfill
    (hfound : ∀ d, found = some d → s.backfill = some d ∧ (f d).asOf = d.asOf ∧
      d.nextSkip ≤ (f d).nextSkip ∧ (d.status = .complete → (f d).status = .complete)) (c : Cmd)
    (r : Reply) : Progresses ⟨s, c, r, s.setBackfill found f⟩ := by
  intro d hd
  cases found with
  | none => exact ⟨d, hd, rfl, le_rfl, id⟩
  | some d' =>
    obtain ⟨hd', hrest⟩ := hfound d' rfl
    obtain rfl := Option.mem_unique hd' hd
    exact ⟨f d', rfl, hrest⟩

/-- **Progress is not lost.** -/
theorem progresses_exec (h : Sound upper l s) (hφ : PhaseOk upper l s φ) (hc : Allows φ c) :
    Progresses ⟨s, c, r, c.exec r s⟩ := by
  unfold Cmd.exec
  split
  · exact progresses_same rfl c r
  · cases c with
    | findBackfill => exact progresses_same rfl _ r
    | fetchPage _ _ => exact progresses_same rfl _ r
    | entity _ => exact progresses_same rfl _ r
    | randomUUID =>
      exact progresses_same (t := { s with owners := s.owners + 1 }) rfl .randomUUID r
    | upsertPayment o =>
      exact progresses_same (t := { s with payments := s.payments.put o.row }) rfl
        (.upsertPayment o) r
    | amend p => exact progresses_same (t := s.amend p) rfl (.amend p) r
    | arrive p =>
      apply progresses_same
      dsimp only [Store.arrive]
      split <;> rfl
    | insertBackfill asOf =>
      intro d hd
      have hbefore : s.backfill = some d := hd
      refine ⟨d, ?_, rfl, le_rfl, id⟩
      simp [hbefore]
    | claim owner now =>
      apply progresses_setBackfill
      intro d hd
      obtain ⟨hbackfill, hclaimable⟩ := Option.filter_eq_some_iff.1 hd
      have hopen := of_decide_eq_true (Bool.and_eq_true_iff.1 hclaimable).1
      exact ⟨hbackfill, rfl, le_rfl, fun hstatus => absurd hstatus hopen⟩
    | checkpoint owner isComplete nextSkip pagesProcessed paymentsObserved =>
      apply progresses_setBackfill
      intro d hd
      obtain ⟨hbackfill, howner⟩ := owned_eq_some hd
      obtain ⟨asOf, skip, rfl, rfl⟩ := hc
      obtain ⟨-, ⟨d', hd', rfl, hskip⟩, -⟩ := hφ
      obtain rfl := Option.mem_unique hbackfill hd'
      refine ⟨hbackfill, rfl, ?_, fun hstatus => ?_⟩
      · rw [hskip howner]
        exact Nat.le_add_right _ _
      · have hreleased := (h.doc d hbackfill).released hstatus
        simp [howner] at hreleased
    | fail owner =>
      apply progresses_setBackfill
      intro d hd
      obtain ⟨hbackfill, howner⟩ := owned_eq_some hd
      refine ⟨hbackfill, rfl, le_rfl, fun hstatus => ?_⟩
      have hreleased := (h.doc d hbackfill).released hstatus
      simp [howner] at hreleased

/-! ### Runs -/

theorem owner_lt (h : PhaseOk upper l s φ) (howner : φ.owner? = some owner) : owner < s.owners := by
  cases φ with
  | idle => cases howner
  | observing _ => cases howner
  | drawn _ =>
    cases howner
    exact h
  | failing _ =>
    cases howner
    exact h
  | reading _ _ _ =>
    cases howner
    exact h.1
  | recording _ _ _ _ _ =>
    cases howner
    exact h.1

theorem next_owner (hc : Allows φ c) (h : (φ.next upper c r s).owner? = some owner) :
    φ.owner? = some owner ∨ owner = s.owners := by
  cases φ with
  | idle =>
    right
    cases c with
    | randomUUID =>
      unfold Phase.next at h
      dsimp only at h
      split at h
      · exact (Option.some.inj h).symm
      · cases h
    | entity id =>
      unfold Phase.next at h
      dsimp only at h
      split at h
      · split at h <;> cases h
      · cases h
    | _ => cases h
  | drawn o =>
    obtain ⟨now, rfl⟩ := allows_drawn hc
    unfold Phase.next at h
    dsimp only at h
    split at h
    · split at h
      · exact .inl h
      · cases h
    · cases h
  | reading o asOf skip =>
    obtain rfl := allows_reading hc
    unfold Phase.next received at h
    dsimp only at h
    split at h
    · split at h <;> exact .inl h
    · exact .inl h
  | recording o asOf skip rest isComplete =>
    left
    cases rest with
    | cons _ rest =>
      obtain rfl := allows_recording hc
      unfold Phase.next at h
      dsimp only at h
      split at h <;> exact h
    | nil =>
      obtain ⟨pagesProcessed, paymentsObserved, rfl⟩ := allows_recorded hc
      unfold Phase.next at h
      dsimp only at h
      split at h
      · split at h
        · cases h
        · exact h
      · exact h
  | failing o =>
    obtain rfl := allows_failing hc
    cases h
  | observing o =>
    obtain rfl := allows_observing hc
    cases h

/-- What every reachable state of a run has. -/
structure Inv (upper : UpperCase) (φs : List Phase) (l : List BackfillEvent) (s : Store) :
    Prop where
  sound : Sound upper l s
  phases : ∀ φ ∈ φs, PhaseOk upper l s φ
  owners : ∀ (i j : ℕ) (φ ψ : Phase), φs[i]? = some φ → φs[j]? = some ψ → ∀ owner,
    φ.owner? = some owner → ψ.owner? = some owner → i = j
  progress : ∀ e ∈ l, Progresses e

theorem inv_start : Inv upper [] [] Store.empty where
  sound :=
    { ids := List.nodup_nil
      rows := fun _ hrow => nomatch hrow
      listed := List.suffix_refl _
      kept := fun _ hp => nomatch hp
      doc := fun _ hd => nomatch hd }
  phases _ hφ := nomatch hφ
  owners _ _ _ _ hi := nomatch hi
  progress _ he := nomatch he

theorem inv_spawn {φs : List Phase} (h : Inv upper φs l s) : Inv upper (φs ++ [.idle]) l s where
  sound := h.sound
  phases := forall_snoc h.phases trivial
  owners i j φ ψ hi hj owner hφ hψ := by
    rcases getElem?_snoc_cases hi with hi | rfl
    · rcases getElem?_snoc_cases hj with hj | rfl
      · exact h.owners i j φ ψ hi hj owner hφ hψ
      · cases hψ
    · cases hφ
  progress := h.progress

theorem inv_step {φs : List Phase} (h : Inv upper φs l s) {i : ℕ} (hi : φs[i]? = some φ)
    (hc : Allows φ c) : Inv upper (φs.set i (φ.next upper c r s))
      (l ++ [⟨s, c, r, c.exec r s⟩]) (c.exec r s) := by
  have hφ := h.phases φ (List.mem_of_getElem? hi)
  have hl := List.subset_append_left l [(⟨s, c, r, c.exec r s⟩ : BackfillEvent)]
  have hext : Extends upper s (c.exec r s) := extends_exec h.sound hφ hc
  -- An owner that a run draws is nobody else's.
  have hnew : ∀ (j : ℕ) (ψ : Phase), j ≠ i → φs[j]? = some ψ → ∀ owner,
      (φ.next upper c r s).owner? = some owner → ψ.owner? ≠ some owner := by
    intro j ψ hne hj owner howner hψ
    rcases next_owner hc howner with hold | rfl
    · exact hne (h.owners j i ψ φ hj hi owner hψ hold)
    · exact lt_irrefl _ (owner_lt (h.phases ψ (List.mem_of_getElem? hj)) hψ)
  exact
    { sound := sound_exec h.sound hφ hc hl
      phases := by
        intro ψ hψ
        obtain ⟨j, hj⟩ := List.getElem?_of_mem hψ
        rcases getElem?_set_cases hj with ⟨-, rfl⟩ | ⟨hne, hj⟩
        · exact phaseOk_next h.sound hφ hc
        · apply phaseOk_other (h.phases ψ (List.mem_of_getElem? hj)) h.sound hext hl
          intro owner asOf skip howner hcur
          apply current_exec hcur
          intro hown
          exact hne (h.owners j i ψ φ hj hi owner howner (owner?_of_allows hc hown))
      owners := by
        intro j k ψ χ hj hk owner hψ hχ
        rcases getElem?_set_cases hj with ⟨hji, rfl⟩ | ⟨hne, hj'⟩
        · rcases getElem?_set_cases hk with ⟨hki, rfl⟩ | ⟨hne, hk'⟩
          · exact hji.trans hki.symm
          · exact absurd hχ (hnew k χ hne hk' owner hψ)
        · rcases getElem?_set_cases hk with ⟨-, rfl⟩ | ⟨-, hk'⟩
          · exact absurd hψ (hnew j ψ hne hj' owner hχ)
          · exact h.owners j k ψ χ hj' hk' owner hψ hχ
      progress := forall_snoc h.progress (progresses_exec h.sound hφ hc) }

/-- **The invariant holds in every run.** -/
theorem runBackfills_inv (upper : UpperCase) (ms : List (Move Request Reply)) :
    ∃ φs, Inv upper φs (runBackfills upper ms).log (runBackfills upper ms).store := by
  obtain ⟨φs, -, hinv⟩ := play_protocol (R := fun _ => True) (Inv upper)
    (fun _ => True) program_follows inv_start (fun φs l t q h => inv_spawn h)
    (fun φs l t i φ c r φ' h hi hδ _ => by
      obtain ⟨hc, rfl⟩ := Flow.guarded_eq_some hδ
      exact inv_step h hi hc)
    ms fun _ _ => trivial
  exact ⟨φs, hinv⟩

def HasOneRow (upper : UpperCase) (s : Store) (p : ProviderPayment) : Prop :=
  s.payments.rows.countP (fun row => row.paymentId == p.id) = 1 ∧
    ∀ row ∈ s.payments.rows, row.paymentId = p.id →
      row.amountSubunits = p.subunits ∧ row.currency = p.rowCurrency upper

theorem hasOneRow_of_recorded (h : Recorded upper s p) : HasOneRow upper s p := by
  obtain ⟨hmem, hid⟩ := Unique.mem_of_get h
  constructor
  · apply Unique.countP_eq_one hmem
    · exact beq_iff_eq.2 hid
    · intro row _ hrow
      rw [hid, beq_iff_eq.1 hrow]
  · intro row hrow hrowId
    have hget := Unique.get_of_mem hrow
    rw [hrowId] at hget
    rw [Option.mem_unique hget h]
    exact ⟨rfl, rfl⟩

def Passed (s : Store) (d : RazorpayProjectionBackfill) (p : ProviderPayment) : Prop :=
  keyOf p ∈ (s.keys d.asOf).take d.nextSkip

theorem Passed.not_ahead (h : Passed s d p) (hsound : Sound upper l s) :
    ¬Ahead s d.asOf d.nextSkip p := by
  have hnodup : (s.keys d.asOf).Nodup := by
    apply List.Nodup.filter
    apply List.Nodup.of_map Prod.fst
    rw [← ids_of_keys]
    exact hsound.ids
  exact fun hahead => List.disjoint_take_drop hnodup le_rfl h hahead

end Invariant

/-- **A completed backfill misses nothing, and its progress is kept.** -/
theorem backfill_misses_nothing (upper : UpperCase) (ms : List (Move Request Reply)) :
    (∀ d, (runBackfills upper ms).store.backfill = some d → d.status = .complete →
      ∀ p ∈ (runBackfills upper ms).store.begun, p.Valid upper → p.created_at * 1000 < d.asOf →
        HasOneRow upper (runBackfills upper ms).store p) ∧
    (∀ e ∈ (runBackfills upper ms).log, Progresses e) ∧
    ∀ d, (runBackfills upper ms).store.backfill = some d →
      ∀ p ∈ (runBackfills upper ms).store.begun, p.created_at * 1000 < d.asOf →
        Passed (runBackfills upper ms).store d p →
          Observed (runBackfills upper ms).log p ∧
            (p.Valid upper → HasOneRow upper (runBackfills upper ms).store p) := by
  obtain ⟨φs, hinv⟩ := runBackfills_inv upper ms
  have hrecorded : ∀ p : ProviderPayment, (Recorded upper (runBackfills upper ms).store p ∨
      ∃ o ∈ ([] : List CapturedPaymentObservation), o.row = p.row upper) →
        HasOneRow upper (runBackfills upper ms).store p :=
    fun p h => hasOneRow_of_recorded (h.resolve_right fun ⟨o, ho, _⟩ => nomatch ho)
  refine ⟨?_, hinv.progress, ?_⟩
  · intro d hd hstatus p hp hvalid hbefore
    obtain ⟨-, hrow⟩ := ((hinv.sound.doc d hd).complete hstatus p hp hbefore).resolve_right id
    exact hrecorded p (hrow hvalid)
  · intro d hd p hp hbefore hpassed
    obtain ⟨hobserved, hrow⟩ := ((hinv.sound.doc d hd).covers p hp hbefore).resolve_right
      (hpassed.not_ahead hinv.sound)
    exact ⟨hobserved, fun hvalid => hrecorded p (hrow hvalid)⟩

/-! ### A payment that comes late -/

theorem toUpper_spec (c : Char) : (isTrimmed c = true → c.toUpper = c) ∧
    (isTrimmed c = false → isTrimmed c.toUpper = false) ∧ c.toUpper.toUpper = c.toUpper := by
  by_cases h : 'a'.val ≤ c.val ∧ c.val ≤ 'z'.val
  · have hletters : ∀ n < 26, isTrimmed (Char.ofNat (97 + n)) = false ∧
        isTrimmed (Char.ofNat (97 + n)).toUpper = false ∧
        (Char.ofNat (97 + n)).toUpper.toUpper = (Char.ofNat (97 + n)).toUpper := by
      decide
    have hlow : 97 ≤ c.toNat := h.1
    have hhigh : c.toNat ≤ 122 := h.2
    have hspec := hletters (c.toNat - 97) (by omega)
    rw [Nat.add_sub_cancel' hlow, Char.ofNat_toNat] at hspec
    refine ⟨fun htrimmed => ?_, fun _ => hspec.2.1, hspec.2.2⟩
    simp [hspec.1] at htrimmed
  · have hsame : c.toUpper = c := dif_neg h
    simp [hsame]

def asciiUpper : UpperCase where
  char c := [c.toUpper]
  trimmed c hc := by rw [(toUpper_spec c).1 hc]
  kept c hc := ⟨List.cons_ne_nil _ _, fun d hd => by
    rw [List.mem_singleton.1 hd]
    exact (toUpper_spec c).2.1 hc⟩
  idem c d hd := by rw [List.mem_singleton.1 hd, (toUpper_spec c).2.2]

def latePayment : ProviderPayment :=
  ⟨['p'], .number 100, .string ['I', 'N', 'R'], .boolean true, 1000⟩

def lateMoves : List (Move Request Reply) :=
  [Move.spawn (Request.backfill 1000500 1)] ++
    List.replicate 5 (Move.step 0 ⟨true, true, 1000500⟩) ++
    [Move.spawn (Request.arrive latePayment), Move.step 1 ⟨true, true, 0⟩,
      Move.step 0 ⟨true, true, 1000900⟩]

/-- A payment that comes after the only page, of the second in which the backfill began, is passed
without having been on a page. -/
theorem late_payment_passed : ∃ d, (runBackfills asciiUpper lateMoves).store.backfill = some d ∧
    d.status = .complete ∧ latePayment ∈ (runBackfills asciiUpper lateMoves).store.provider ∧
      latePayment.Valid asciiUpper ∧ latePayment.created_at * 1000 < d.asOf ∧
        Passed (runBackfills asciiUpper lateMoves).store d latePayment ∧
          ¬Observed (runBackfills asciiUpper lateMoves).log latePayment := by
  have hprovider : (runBackfills asciiUpper lateMoves).store.provider = [latePayment] := rfl
  have hkeys : (runBackfills asciiUpper lateMoves).store.keys 1000500 = [keyOf latePayment] := by
    unfold Store.keys
    rw [hprovider]
    decide +kernel
  have hunseen : (runBackfills asciiUpper lateMoves).log.all
      (fun e => !sees latePayment e) = true := by
    decide +kernel
  refine ⟨⟨.complete, 1000500, 100, 1, 0, none, none⟩, by decide +kernel, rfl, ?_, ?_, by decide,
    ?_, ?_⟩
  · rw [hprovider]
    exact List.mem_singleton_self _
  · exact
      { id := List.cons_ne_nil _ _
        wellFormed := ⟨⟨100, by decide, rfl⟩, ⟨_, rfl⟩, ⟨_, rfl⟩⟩
        captured := rfl
        currency := by decide +kernel
        created_at := by decide }
  · unfold Passed
    rw [hkeys]
    exact List.mem_singleton_self _
  · rintro ⟨e, he, hsees⟩
    have h := List.all_eq_true.1 hunseen e he
    simp [hsees] at h

end VibemeetBackend.Collected
