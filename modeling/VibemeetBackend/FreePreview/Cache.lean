import VibemeetBackend.Async.Trace
import VibemeetBackend.FreePreview.Rows

/-!
# The cache of the visible previews

`getActivePreviewMoments` of `free-preview.service.ts` by any number of callers at once, on a list that
nobody changes.  A caller that misses the cache loads the visible rows, then computes how long they may
be kept, then writes the key; each reads the clock for itself.

The key holds the ids with the names and avatars of the creators, which are left out.
-/

namespace VibemeetBackend.FreePreview

open Async

def previewCacheTtlSec : ℤ := 300

/-- `Math.ceil(ms / 1000)`. -/
def ceilSeconds (ms : ℤ) : ℤ := -(-ms / 1000)

/-- The seconds from `now` to each boundary that is still to come. -/
def boundarySeconds (rows : List FreePreviewMoment) (now : ℤ) : List ℤ :=
  (((rows.filter fun row => row.enabled).flatMap fun row =>
      row.startsAt.toList ++ row.endsAt.toList).filter fun value => now < value).map fun value =>
    max 1 (ceilSeconds (value - now))

def calculatePreviewCacheTtlSec (rows : List FreePreviewMoment) (now : ℤ) : ℤ :=
  (boundarySeconds rows now).foldl min previewCacheTtlSec

structure PreviewList where
  rows : List FreePreviewMoment
  isPublic : String → Bool
  unique : (rows.map (·.momentId)).Nodup

namespace PreviewList

variable (L : PreviewList)

def visible (now : ℤ) : List String :=
  ((L.rows.filter fun row => isPreviewRowVisible row now).map (·.momentId)).filter L.isPublic

end PreviewList

structure CacheKey where
  momentIds : List String
  lastMs : ℤ

/-- How far a caller that missed the cache is. -/
inductive Caller
  | idle
  | missed
  | loaded (momentIds : List String)
  | computed (momentIds : List String) (ttlSec : ℤ)

structure State where
  cache : Option CacheKey
  callers : ℕ → Caller

structure Turn where
  caller : ℕ
  now : ℤ

namespace State

variable (s : State)

def start : State := ⟨none, fun _ => .idle⟩

/-- The ids under the key, unless it has run out. -/
def cached (now : ℤ) : Option (List String) :=
  (s.cache.filter fun key => now ≤ key.lastMs).map (·.momentIds)

def setCaller (i : ℕ) (c : Caller) : State :=
  { s with callers := fun j => if j = i then c else s.callers j }

end State

/-- One awaited step of `getActivePreviewMoments`. -/
def step (L : PreviewList) (s : State) (e : Turn) : State :=
  match s.callers e.caller with
  | .idle =>
    match s.cached e.now with
    | some _ => s
    | none => s.setCaller e.caller .missed
  | .missed => s.setCaller e.caller (.loaded (L.visible e.now))
  | .loaded momentIds =>
    s.setCaller e.caller (.computed momentIds (calculatePreviewCacheTtlSec L.rows e.now))
  | .computed momentIds ttlSec =>
    { s.setCaller e.caller .idle with cache := some ⟨momentIds, e.now + 1000 * ttlSec⟩ }

/-- What a call that begins gets from the cache; moments that are not public are filtered again. -/
def served (L : PreviewList) (e : State × Turn) : Option (List String) :=
  match e.1.callers e.2.caller with
  | .idle => (e.1.cached e.2.now).map fun momentIds => momentIds.filter L.isPublic
  | _ => none

def Timely (turns : List Turn) : Prop := turns.Pairwise fun e e' => e.now ≤ e'.now

def Exact (L : PreviewList) (turns : List Turn) : Prop :=
  ∀ e ∈ stepLog (step L) State.start turns, ∀ momentIds ∈ served L e,
    ∀ id, id ∈ momentIds ↔ id ∈ L.visible e.2.now

/-! ### The lifetime of the key -/

theorem one_le_foldl_min (xs : List ℤ) (x : ℤ) (h : 1 ≤ x) (hxs : ∀ y ∈ xs, 1 ≤ y) :
    1 ≤ xs.foldl min x := by
  induction xs generalizing x with
  | nil => exact h
  | cons y ys ih =>
    apply ih
    · exact le_min h (hxs y List.mem_cons_self)
    · intro z hz
      exact hxs z (List.mem_cons_of_mem y hz)

theorem one_le_ttlSec (rows : List FreePreviewMoment) (now : ℤ) :
    1 ≤ calculatePreviewCacheTtlSec rows now := by
  apply one_le_foldl_min
  · unfold previewCacheTtlSec
    omega
  · intro y hy
    obtain ⟨value, -, rfl⟩ := List.mem_map.1 hy
    exact le_max_left _ _

/-! ### Lists without a change -/

def Fixed (row : FreePreviewMoment) : Prop :=
  (row.startsAt = none ∧ row.endsAt = none) ∨
    ∃ startsAt ∈ row.startsAt, ∃ endsAt ∈ row.endsAt, endsAt < startsAt

theorem Fixed.visible_eq {row : FreePreviewMoment} (h : row.enabled = true → Fixed row) (t t' : ℤ) :
    isPreviewRowVisible row t = isPreviewRowVisible row t' := by
  cases henabled : row.enabled with
  | false =>
    simp [isPreviewRowVisible, henabled]
  | true =>
    obtain ⟨hstarts, hends⟩ | ⟨startsAt, hstarts, endsAt, hends, hlt⟩ := h henabled
    · simp [isPreviewRowVisible, hstarts, hends]
    · have hnever : ∀ now, isPreviewRowVisible row now = false := by
        intro now
        rw [Bool.eq_false_iff]
        intro hvisible
        obtain ⟨-, hstart, hend⟩ := isPreviewRowVisible_iff.1 hvisible
        have hafter := hstart startsAt hstarts
        have hbefore := hend endsAt hends
        omega
      rw [hnever, hnever]

variable {L : PreviewList}

def PreviewList.Fixed (L : PreviewList) : Prop :=
  ∀ row ∈ L.rows, row.enabled = true → L.isPublic row.momentId = true → FreePreview.Fixed row

theorem PreviewList.mem_visible {now : ℤ} {id : String} :
    id ∈ L.visible now ↔ ∃ row ∈ L.rows, row.momentId = id ∧ L.isPublic id = true ∧
      isPreviewRowVisible row now = true := by
  grind [visible]

theorem PreviewList.Fixed.visible_iff (h : L.Fixed) (t t' : ℤ) (id : String) :
    id ∈ L.visible t ↔ id ∈ L.visible t' := by
  rw [mem_visible, mem_visible]
  constructor
  · rintro ⟨row, hrow, hid, hpublic, hvisible⟩
    have hsame := FreePreview.Fixed.visible_eq
      (fun henabled => h row hrow henabled (hid ▸ hpublic)) t t'
    exact ⟨row, hrow, hid, hpublic, hsame ▸ hvisible⟩
  · rintro ⟨row, hrow, hid, hpublic, hvisible⟩
    have hsame := FreePreview.Fixed.visible_eq
      (fun henabled => h row hrow henabled (hid ▸ hpublic)) t t'
    exact ⟨row, hrow, hid, hpublic, hsame.symm ▸ hvisible⟩

def Holding (L : PreviewList) (momentIds : List String) : Prop :=
  ∀ now id, id ∈ momentIds ↔ id ∈ L.visible now

structure Right (L : PreviewList) (s : State) : Prop where
  cache : ∀ key ∈ s.cache, Holding L key.momentIds
  loaded : ∀ i momentIds, s.callers i = .loaded momentIds → Holding L momentIds
  computed : ∀ i momentIds ttlSec, s.callers i = .computed momentIds ttlSec → Holding L momentIds

theorem Right.start : Right L State.start := by
  refine ⟨?_, ?_, ?_⟩
  · intro key hkey
    cases hkey
  · intro i momentIds h
    cases h
  · intro i momentIds ttlSec h
    cases h

theorem Right.setCaller {s : State} (h : Right L s) {i : ℕ} {c : Caller}
    (hloaded : ∀ momentIds, c = .loaded momentIds → Holding L momentIds)
    (hcomputed : ∀ momentIds ttlSec, c = .computed momentIds ttlSec → Holding L momentIds) :
    Right L (s.setCaller i c) := by
  refine ⟨h.cache, ?_, ?_⟩
  · intro j momentIds hj
    by_cases hji : j = i
    · exact hloaded momentIds (by simpa [State.setCaller, hji] using hj)
    · exact h.loaded j momentIds (by simpa [State.setCaller, hji] using hj)
  · intro j momentIds ttlSec hj
    by_cases hji : j = i
    · exact hcomputed momentIds ttlSec (by simpa [State.setCaller, hji] using hj)
    · exact h.computed j momentIds ttlSec (by simpa [State.setCaller, hji] using hj)

/-- **One step** on a list that never changes. -/
theorem Right.step {s : State} (hfixed : L.Fixed) (h : Right L s) (e : Turn) :
    Right L (step L s e) := by
  unfold FreePreview.step
  split
  · split
    · exact h
    · apply h.setCaller
      · exact fun momentIds hc => nomatch hc
      · exact fun momentIds ttlSec hc => nomatch hc
  · apply h.setCaller
    · intro momentIds hc
      obtain rfl := Caller.loaded.inj hc
      intro now id
      exact hfixed.visible_iff e.now now id
    · exact fun momentIds ttlSec hc => nomatch hc
  · rename_i momentIds hloaded
    apply h.setCaller
    · exact fun momentIds hc => nomatch hc
    · intro momentIds' ttlSec hc
      obtain ⟨rfl, -⟩ := Caller.computed.inj hc
      exact h.loaded e.caller momentIds hloaded
  · rename_i momentIds ttlSec hcomputed
    have hidle : Right L (s.setCaller e.caller .idle) := by
      apply h.setCaller
      · exact fun momentIds hc => nomatch hc
      · exact fun momentIds ttlSec hc => nomatch hc
    refine ⟨?_, hidle.loaded, hidle.computed⟩
    intro key hkey
    cases hkey
    exact h.computed e.caller momentIds ttlSec hcomputed

theorem Right.served {s : State} (h : Right L s) (e : Turn) :
    ∀ momentIds ∈ served L (s, e), ∀ id, id ∈ momentIds ↔ id ∈ L.visible e.now := by
  intro momentIds hserved id
  unfold FreePreview.served at hserved
  split at hserved
  · obtain ⟨found, hcached, rfl⟩ := Option.map_eq_some_iff.1 hserved
    obtain ⟨key, hkey, rfl⟩ := Option.map_eq_some_iff.1 hcached
    have hholding := h.cache key (Option.filter_eq_some_iff.1 hkey).1 e.now id
    rw [List.mem_filter, hholding]
    constructor
    · exact fun hmem => hmem.1
    · intro hmem
      obtain ⟨row, -, -, hpublic, -⟩ := PreviewList.mem_visible.1 hmem
      exact ⟨hmem, hpublic⟩
  · cases hserved

/-! ### A fill just before a change -/

/-- A caller that fills the cache at one time. -/
def fill (now : ℤ) : List Turn := List.replicate 4 ⟨0, now⟩

theorem timely_fill {t t' : ℤ} (h : t ≤ t') : Timely (fill t ++ [⟨0, t'⟩]) := by
  unfold Timely fill
  simp [List.replicate, h]

theorem served_fill (L : PreviewList) (t t' : ℤ) (h : t' ≤ t + 1000) :
    ∃ e ∈ stepLog (step L) State.start (fill t ++ [⟨0, t'⟩]), e.2.now = t' ∧
      served L e = some ((L.visible t).filter L.isPublic) := by
  refine ⟨(runFrom (step L) State.start (fill t), ⟨0, t'⟩), ?_, rfl, ?_⟩
  · rw [stepLog_append]
    exact List.mem_concat_self
  · have hlast : t' ≤ t + 1000 * calculatePreviewCacheTtlSec L.rows t := by
      have httl := one_le_ttlSec L.rows t
      omega
    have hcached : (runFrom (step L) State.start (fill t)).cached t' = some (L.visible t) := by
      show (Option.filter _ (some (CacheKey.mk (L.visible t)
        (t + 1000 * calculatePreviewCacheTtlSec L.rows t)))).map _ = _
      simp [Option.filter_some, (decide_eq_true hlast)]
    show ((runFrom (step L) State.start (fill t)).cached t').map _ = _
    rw [hcached]
    rfl

theorem Exact.visible_eq (h : ∀ turns, Timely turns → Exact L turns) {row : FreePreviewMoment}
    (hrow : row ∈ L.rows) (hpublic : L.isPublic row.momentId = true) (t t' : ℤ) (hle : t ≤ t')
    (hnext : t' ≤ t + 1000) : isPreviewRowVisible row t = isPreviewRowVisible row t' := by
  obtain ⟨e, he, hnow, hserved⟩ := served_fill L t t' hnext
  have hexact := h _ (timely_fill hle) e he _ hserved row.momentId
  have hone : ∀ row' ∈ L.rows, row'.momentId = row.momentId → row' = row := fun row' hrow' hid =>
    List.inj_on_of_nodup_map L.unique hrow' hrow hid
  have hmem : ∀ now, row.momentId ∈ L.visible now ↔ isPreviewRowVisible row now = true := by
    grind [PreviewList.mem_visible]
  rw [List.mem_filter, hnow, hmem, hmem] at hexact
  rw [Bool.eq_iff_iff]
  exact (and_iff_left hpublic).symm.trans hexact

/-- **The cache is exact** on every schedule exactly for the lists in which no enabled preview of a
public moment ever comes or goes. -/
theorem preview_cache_exact_iff (L : PreviewList) :
    (∀ turns, Timely turns → Exact L turns) ↔ L.Fixed := by
  constructor
  · intro h row hrow henabled hpublic
    by_contra hchanges
    unfold FreePreview.Fixed at hchanges
    rw [not_or] at hchanges
    obtain ⟨hsome, hordered⟩ := hchanges
    have hopen : ∀ startsAt ∈ row.startsAt, ∀ endsAt ∈ row.endsAt, startsAt ≤ endsAt := by
      intro startsAt hstarts endsAt hends
      by_contra hlt
      exact hordered ⟨startsAt, hstarts, endsAt, hends, not_le.1 hlt⟩
    cases hstarts : row.startsAt with
    | some startsAt =>
      -- the cache is filled a millisecond before the start
      have hsame := Exact.visible_eq h hrow hpublic (startsAt - 1) startsAt (by omega) (by omega)
      have hon : isPreviewRowVisible row startsAt = true := by
        rw [isPreviewRowVisible_iff, hstarts]
        refine ⟨henabled, ?_, hopen startsAt hstarts⟩
        intro other hother
        cases hother
        exact le_rfl
      rw [hon, isPreviewRowVisible_iff] at hsame
      have hbefore := hsame.2.1 startsAt hstarts
      omega
    | none =>
      cases hends : row.endsAt with
      | none => exact hsome ⟨hstarts, hends⟩
      | some endsAt =>
        -- the cache is filled in the last millisecond
        have hsame := Exact.visible_eq h hrow hpublic endsAt (endsAt + 1) (by omega) (by omega)
        have hon : isPreviewRowVisible row endsAt = true := by
          rw [isPreviewRowVisible_iff, hstarts, hends]
          refine ⟨henabled, fun other hother => (nomatch hother), ?_⟩
          intro other hother
          cases hother
          exact le_rfl
        rw [hon] at hsame
        have hafter := (isPreviewRowVisible_iff.1 hsame.symm).2.2 endsAt hends
        omega
  · intro hfixed turns _ e he
    have hright : Right L e.1 :=
      trace_invariant (G := fun _ => True) Right.start (fun s i hs _ => hs.step hfixed i)
        (fun _ _ => trivial) e he
    exact hright.served e.2

def upcoming : PreviewList where
  rows := [⟨"moment", 0, true, some 500, none⟩]
  isPublic := fun _ => true
  unique := by decide

theorem preview_cache_outlives_start :
    Timely (fill 0 ++ [⟨0, 700⟩]) ∧ ¬Exact upcoming (fill 0 ++ [⟨0, 700⟩]) := by
  constructor
  · exact timely_fill (by norm_num)
  · intro h
    obtain ⟨e, he, hnow, hserved⟩ := served_fill upcoming 0 700 (by norm_num)
    have hexact := h e he _ hserved "moment"
    rw [hnow] at hexact
    revert hexact
    decide +kernel

end VibemeetBackend.FreePreview
