import VibemeetBackend.FreePreview.Service

/-!
# The limit, the version and the order of the free previews

Whole runs of changes by any administrators, with answers that are lost and requests that stop for good
anywhere, while time passes.
-/

namespace VibemeetBackend.FreePreview

open Async Flow

/-! ### Orders -/

def InOrder (momentIds : List String) (rows : List FreePreviewMoment) : Prop :=
  momentIds.Pairwise fun a b => ∀ row ∈ rows, ∀ row' ∈ rows, row.momentId = a → row'.momentId = b →
    row.order < row'.order

def ListedOnce (momentIds : List String) (rows : List FreePreviewMoment) : Prop :=
  (momentIds.filter fun id => rows.any fun row => row.momentId == id).Nodup

instance (momentIds : List String) (rows : List FreePreviewMoment) :
    Decidable (ListedOnce momentIds rows) := inferInstanceAs (Decidable (List.Nodup _))

variable (f : FreePreviewMoment → FreePreviewMoment)

section orders

variable {rows : List FreePreviewMoment} {row : FreePreviewMoment} {momentIds : List String}
  {momentId : String} {i : ℕ}

theorem mem_setRow (hf : ∀ row, (f row).momentId = row.momentId) :
    row ∈ setRow momentId f rows ↔
      (row ∈ rows ∧ row.momentId ≠ momentId) ∨
        (row.momentId = momentId ∧ ∃ row' ∈ rows, row'.momentId = momentId ∧ f row' = row) := by
  grind [setRow]

theorem map_setRow (hf : ∀ row, (f row).momentId = row.momentId) :
    (setRow momentId f rows).map (·.momentId) = rows.map (·.momentId) := by
  unfold setRow
  rw [List.map_map]
  apply List.map_congr_left
  intro row _
  show (if row.momentId = momentId then f row else row).momentId = row.momentId
  split
  · exact hf row
  · rfl

theorem map_assignOrders :
    (assignOrders i momentIds rows).map (·.momentId) = rows.map (·.momentId) := by
  induction momentIds generalizing i rows with
  | nil => rfl
  | cons id ids ih =>
    unfold assignOrders
    rw [ih]
    exact map_setRow (withOrder i) fun _ => rfl

theorem any_iff_mem_map {id : String} :
    (rows.any fun row => row.momentId == id) = true ↔ id ∈ rows.map (·.momentId) := by
  simp [List.any_eq_true]

theorem listedOnce_congr {rows' : List FreePreviewMoment}
    (h : rows'.map (·.momentId) = rows.map (·.momentId)) :
    ListedOnce momentIds rows' ↔ ListedOnce momentIds rows := by
  have hany : ∀ id, (rows'.any fun row => row.momentId == id) =
      rows.any fun row => row.momentId == id := by
    intro id
    rw [Bool.eq_iff_iff, any_iff_mem_map, any_iff_mem_map, h]
  unfold ListedOnce
  simp only [hany]

theorem mem_assignOrders (h : row ∈ assignOrders i momentIds rows) :
    (row.momentId ∉ momentIds → row ∈ rows) ∧ (row.momentId ∈ momentIds → i ≤ row.order) := by
  induction momentIds generalizing i rows with
  | nil => exact ⟨fun _ => h, fun hmem => nomatch hmem⟩
  | cons id ids ih =>
    obtain ⟨hunlisted, hlisted⟩ := ih h
    constructor
    · intro hmem
      obtain ⟨hid, hids⟩ := not_or.1 (List.mem_cons.not.1 hmem)
      obtain ⟨hrow, -⟩ | ⟨hsame, -⟩ := (mem_setRow (withOrder i) fun _ => rfl).1 (hunlisted hids)
      · exact hrow
      · exact absurd hsame hid
    · intro hmem
      by_cases hids : row.momentId ∈ ids
      · have hle := hlisted hids
        push_cast at hle
        omega
      · -- the row has the order that it was just given
        obtain ⟨-, hid⟩ | ⟨-, row', -, -, rfl⟩ := (mem_setRow (withOrder i) fun _ => rfl).1 (hunlisted hids)
        · obtain hsame | hmem' := List.mem_cons.1 hmem
          · exact absurd hsame hid
          · exact absurd hmem' hids
        · exact le_rfl

/-- **The order after a reorder.** -/
theorem assignOrders_inOrder (h : ListedOnce momentIds rows) :
    InOrder momentIds (assignOrders i momentIds rows) := by
  induction momentIds generalizing i rows with
  | nil => exact List.Pairwise.nil
  | cons id ids ih =>
    have hmap : (setRow id (withOrder i) rows).map (·.momentId) = rows.map (·.momentId) :=
      map_setRow (withOrder i) fun _ => rfl
    have hrest : ListedOnce ids rows := by
      grind [ListedOnce]
    refine List.pairwise_cons.2 ⟨?_, ih ((listedOnce_congr hmap).2 hrest)⟩
    intro id' hid' row hrow row' hrow' hrowId hrowId'
    unfold assignOrders at hrow hrow'
    have hfirst : row.momentId ∉ ids := by
      intro hmem
      have hthere : id ∈ rows.map (·.momentId) := by
        have hafter := List.mem_map_of_mem (f := fun row => row.momentId) hrow
        rw [map_assignOrders, hmap] at hafter
        rwa [hrowId] at hafter
      unfold ListedOnce at h
      rw [List.filter_cons, if_pos (any_iff_mem_map.2 hthere), List.nodup_cons] at h
      apply h.1
      rw [hrowId] at hmem
      exact List.mem_filter.2 ⟨hmem, any_iff_mem_map.2 hthere⟩
    have horder : row.order = i := by
      obtain ⟨-, hne⟩ | ⟨-, row₀, -, -, rfl⟩ :=
        (mem_setRow (withOrder i) fun _ => rfl).1 ((mem_assignOrders hrow).1 hfirst)
      · exact absurd hrowId hne
      · rfl
    have hlater : ((i + 1 : ℕ) : ℤ) ≤ row'.order := by
      apply (mem_assignOrders hrow').2
      rw [hrowId']
      exact hid'
    push_cast at hlater
    omega

end orders

/-! ### Live rows -/

section live

variable {rows : List FreePreviewMoment} {row : FreePreviewMoment} {momentId : String} {now : ℤ}
  {limit : ℕ}

theorem isLive_of_visible {t : ℤ} (h : isPreviewRowVisible row t = true) (hle : now ≤ t) :
    isLive row now = true := by
  obtain ⟨henabled, -, hends⟩ := isPreviewRowVisible_iff.1 h
  unfold isLive
  rw [henabled]
  cases hend : row.endsAt with
  | none => rfl
  | some endsAt =>
    have hbefore := hends endsAt hend
    have hnot : decide (endsAt < now) = false := decide_eq_false (by omega)
    simp [hnot]

theorem isLive_of_later {t : ℤ} (h : isLive row t = true) (hle : now ≤ t) :
    isLive row now = true := by
  unfold isLive at h ⊢
  cases hend : row.endsAt with
  | none =>
    rw [hend] at h
    exact h
  | some endsAt =>
    rw [hend] at h
    simp only [Option.any_some, Bool.and_eq_true, Bool.not_eq_true', decide_eq_false_iff_not,
      not_lt] at h ⊢
    exact ⟨h.1, hle.trans h.2⟩

theorem live_later {t : ℤ} (hle : now ≤ t) :
    (rows.countP fun row => isLive row t) ≤ rows.countP fun row => isLive row now :=
  List.countP_mono_left fun _ _ h => isLive_of_later h hle

theorem live_split (P : FreePreviewMoment → Bool) :
    rows.countP P = (rows.filter fun row => row.momentId != momentId).countP P +
      (rows.filter fun row => row.momentId == momentId).countP P := by
  induction rows with
  | nil => rfl
  | cons row rows ih =>
    by_cases hid : row.momentId = momentId
    · simp only [List.filter_cons, hid, bne_self_eq_false, beq_self_eq_true, if_true,
        Bool.false_eq_true, if_false, List.countP_cons, ih]
      omega
    · simp only [List.filter_cons, bne_iff_ne.2 hid, beq_eq_false_iff_ne.2 hid, if_true,
        Bool.false_eq_true, if_false, List.countP_cons, ih]
      omega

theorem countP_setRow (P : FreePreviewMoment → Bool) :
    (setRow momentId f rows).countP P =
      (rows.filter fun row => row.momentId != momentId).countP P +
        ((rows.filter fun row => row.momentId == momentId).map f).countP P := by
  induction rows with
  | nil => rfl
  | cons row rows ih =>
    have hcons : setRow momentId f (row :: rows) =
        (if row.momentId = momentId then f row else row) :: setRow momentId f rows := rfl
    rw [hcons, List.countP_cons, ih]
    by_cases hid : row.momentId = momentId
    · simp only [List.filter_cons, hid, bne_self_eq_false, beq_self_eq_true, if_true,
        Bool.false_eq_true, if_false, List.map_cons, List.countP_cons]
      omega
    · simp only [List.filter_cons, bne_iff_ne.2 hid, beq_eq_false_iff_ne.2 hid, if_true,
        if_neg hid, Bool.false_eq_true, if_false, List.countP_cons]
      omega

theorem filter_unique (hunique : (rows.map (·.momentId)).Nodup) (momentId : String) :
    (rows.filter fun row => row.momentId == momentId) = [] ∨
      ∃ row ∈ rows, row.momentId = momentId ∧
        (rows.filter fun row => row.momentId == momentId) = [row] := by
  have hlength : (rows.filter fun row => row.momentId == momentId).length ≤ 1 := by
    have hcount := List.nodup_iff_count_le_one.1 hunique momentId
    unfold List.count at hcount
    rw [List.countP_map, List.countP_eq_length_filter] at hcount
    exact hcount
  cases hfound : rows.filter fun row => row.momentId == momentId with
  | nil => exact .inl rfl
  | cons row others =>
    rw [hfound, List.length_cons] at hlength
    obtain rfl := List.eq_nil_of_length_eq_zero (by omega : others.length = 0)
    have hrow : row ∈ rows.filter fun row => row.momentId == momentId := by
      simp [hfound]
    obtain ⟨hmem, hid⟩ := List.mem_filter.1 hrow
    exact .inr ⟨row, hmem, beq_iff_eq.1 hid, rfl⟩

/-- **A row that is changed** is not live then, or was before, or finds room. -/
theorem live_setRow {f : FreePreviewMoment → FreePreviewMoment}
    (hunique : (rows.map (·.momentId)).Nodup)
    (hlimit : (rows.countP fun row => isLive row now) ≤ limit)
    (hroom : ∀ row ∈ rows, row.momentId = momentId → isLive (f row) now = true →
      isLive row now = true ∨ countOthers rows momentId now < limit) :
    ((setRow momentId f rows).countP fun row => isLive row now) ≤ limit := by
  have hsplit : rows.countP (fun row => isLive row now) =
      (rows.filter fun row => row.momentId != momentId).countP (fun row => isLive row now) +
        (rows.filter fun row => row.momentId == momentId).countP fun row => isLive row now :=
    live_split _
  rw [countP_setRow]
  unfold countOthers at hroom
  obtain hnone | ⟨row, hrow, hid, hone⟩ := filter_unique hunique momentId
  · rw [hnone] at hsplit ⊢
    simp only [List.map_nil, List.countP_nil] at hsplit ⊢
    omega
  · rw [hone] at hsplit ⊢
    simp only [List.map_cons, List.map_nil, List.countP_singleton] at hsplit ⊢
    have hcase := hroom row hrow hid
    cases hlive : isLive (f row) now with
    | false =>
      simp only [Bool.false_eq_true, if_false]
      omega
    | true =>
      obtain hbefore | hfew := hcase hlive
      · rw [hbefore] at hsplit
        omega
      · simp only [if_true]
        omega

/-- **A row that is added** finds room, or is not live. -/
theorem live_upsert (hunique : (rows.map (·.momentId)).Nodup)
    (hlimit : (rows.countP fun row => isLive row now) ≤ limit)
    (hroom : isLive row now = true → countOthers rows row.momentId now < limit) :
    ((upsert row rows).countP fun row => isLive row now) ≤ limit := by
  unfold upsert
  split
  · exact live_setRow hunique hlimit fun _ _ _ hlive => .inr (hroom hlive)
  · rename_i hnew
    have hothers : countOthers rows row.momentId now = rows.countP fun row => isLive row now := by
      simp_all [countOthers, List.filter_eq_self.2]
    rw [List.countP_append, List.countP_singleton]
    cases hlive : isLive row now with
    | false =>
      simp only [Bool.false_eq_true, if_false]
      omega
    | true =>
      have hfew := hroom hlive
      simp only [if_true]
      omega

theorem live_assignOrders (momentIds : List String) (i : ℕ) (rows : List FreePreviewMoment) :
    ((assignOrders i momentIds rows).countP fun row => isLive row now) =
      rows.countP fun row => isLive row now := by
  induction momentIds generalizing i rows with
  | nil => rfl
  | cons id ids ih =>
    unfold assignOrders
    rw [ih]
    unfold setRow
    rw [List.countP_map]
    congr 1
    funext row
    show isLive (if row.momentId = id then withOrder i row else row) now = isLive row now
    split <;> rfl

end live

/-! ### What a run keeps to -/

/-- What a reorder has read: the version, and the history of the list at that time. -/
structure Reading where
  version : ℕ
  changes : ℕ
  countedAt : ℕ

/-- What a request knows: the time, how many live rows of other moments it counted at that time, or
what it has read. -/
inductive Phase where
  | start
  | timed (now : ℤ)
  | counted (others : ℕ)
  | read (reading : Reading)

namespace Phase

def reading : Phase → Option Reading
  | read reading => some reading
  | _ => none

def others : Phase → Option ℕ
  | counted others => some others
  | _ => none

def next (φ : Phase) (c : Cmd) (r : Reply) (s : Store) : Phase :=
  match c, φ with
  | .clock, _ => timed (s.later r).now
  | .countOthers momentId, timed now =>
    if r.ok then counted (FreePreview.countOthers s.rows momentId now) else φ
  | .getListVersion, _ =>
    if r.ok then read ⟨s.listVersion, s.changes, s.countedAt s.listVersion⟩ else φ
  | _, _ => φ

end Phase

def Permits (limit : ℕ) (φ : Phase) : Cmd → Prop
  | .upsert _ => ∃ others ∈ φ.others, others < limit
  | .reorder _ expectedVersion => ∃ reading ∈ φ.reading, reading.version = expectedVersion
  | _ => True

def timeOf (e : Event Cmd Reply Store) : ℤ := (e.before.later e.ans).now

/-- A row that is added live finds no more live rows of other moments than were counted, or room all
the same, and a row that is made live finds room.  A reorder lists no row twice; when it read the
version every change was counted, and the list has not changed since. -/
def Sound (limit : ℕ) (x : Phase × Event Cmd Reply Store) : Prop :=
  x.2.ans.runs = true →
    match x.2.cmd with
    | .upsert row => isLive row (timeOf x.2) = true →
        (∃ others ∈ x.1.others,
          countOthers x.2.before.rows row.momentId (timeOf x.2) ≤ others) ∨
        countOthers x.2.before.rows row.momentId (timeOf x.2) < limit
    | .update momentId patch => ∀ row ∈ x.2.before.rows, row.momentId = momentId →
        isLive (patch.apply row) (timeOf x.2) = true →
          isLive row (timeOf x.2) = true ∨ countOthers x.2.before.rows momentId (timeOf x.2) < limit
    | .reorder orderedMomentIds _ => ListedOnce orderedMomentIds x.2.before.rows ∧
        ∀ reading ∈ x.1.reading, reading.changes = reading.countedAt ∧
          x.2.before.changes = reading.changes
    | _ => True

instance (limit : ℕ) : DecidablePred (Sound limit) := fun x => by
  unfold Sound
  cases x.2.cmd <;> infer_instance

def WithinLimit (limit : ℕ) (s : Store) : Prop :=
  ∀ t, s.now ≤ t → (s.rows.countP fun row => isPreviewRowVisible row t) ≤ limit

/-- A reorder finds the list as it was when the version that it expects was reached. -/
def Current (e : Event Cmd Reply Store) : Prop :=
  match e.cmd with
  | .reorder _ expectedVersion => e.ans.runs = true →
      expectedVersion ≤ e.before.listVersion ∧
        e.before.changes = e.before.countedAt expectedVersion
  | _ => True

/-- The moments that a reorder lists stand in its order. -/
def Ordered (e : Event Cmd Reply Store) : Prop :=
  match e.cmd with
  | .reorder orderedMomentIds _ => e.ans.runs = true → InOrder orderedMomentIds e.after.rows
  | _ => True

/-- A reorder that expects a version and changes the list. -/
def takesEffect (v : ℕ) (e : Event Cmd Reply Store) : Bool :=
  match e.cmd with
  | .reorder _ expectedVersion => expectedVersion == v && e.after.rows != e.before.rows
  | _ => false

/-! ### The service follows the protocol -/

section protocol

variable {φ : Phase} {α : Type} {limit : ℕ}

abbrev Reads (limit : ℕ) (φ : Phase) (p : PreviewFlow α) : Prop :=
  Follows (guarded (Permits limit) Phase.next) φ p (fun _ _ => True) fun _ _ => True

theorem reads_run {c : Cmd} {f : Reply × Store → PreviewFlow α} (hc : Permits limit φ c)
    (h : ∀ r s, r.ok = true → Reads limit (φ.next c r s) (f (r, s))) : Reads limit φ (run c >>= f) :=
  follows_guarded_bind hc (fun _ _ => trivial) h

theorem incrementListVersion_reads : Reads limit φ incrementListVersion := by
  apply reads_run
  · trivial
  · exact fun _ _ _ => trivial

variable (cfg : MomentsConfig)

theorem addPreview_reads (momentId : String) (opts : AddOptions) :
    Reads cfg.freePreviewLimit .start (addPreview cfg momentId opts) := by
  unfold addPreview
  split
  · trivial
  apply reads_run (c := .findMoment momentId) trivial
  intro r s _
  dsimp only
  split
  · trivial
  apply follows_bind
  apply follows_guarded_bind trivial fun _ _ => trivial
  intro r s _
  apply reads_run (c := .countOthers momentId) trivial
  intro r' t hr
  dsimp only
  split
  · trivial
  · rename_i hfew
    apply reads_run (c := .findMaxOrder) trivial
    intro _ u _
    apply reads_run
    · simp only [Permits, Phase.next, hr, if_true, Phase.others, Option.mem_def, Option.some.injEq,
        exists_eq_left']
      exact Nat.lt_of_not_le hfew
    · exact fun _ _ _ => incrementListVersion_reads

theorem reorderPreviews_reads (orderedMomentIds : List String) (expectedVersion : ℕ) :
    Reads limit .start (reorderPreviews cfg orderedMomentIds expectedVersion) := by
  apply reads_run (c := .getListVersion)
  · trivial
  intro r s hr
  dsimp only
  split
  · trivial
  simp_all [Phase.next, Phase.reading, run, Permits, incrementListVersion]

theorem program_reads (q : Request) :
    (program cfg q).Follows (guarded (Permits cfg.freePreviewLimit) Phase.next) .start
      fun _ _ => True := by
  cases q with
  | add momentId opts => exact (addPreview_reads cfg momentId opts).run
  | remove momentId =>
    have hremove : Reads cfg.freePreviewLimit .start (removePreview momentId) := by
      simp [incrementListVersion_reads, Permits, run, removePreview]
    exact hremove.run
  | update momentId patch =>
    have hupdate : Reads cfg.freePreviewLimit .start
        (updatePreviewSchedule momentId patch) := by
      simp [incrementListVersion_reads, Permits, run, updatePreviewSchedule]
    exact hupdate.run
  | reorder orderedMomentIds expectedVersion =>
    exact (reorderPreviews_reads cfg orderedMomentIds expectedVersion).run

end protocol

/-! ### Steps -/

section steps

variable {s : Store} {c : Cmd} {r : Reply} {φ : Phase} {limit : ℕ}

@[simp] theorem setRows_rows (s : Store) (rows : List FreePreviewMoment) :
    (s.setRows rows).rows = rows := by
  unfold Store.setRows
  split
  · rename_i h
    exact h.symm
  · rfl

@[simp] theorem setRows_now (s : Store) (rows : List FreePreviewMoment) :
    (s.setRows rows).now = s.now := by
  unfold Store.setRows
  split <;> rfl

theorem exec_now (c : Cmd) (r : Reply) (s : Store) : (c.exec r s).now = (s.later r).now := by
  unfold Cmd.exec
  split
  · cases c with
    | incrementListVersion => rfl
    | _ => exact setRows_now _ _
  · rfl

theorem now_le_later (r : Reply) (s : Store) : s.now ≤ (s.later r).now :=
  le_add_of_nonneg_right (Int.natCast_nonneg _)

theorem exec_rows (c : Cmd) (r : Reply) (s : Store) :
    (c.exec r s).rows = if r.runs = true then c.rows s.rows else s.rows := by
  unfold Cmd.exec
  split
  · cases c with
    | incrementListVersion => rfl
    | _ => exact setRows_rows _ _
  · rfl

theorem exec_changes (c : Cmd) (r : Reply) (s : Store) :
    s.changes ≤ (c.exec r s).changes ∧
      ((c.exec r s).rows ≠ s.rows → s.changes < (c.exec r s).changes) := by
  have hset : ∀ rows, s.changes ≤ ((s.later r).setRows rows).changes ∧
      (((s.later r).setRows rows).rows ≠ s.rows →
        s.changes < ((s.later r).setRows rows).changes) := by
    intro rows
    unfold Store.setRows
    split
    · exact ⟨le_rfl, fun hne => absurd rfl hne⟩
    · exact ⟨Nat.le_succ _, fun _ => Nat.lt_succ_self _⟩
  unfold Cmd.exec
  split
  · cases c with
    | incrementListVersion => exact ⟨le_rfl, fun hne => absurd rfl hne⟩
    | _ => exact hset _
  · exact ⟨le_rfl, fun hne => absurd rfl hne⟩

theorem exec_version (c : Cmd) (r : Reply) (s : Store) {v : ℕ} (hv : v ≤ s.listVersion) :
    v ≤ (c.exec r s).listVersion ∧ (c.exec r s).countedAt v = s.countedAt v := by
  have hset : ∀ rows, v ≤ ((s.later r).setRows rows).listVersion ∧
      ((s.later r).setRows rows).countedAt v = s.countedAt v := by
    intro rows
    unfold Store.setRows
    split
    · exact ⟨hv, rfl⟩
    · exact ⟨hv, rfl⟩
  unfold Cmd.exec
  split
  · cases c with
    | incrementListVersion =>
      refine ⟨Nat.le_succ_of_le hv, ?_⟩
      show (if v = s.listVersion + 1 then _ else _) = _
      rw [if_neg (by omega)]
      rfl
    | _ => exact hset _
  · exact ⟨hv, rfl⟩

/-- **The live rows** after a sound command. -/
theorem live_step (hunique : (s.rows.map (·.momentId)).Nodup)
    (hlimit : (s.rows.countP fun row => isLive row s.now) ≤ limit) (hA : Permits limit φ c)
    (hsound : Sound limit (φ, ⟨s, c, r, c.exec r s⟩)) :
    ((c.exec r s).rows.countP fun row => isLive row (c.exec r s).now) ≤ limit := by
  have hlater : (s.rows.countP fun row => isLive row (s.later r).now) ≤ limit :=
    (live_later (now_le_later r s)).trans hlimit
  rw [exec_now, exec_rows]
  split
  · rename_i hruns
    have hroom := hsound hruns
    cases c with
    | upsert row =>
      apply live_upsert hunique hlater
      intro hlive
      obtain ⟨others, hothers, hfew⟩ := hA
      obtain ⟨others', hothers', hle⟩ | hroom := hroom hlive
      · obtain rfl := Option.mem_unique hothers hothers'
        exact lt_of_le_of_lt hle hfew
      · exact hroom
    | update momentId patch => exact live_setRow hunique hlater hroom
    | delete momentId => exact (List.Sublist.countP_le List.filter_sublist).trans hlater
    | reorder orderedMomentIds expectedVersion =>
      show ((assignOrders 0 orderedMomentIds s.rows).countP _) ≤ limit
      rw [live_assignOrders]
      exact hlater
    | clock | findMoment | countOthers | findMaxOrder | getListVersion | incrementListVersion =>
      exact hlater
  · exact hlater

theorem unique_step (hunique : (s.rows.map (·.momentId)).Nodup) :
    ((c.exec r s).rows.map (·.momentId)).Nodup := by
  rw [exec_rows]
  split
  · cases c with
    | upsert row =>
      show ((upsert row s.rows).map (·.momentId)).Nodup
      unfold upsert
      split
      · rename_i hany
        have hmap : (setRow row.momentId (fun _ => row) s.rows).map (·.momentId) =
            s.rows.map (·.momentId) := by
          unfold setRow
          rw [List.map_map]
          apply List.map_congr_left
          intro row' _
          show (if row'.momentId = row.momentId then row else row').momentId = row'.momentId
          split
          · rename_i hid
            exact hid.symm
          · rfl
        rw [hmap]
        exact hunique
      · rename_i hnew
        rw [List.map_append, List.nodup_append]
        refine ⟨hunique, List.nodup_singleton _, ?_⟩
        intro id hid id' hid' hsame
        obtain rfl := List.mem_singleton.1 hid'
        rw [hsame] at hid
        exact hnew (any_iff_mem_map.2 hid)
    | update momentId patch =>
      show ((setRow momentId patch.apply s.rows).map (·.momentId)).Nodup
      rw [map_setRow patch.apply fun _ => rfl]
      exact hunique
    | delete momentId => exact hunique.sublist (List.filter_sublist.map _)
    | reorder orderedMomentIds expectedVersion =>
      show ((assignOrders 0 orderedMomentIds s.rows).map (·.momentId)).Nodup
      rw [map_assignOrders]
      exact hunique
    | clock | findMoment | countOthers | findMaxOrder | getListVersion | incrementListVersion =>
      exact hunique
  · exact hunique

/-- What a reorder has read stays true of its version. -/
def Known (s : Store) (φ : Phase) : Prop :=
  ∀ reading ∈ φ.reading, reading.version ≤ s.listVersion ∧
    s.countedAt reading.version = reading.countedAt

theorem Known.exec (h : Known s φ) (c : Cmd) (r : Reply) : Known (c.exec r s) φ := by
  intro reading hreading
  obtain ⟨hle, hcounted⟩ := h reading hreading
  obtain ⟨hle', hcounted'⟩ := exec_version c r s hle
  exact ⟨hle', hcounted'.trans hcounted⟩

theorem Known.next (h : Known s φ) (c : Cmd) (r : Reply) : Known (c.exec r s) (φ.next c r s) := by
  cases c with
  | getListVersion =>
    show Known _ (if r.ok = true then _ else _)
    split
    · intro reading hreading
      cases hreading
      exact exec_version .getListVersion r s le_rfl
    · exact h.exec _ r
  | clock =>
    intro reading hreading
    cases hreading
  | countOthers momentId =>
    cases φ with
    | timed now =>
      show Known _ (if r.ok = true then _ else _)
      split <;> exact fun reading hreading => absurd hreading (by simp [Phase.reading])
    | _ => exact h.exec _ r
  | _ => exact h.exec _ r

theorem current_step (hknown : Known s φ) (hA : Permits limit φ c)
    (hsound : Sound limit (φ, ⟨s, c, r, c.exec r s⟩)) : Current ⟨s, c, r, c.exec r s⟩ := by
  cases c with
  | reorder orderedMomentIds expectedVersion =>
    intro hruns
    obtain ⟨reading, hreading, rfl⟩ := hA
    obtain ⟨-, hsame⟩ := hsound hruns
    obtain ⟨hcounted, hunchanged⟩ := hsame reading hreading
    obtain ⟨hle, hat⟩ := hknown reading hreading
    refine ⟨hle, ?_⟩
    show s.changes = s.countedAt reading.version
    rw [hat, ← hcounted]
    exact hunchanged
  | _ => trivial

theorem ordered_step (hsound : Sound limit (φ, ⟨s, c, r, c.exec r s⟩)) :
    Ordered ⟨s, c, r, c.exec r s⟩ := by
  cases c with
  | reorder orderedMomentIds expectedVersion =>
    intro hruns
    obtain ⟨honce, -⟩ := hsound hruns
    show InOrder orderedMomentIds ((Cmd.reorder orderedMomentIds expectedVersion).exec r s).rows
    rw [exec_rows, if_pos hruns]
    exact assignOrders_inOrder honce
  | _ => trivial

end steps

/-! ### Runs -/

abbrev PreviewLog : Type := List (Phase × Event Cmd Reply Store)

/-- How many reorders of a version have taken effect. -/
def effects (l : PreviewLog) (v : ℕ) : ℕ := l.countP fun x => takesEffect v x.2

structure Keeping (limit : ℕ) (φs : List Phase) (l : PreviewLog) (s : Store) : Prop where
  unique : (s.rows.map (·.momentId)).Nodup
  live : (s.rows.countP fun row => isLive row s.now) ≤ limit
  known : ∀ φ ∈ φs, Known s φ
  current : ∀ x ∈ l, Current x.2
  ordered : ∀ x ∈ l, Ordered x.2
  once : ∀ v, effects l v ≤ 1
  changed : ∀ v, 0 < effects l v → v ≤ s.listVersion ∧ s.countedAt v < s.changes

theorem effects_snoc (l : PreviewLog) (x : Phase × Event Cmd Reply Store) (v : ℕ) :
    effects (l ++ [x]) v = effects l v + if takesEffect v x.2 = true then 1 else 0 := by
  unfold effects
  rw [List.countP_append, List.countP_singleton]

/-- **One step.** -/
theorem Keeping.step {limit : ℕ} {φs : List Phase} {l : PreviewLog} {s : Store} {i : ℕ} {φ : Phase}
    {c : Cmd} {r : Reply} (h : Keeping limit φs l s) (hi : φs[i]? = some φ) (hA : Permits limit φ c)
    (hsound : Sound limit (φ, ⟨s, c, r, c.exec r s⟩)) :
    Keeping limit (φs.set i (φ.next c r s)) (l ++ [(φ, ⟨s, c, r, c.exec r s⟩)]) (c.exec r s) := by
  have hknown := h.known φ (List.mem_of_getElem? hi)
  have hcurrent := current_step hknown hA hsound
  obtain ⟨hmono, hmoved⟩ := exec_changes c r s
  have heffect : ∀ v, takesEffect v ⟨s, c, r, c.exec r s⟩ = true →
      v ≤ s.listVersion ∧ s.changes = s.countedAt v ∧ s.changes < (c.exec r s).changes := by
    intro v heffect
    cases c with
    | reorder orderedMomentIds expectedVersion =>
      obtain ⟨hv, hrows⟩ := Bool.and_eq_true_iff.1 heffect
      obtain rfl := beq_iff_eq.1 hv
      have hrows' := bne_iff_ne.1 hrows
      have hruns : r.runs = true := by
        by_contra hlost
        apply hrows'
        show ((Cmd.reorder orderedMomentIds expectedVersion).exec r s).rows = s.rows
        rw [exec_rows, if_neg hlost]
      obtain ⟨hle, hsame⟩ := hcurrent hruns
      exact ⟨hle, hsame, hmoved hrows'⟩
    | _ => cases heffect
  refine ⟨unique_step h.unique, live_step h.unique h.live hA hsound, ?_, ?_, ?_, ?_, ?_⟩
  · exact Pool.forall_set (fun ψ hψ => (h.known ψ hψ).exec c r) (hknown.next c r)
  · exact Pool.forall_snoc h.current hcurrent
  · exact Pool.forall_snoc h.ordered (ordered_step hsound)
  · intro v
    rw [effects_snoc]
    split
    · rename_i htakes
      obtain ⟨-, hsame, -⟩ := heffect v htakes
      have hnone : ¬0 < effects l v := by
        intro hpos
        have hlt := (h.changed v hpos).2
        omega
      omega
    · exact h.once v
  · intro v hpos
    rw [effects_snoc] at hpos
    by_cases htakes : takesEffect v ⟨s, c, r, c.exec r s⟩ = true
    · obtain ⟨hle, hsame, hlt⟩ := heffect v htakes
      obtain ⟨hle', hcounted⟩ := exec_version c r s hle
      exact ⟨hle', by omega⟩
    · rw [if_neg htakes, add_zero] at hpos
      obtain ⟨hle, hlt⟩ := h.changed v hpos
      obtain ⟨hle', hcounted⟩ := exec_version c r s hle
      exact ⟨hle', by omega⟩

theorem Keeping.start {limit : ℕ} {s : Store} (hunique : (s.rows.map (·.momentId)).Nodup)
    (hlive : (s.rows.countP fun row => isLive row s.now) ≤ limit) : Keeping limit [] [] s := by
  refine ⟨hunique, hlive, ?_, ?_, ?_, ?_, ?_⟩
  · intro φ hφ
    cases hφ
  · intro x hx
    cases hx
  · intro x hx
    cases hx
  · exact fun v => Nat.zero_le 1
  · exact fun v hpos => absurd hpos (lt_irrefl 0)

def previewRun (cfg : MomentsConfig) (s : Store) (ms : List (Move Request Reply)) :
    Watched Phase Cmd Reply Store :=
  (Watched.start s).play Phase.next (fun _ => .start) Cmd.exec (program cfg) ms

/-- The limit holds at every instant, reorders find the list of the version that they expect, at most
one of those that expect a version takes effect, and each leaves its moments in its order. -/
structure Respected (limit : ℕ) (w : Watched Phase Cmd Reply Store) : Prop where
  limit : WithinLimit limit w.pool.store
  current : ∀ e ∈ w.pool.log, Current e
  once : ∀ v, w.pool.log.countP (takesEffect v) ≤ 1
  ordered : ∀ e ∈ w.pool.log, Ordered e

/-- **The list respects its limit and its version** in every run of a list within its limit whose writes
are sound. -/
theorem preview_list_run (cfg : MomentsConfig) (s : Store)
    (hunique : (s.rows.map (·.momentId)).Nodup)
    (hlive : (s.rows.countP fun row => isLive row s.now) ≤ cfg.freePreviewLimit)
    (ms : List (Move Request Reply))
    (hsound : ∀ x ∈ (previewRun cfg s ms).log, Sound cfg.freePreviewLimit x) :
    Respected cfg.freePreviewLimit (previewRun cfg s ms) := by
  obtain ⟨-, hlog, hkeeping⟩ := Watched.play_phased (Keeping cfg.freePreviewLimit)
    (Sound cfg.freePreviewLimit) (program_reads cfg)
    (Keeping.start hunique hlive)
    (fun φs l t q h => { h with
      known := by
        exact Pool.forall_snoc h.known fun reading hreading => nomatch hreading })
    (fun φs l t i φ c r h hi hA hG => h.step hi hA hG) ms hsound
  have hevents : ∀ {P : Event Cmd Reply Store → Prop},
      (∀ x ∈ (previewRun cfg s ms).log, P x.2) → ∀ e ∈ (previewRun cfg s ms).pool.log, P e := by
    intro P hP e he
    have hmem : e ∈ (previewRun cfg s ms).log.map Prod.snd := hlog ▸ he
    obtain ⟨x, hx, rfl⟩ := List.mem_map.1 hmem
    exact hP x hx
  refine ⟨?_, hevents hkeeping.current, ?_, hevents hkeeping.ordered⟩
  · intro t ht
    apply le_trans _ hkeeping.live
    apply List.countP_mono_left
    intro row _ hvisible
    exact isLive_of_visible hvisible ht
  · intro v
    have hcount := hkeeping.once v
    unfold effects at hcount
    rw [show (fun x : Phase × Event Cmd Reply Store => takesEffect v x.2) =
      takesEffect v ∘ Prod.snd from rfl, ← List.countP_map] at hcount
    exact hlog ▸ hcount

/-! ### Samples -/

def config : MomentsConfig := ⟨1, fun _ => true⟩

def listOf (enabled : Bool) (momentIds : List String) : Store where
  rows := momentIds.map fun id => ⟨id, momentIds.idxOf id, enabled, none, none⟩
  listVersion := 0
  isPublic := fun _ => true
  now := 0
  changes := 0
  countedAt := fun _ => 0

def answered : Reply := ⟨true, true, 1⟩

def always : AddOptions := ⟨none, none, none⟩

def oneAfterTheOther : List (Move Request Reply) :=
  Move.spawn (Request.add "a" always) :: List.replicate 6 (Move.step 0 answered) ++
    Move.spawn (Request.add "b" always) :: List.replicate 3 (Move.step 1 answered) ++
    Move.spawn (Request.reorder ["a"] 1) :: List.replicate 3 (Move.step 2 answered)

theorem preview_list_sample :
    Respected 1 (previewRun config (listOf true []) oneAfterTheOther) :=
  preview_list_run config (listOf true []) (by decide) (by decide) oneAfterTheOther
    (by decide +kernel)

/-- Two administrators who both count before either adds. -/
def addedAtOnce : List (Move Request Reply) :=
  .spawn (.add "a" always) :: .spawn (.add "b" always) ::
    [0, 0, 0, 1, 1, 1, 0, 0, 0, 1, 1, 1].map fun i => .step i answered

/-- Two administrators who both read version 0 before either reorders. -/
def reorderedAtOnce : List (Move Request Reply) :=
  .spawn (.reorder ["b", "a"] 0) :: .spawn (.reorder ["a", "b"] 0) ::
    [0, 1, 0, 1, 0, 1].map fun i => .step i answered

def listedTwice : List (Move Request Reply) :=
  .spawn (.reorder ["a", "b", "a"] 0) :: List.replicate 3 (.step 0 answered)

/-- Two previews are visible where one may be, two reorders of one version take effect, and a moment
that is listed first stands last. -/
theorem preview_list_not_respected :
    ¬WithinLimit 1 (previewRun config (listOf true []) addedAtOnce).pool.store ∧
    ¬((previewRun ⟨2, fun _ => true⟩ (listOf true ["a", "b"]) reorderedAtOnce).pool.log.countP
      (takesEffect 0) ≤ 1) ∧
    ¬∀ e ∈ (previewRun ⟨3, fun _ => true⟩ (listOf true ["a", "b"]) listedTwice).pool.log,
      Ordered e := by
  refine ⟨?_, by decide +kernel, ?_⟩
  · intro h
    have hle := h (previewRun config (listOf true []) addedAtOnce).pool.store.now le_rfl
    revert hle
    decide +kernel
  · intro h
    have hreorder : ∃ e ∈ (previewRun ⟨3, fun _ => true⟩ (listOf true ["a", "b"])
        listedTwice).pool.log, e.cmd = .reorder ["a", "b", "a"] 0 ∧ e.ans.runs = true ∧
        e.after.rows = [⟨"a", 2, true, none, none⟩, ⟨"b", 1, true, none, none⟩] :=
      ⟨_, List.mem_cons_of_mem _ List.mem_cons_self, rfl, rfl, by decide +kernel⟩
    obtain ⟨e, he, hcmd, hruns, hrows⟩ := hreorder
    have hordered := h e he
    unfold Ordered at hordered
    rw [hcmd] at hordered
    have hinOrder := hordered hruns
    rw [hrows] at hinOrder
    have hlt := (List.pairwise_cons.1 hinOrder).1 "b" (by decide) ⟨"a", 2, true, none, none⟩
      (by decide) ⟨"b", 1, true, none, none⟩ (by decide) rfl rfl
    exact absurd hlt (by decide)

end VibemeetBackend.FreePreview
