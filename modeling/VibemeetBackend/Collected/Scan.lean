import VibemeetBackend.Collected.Totals

/-!
# The scan of the collected amount

`scanRazorpayCollectedPayments` of `admin-razorpay-collected.service.ts`, against a provider whose
list of payments grows at its front while the scan reads it by offsets.

A date is its time value.  The products with 1000 are exact wherever they are as small as a date.
`RAZORPAY_COLLECTED_MAX_PAGES` and `RAZORPAY_COLLECTED_MAX_SCAN_MS` are not set.
-/

namespace VibemeetBackend.Collected

open Moments (Text finiteNumber integerText)
open Paging

/-! ### The scan -/

def defaultMaxPages : ℕ := 500

def defaultMaxScanMs : ℤ := 25000

structure FetchParams where
  count : ℕ
  skip : ℕ
  fromSecond : Option ℤ
  toSecond : ℤ

structure ScanOptions where
  fromMs : Option ℤ
  toMs : Option ℤ
  asOf : Option ℤ
  maxPages : Option ℕ
  maxScanMs : Option ℤ

/-- The readings of the clock: that of `new Date()`, that of the start, and one before each page. -/
structure Clock where
  now : ℤ
  startedMs : ℤ
  atPage : ℕ → ℤ

abbrev FetchPage := ℕ → FetchParams → Except RazorpayCollectedError JsValue

structure CollectedCurrencyBucket where
  currency : Text
  amountSubunits : Text
  amountMajor : Text
  paymentCount : ℕ

structure RazorpayCollectedAmount where
  amountSubunits : Option Text
  amountMajor : Option Text
  currency : Option Text
  paymentCount : ℕ
  currencyBuckets : List CollectedCurrencyBucket
  requestedRange : Option (ℤ × ℤ)
  effectiveRange : Option ℤ × ℤ
  asOf : ℤ
  projectedPayments : ℕ

namespace ScanOptions

variable (options : ScanOptions) (now : ℤ)

def scanStartedAt : ℤ := options.asOf.getD now

def effectiveTo : ℤ :=
  min (options.toMs.getD (options.scanStartedAt now)) (options.scanStartedAt now)

def providerFrom : Option ℤ := options.fromMs.map fun t => max 0 (t / 1000 - 1)

/-- `Math.ceil(effectiveTo / 1000) + 1`. -/
def providerTo : ℤ := -(-options.effectiveTo now / 1000) + 1

def params (pageNumber : ℕ) : FetchParams :=
  ⟨pageSize, pageNumber * pageSize, options.providerFrom, options.providerTo now⟩

def Includes (created_at : ℤ) : Prop :=
  (∀ t ∈ options.fromMs, ¬created_at * 1000 < t) ∧ ¬options.effectiveTo now ≤ created_at * 1000

instance (created_at : ℤ) : Decidable (options.Includes now created_at) :=
  inferInstanceAs (Decidable (_ ∧ _))

end ScanOptions

structure ScanState where
  seen : List Text
  totals : Totals
  paymentCount : ℕ

local instance : LawfulBEq Text := inferInstance

def scanPayment (options : ScanOptions) (now : ℤ) (s : ScanState)
    (payment : RazorpayPaymentForCollected) : ScanState :=
  if payment.id ∈ s.seen then s
  else if options.Includes now payment.created_at ∧ payment.captured = true then
    { seen := payment.id :: s.seen
      totals := addPayment s.totals payment.currency payment.amount
      paymentCount := s.paymentCount + 1 }
  else { s with seen := payment.id :: s.seen }

section Scan

variable (toUpperCase : Text → Text) (options : ScanOptions) (clock : Clock)
  (fetchPage : FetchPage)

def scanLimit : RazorpayCollectedError :=
  ⟨.scanLimit, "Razorpay payment history exceeded the safe request-time scan limit.", 503⟩

/-- The loop over the pages, of which `left` may still be asked for. -/
def scanPages : (left pageNumber : ℕ) → ScanState → Except RazorpayCollectedError ScanState
  | 0, _, _ => .error scanLimit
  | left + 1, pageNumber, s =>
    if options.maxScanMs.getD defaultMaxScanMs < clock.atPage pageNumber - clock.startedMs then
      .error scanLimit
    else do
      let raw ← fetchPage pageNumber (options.params clock.now pageNumber)
      let items ← parseRazorpayPaymentPage toUpperCase raw
      let s := items.foldl (scanPayment options clock.now) s
      if items.length < pageSize then return s else scanPages left (pageNumber + 1) s

def currencyBucket (x : Text × Bucket) : CollectedCurrencyBucket :=
  ⟨x.1, integerText x.2.amount, majorAmount x.2.amount, x.2.paymentCount⟩

variable (localeCompare : Text → Text → Bool)

/-- The result for the totals.  Currencies are in some order of the locale. -/
def collectedAmount (s : ScanState) : RazorpayCollectedAmount :=
  let currencyBuckets :=
    (s.totals.mergeSort fun a b => localeCompare a.1 b.1).map currencyBucket
  let soleBucket := if currencyBuckets.length = 1 then currencyBuckets.head? else none
  { amountSubunits := (soleBucket.map (·.amountSubunits)).or
      (if currencyBuckets.length = 0 then some ['0'] else none)
    amountMajor := (soleBucket.map (·.amountMajor)).or
      (if currencyBuckets.length = 0 then some ['0', '.', '0', '0'] else none)
    currency := (soleBucket.map (·.currency)).or
      (if currencyBuckets.length = 0 then some ['I', 'N', 'R'] else none)
    paymentCount := s.paymentCount
    currencyBuckets := currencyBuckets
    requestedRange := options.fromMs.bind fun t => options.toMs.map fun t' => (t, t')
    effectiveRange := (options.fromMs, options.effectiveTo clock.now)
    asOf := options.scanStartedAt clock.now
    projectedPayments := s.paymentCount }

def scanRazorpayCollectedPayments : Except RazorpayCollectedError RazorpayCollectedAmount := do
  let s ← scanPages toUpperCase options clock fetchPage (options.maxPages.getD defaultMaxPages) 0
    ⟨[], [], 0⟩
  return collectedAmount options clock localeCompare s

end Scan

/-! ### The provider while a scan runs -/

/-- The payments of the provider at each request: those that come are not before `asOf`. -/
structure History (asOf : ℤ) where
  listed : ℕ → List ProviderPayment
  nodup : ∀ n, ((listed n).map (·.id)).Nodup
  grows : ∀ n, ∃ front, listed (n + 1) = front ++ listed n ∧ ∀ p ∈ front, asOf ≤ p.created_at * 1000

def restricted (options : ScanOptions) (now : ℤ) (rows : List ProviderPayment) :
    List ProviderPayment :=
  rows.filter (inSeconds options.providerFrom (options.providerTo now))

/-- A response to a request is a slice of the payments of its seconds. -/
def ServesHistory {asOf : ℤ} (h : History asOf) (fetchPage : FetchPage) : Prop :=
  ∀ n params raw, fetchPage n params = .ok raw →
    Serves raw (page ((h.listed n).filter (inSeconds params.fromSecond params.toSecond))
      params.skip params.count)

section Exact

variable {toUpperCase : Text → Text} {localeCompare : Text → Text → Bool} {options : ScanOptions}
  {clock : Clock} {fetchPage : FetchPage} {now asOf : ℤ} {h : History asOf} {s s' : ScanState}
  {done rows l : List ProviderPayment} {p : ProviderPayment}
  {items : List RazorpayPaymentForCollected} {item : RazorpayPaymentForCollected}

theorem History.grows_listed (h : History asOf) : Grows h.listed := by
  intro n
  obtain ⟨front, hfront, -⟩ := h.grows n
  exact ⟨front, hfront.symm⟩

variable {n : ℕ}

theorem History.mem_first (h : History asOf) (hp : p ∈ h.listed n)
    (hbefore : p.created_at * 1000 < asOf) : p ∈ h.listed 0 := by
  induction n with
  | zero => exact hp
  | succ n ih =>
    obtain ⟨front, hfront, hafter⟩ := h.grows n
    rw [hfront] at hp
    rcases List.mem_append.1 hp with hnew | hold
    · exact absurd hbefore (not_lt.2 (hafter p hnew))
    · exact ih hold

theorem History.eq_of_id (h : History asOf) {q : ProviderPayment} (hp : p ∈ h.listed n)
    (hq : q ∈ h.listed n) (hid : p.id = q.id) : p = q :=
  List.inj_on_of_nodup_map (h.nodup n) hp hq hid

def counted (options : ScanOptions) (now : ℤ) (rows : List ProviderPayment) :
    List ProviderPayment :=
  rows.filter fun p => decide (options.Includes now p.created_at) && p.isCaptured

/-- The state of a scan that has had the payments `done`. -/
structure Tallied (toUpperCase : Text → Text) (options : ScanOptions) (now : ℤ) (s : ScanState)
    (done : List ProviderPayment) : Prop where
  seen : ∀ id, id ∈ s.seen ↔ id ∈ done.map (·.id)
  nodup : (done.map (·.id)).Nodup
  totals : s.totals = tally toUpperCase (counted options now done)
  paymentCount : s.paymentCount = (counted options now done).length

theorem Tallied.step (ht : Tallied toUpperCase options now s done)
    (hitem : Parsed toUpperCase item p) (hnew : p.id ∉ done.map (·.id)) :
    Tallied toUpperCase options now (scanPayment options now s item) (done ++ [p]) := by
  have hseen : item.id ∉ s.seen := by
    rw [ht.seen, hitem.id]
    exact hnew
  have hnodup : ((done ++ [p]).map (·.id)).Nodup := by
    rw [List.map_append, List.map_singleton, ← List.concat_eq_append]
    exact ht.nodup.concat hnew
  have hids : ∀ id, id ∈ item.id :: s.seen ↔ id ∈ (done ++ [p]).map (·.id) := by
    intro id
    rw [List.mem_cons, ht.seen, hitem.id, List.map_append, List.mem_append, List.map_singleton,
      List.mem_singleton, or_comm]
  unfold scanPayment
  rw [if_neg hseen]
  by_cases hcounts : options.Includes now p.created_at ∧ p.isCaptured = true
  · have hcounted : counted options now (done ++ [p]) = counted options now done ++ [p] := by
      unfold counted
      rw [List.filter_append, List.filter_cons_of_pos (by simpa using hcounts), List.filter_nil]
    rw [if_pos (by rwa [hitem.created_at, hitem.captured])]
    exact
      { seen := hids
        nodup := hnodup
        totals := by rw [hcounted, tally_snoc, ht.totals, hitem.currency, hitem.amount]
        paymentCount := by rw [hcounted, ht.paymentCount, List.length_append]; rfl }
  · have hcounted : counted options now (done ++ [p]) = counted options now done := by
      simp_all [counted]
    rw [if_neg (by rwa [hitem.created_at, hitem.captured])]
    exact ⟨hids, hnodup, by rw [hcounted]; exact ht.totals, by rw [hcounted]; exact ht.paymentCount⟩

/-- **The turns for a page.** -/
theorem Tallied.foldl (hids : ∀ p ∈ l, ∀ q ∈ l, p.id = q.id → p = q)
    (hparsed : List.Forall₂ (Parsed toUpperCase) items rows) (hrows : rows ⊆ l)
    (ht : Tallied toUpperCase options now s done) (hdone : done ⊆ l) :
    ∃ done', Tallied toUpperCase options now (items.foldl (scanPayment options now) s) done' ∧
      done' ⊆ l ∧ done ⊆ done' ∧ rows ⊆ done' := by
  induction hparsed generalizing s done with
  | nil => exact ⟨done, ht, hdone, List.Subset.refl _, List.nil_subset _⟩
  | @cons item p items rows hitem hparsed ih =>
    obtain ⟨hp, hrows'⟩ := List.cons_subset.1 hrows
    by_cases hold : p.id ∈ done.map (·.id)
    · obtain ⟨q, hq, hid⟩ := List.mem_map.1 hold
      obtain rfl : q = p := hids q (hdone hq) p hp hid
      obtain ⟨done', ht', hl, hsub, hsub'⟩ := ih hrows' ht hdone
      have hskip : scanPayment options now s item = s := by
        unfold scanPayment
        rw [if_pos]
        rw [ht.seen, hitem.id]
        exact hold
      rw [List.foldl_cons, hskip]
      exact ⟨done', ht', hl, hsub, List.cons_subset.2 ⟨hsub hq, hsub'⟩⟩
    · have hdone' : done ++ [p] ⊆ l :=
        List.append_subset.2 ⟨hdone, List.cons_subset.2 ⟨hp, List.nil_subset _⟩⟩
      obtain ⟨done', ht', hl, hsub, hsub'⟩ := ih hrows' (ht.step hitem hold) hdone'
      obtain ⟨hsub, hmem⟩ := List.append_subset.1 hsub
      exact ⟨done', ht', hl, hsub, List.cons_subset.2 ⟨hmem List.mem_cons_self, hsub'⟩⟩

/-! ### The pages -/

theorem restricted_grows (h : History asOf) (options : ScanOptions) (now : ℤ) :
    Grows fun n => restricted options now (h.listed n) :=
  h.grows_listed.filter _

theorem scanPages_succ {left : ℕ}
    (hs : scanPages toUpperCase options clock fetchPage (left + 1) n s = .ok s') :
    ∃ raw items, fetchPage n (options.params clock.now n) = .ok raw ∧
      parseRazorpayPaymentPage toUpperCase raw = .ok items ∧
      (if items.length < pageSize then
          Except.ok (items.foldl (scanPayment options clock.now) s)
        else scanPages toUpperCase options clock fetchPage left (n + 1)
          (items.foldl (scanPayment options clock.now) s)) = .ok s' := by
  unfold scanPages at hs
  split at hs
  · cases hs
  · obtain ⟨raw, hraw, hs⟩ := bind_eq_ok_iff.1 hs
    obtain ⟨items, hitems, hs⟩ := bind_eq_ok_iff.1 hs
    exact ⟨raw, items, hraw, hitems, hs⟩

/-- **A scan that ends has had every payment that it began with**: each is among those it has had,
or ahead of the page that it asks for. -/
theorem scanPages_complete (hserves : ServesHistory h fetchPage) {left : ℕ}
    (ht : Tallied toUpperCase options clock.now s done) (hdone : done ⊆ h.listed n)
    (hahead : ∀ p ∈ restricted options clock.now (h.listed 0),
      p ∈ done ∨ p ∈ (restricted options clock.now (h.listed n)).drop (n * pageSize))
    (hs : scanPages toUpperCase options clock fetchPage left n s = .ok s') :
    ∃ m done', Tallied toUpperCase options clock.now s' done' ∧ done' ⊆ h.listed m ∧
      restricted options clock.now (h.listed 0) ⊆ done' := by
  induction left generalizing n s done with
  | zero => cases hs
  | succ left ih =>
    obtain ⟨raw, items, hraw, hitems, hs⟩ := scanPages_succ hs
    have hparsed : List.Forall₂ (Parsed toUpperCase) items
        (page (restricted options clock.now (h.listed n)) (n * pageSize) pageSize) :=
      parseRazorpayPaymentPage_serves (hserves n _ raw hraw) hitems
    have hrows : page (restricted options clock.now (h.listed n)) (n * pageSize) pageSize ⊆
        h.listed n :=
      List.Subset.trans (page_subset _ _ _) (List.filter_subset_self _)
    obtain ⟨done', ht', hdone', hsub, hsub'⟩ := ht.foldl
      (fun p hp q hq hid => h.eq_of_id hp hq hid) hparsed hrows hdone
    have hnext : ∀ p ∈ restricted options clock.now (h.listed 0), p ∈ done' ∨
        p ∈ (restricted options clock.now (h.listed n)).drop (n * pageSize + pageSize) := by
      intro p hp
      rcases hahead p hp with hold | hrest
      · exact .inl (hsub hold)
      · exact (mem_page_or_ahead hrest).imp_left fun hmem => hsub' hmem
    split at hs
    · rename_i hshort
      cases hs
      rw [hparsed.length_eq] at hshort
      refine ⟨n, done', ht', hdone', fun p hp => ?_⟩
      rcases hnext p hp with hmem | hrest
      · exact hmem
      · simp [drop_eq_nil_of_short hshort] at hrest
    · apply ih ht' (List.Subset.trans hdone' (h.grows_listed n).subset) ?_ hs
      intro p hp
      rw [Nat.succ_mul]
      exact (hnext p hp).imp_right fun hrest =>
        drop_subset_of_suffix (restricted_grows h options clock.now n) _ hrest

/-- **A scan ends**, when no page is refused and the payments fit into the pages. -/
theorem scanPages_returns (hserves : ServesHistory h fetchPage)
    (hanswers : ∀ n params, ∃ raw, fetchPage n params = .ok raw)
    (hformed : ∀ n, ∀ p ∈ h.listed n, p.WellFormed)
    (htime : ∀ n, clock.atPage n - clock.startedMs ≤ options.maxScanMs.getD defaultMaxScanMs)
    {left : ℕ}
    (hfew : ∀ m, (restricted options clock.now (h.listed m)).length < (n + left) * pageSize)
    (hfull : n * pageSize ≤ (restricted options clock.now (h.listed n)).length)
    (toUpperCase : Text → Text) (s : ScanState) :
    ∃ s', scanPages toUpperCase options clock fetchPage left n s = .ok s' := by
  induction left generalizing n s with
  | zero => exact absurd (hfew n) (not_lt.2 hfull)
  | succ left ih =>
    obtain ⟨raw, hraw⟩ := hanswers n (options.params clock.now n)
    have hrows : Serves raw
        (page (restricted options clock.now (h.listed n)) (n * pageSize) pageSize) :=
      hserves n _ raw hraw
    obtain ⟨items, hitems⟩ := parseRazorpayPaymentPage_of_wellFormed toUpperCase
      hrows fun p hp => hformed n p (List.mem_of_mem_filter (page_subset _ _ _ hp))
    have hlength := (parseRazorpayPaymentPage_serves hrows hitems).length_eq
    unfold scanPages
    rw [if_neg (not_lt.2 (htime n)), hraw]
    show ∃ s', (do
      let items ← parseRazorpayPaymentPage toUpperCase raw
      let s := items.foldl (scanPayment options clock.now) s
      if items.length < pageSize then return s
      else scanPages toUpperCase options clock fetchPage left (n + 1) s) = .ok s'
    rw [hitems]
    show ∃ s', (if items.length < pageSize then _ else _) = Except.ok s'
    split
    · exact ⟨_, rfl⟩
    · rename_i hfullPage
      rw [hlength] at hfullPage
      have hmore := le_length_of_full hfullPage (by decide)
      apply ih
      · intro m
        have := hfew m
        rwa [Nat.add_right_comm]
      · rw [Nat.succ_mul]
        exact hmore.trans (restricted_grows h options clock.now n).length_le

/-! ### The amounts -/

/-- No payment of the asked range is older than 1970, where the asked seconds begin. -/
def InEra (options : ScanOptions) (rows : List ProviderPayment) : Prop :=
  ∀ p ∈ rows, ∀ t ∈ options.fromMs, t ≤ p.created_at * 1000 → 0 ≤ p.created_at

theorem inSeconds_of_includes (h : options.Includes now p.created_at)
    (hera : ∀ t ∈ options.fromMs, t ≤ p.created_at * 1000 → 0 ≤ p.created_at) :
    inSeconds options.providerFrom (options.providerTo now) p = true := by
  obtain ⟨hfrom, hto⟩ := h
  unfold inSeconds ScanOptions.providerFrom ScanOptions.providerTo
  rw [decide_eq_true_eq]
  constructor
  · intro second hsecond
    obtain ⟨t, ht, rfl⟩ := Option.map_eq_some_iff.1 hsecond
    have hpos := hera t ht (not_lt.1 (hfrom t ht))
    have hafter := hfrom t ht
    omega
  · omega

/-- **What a scan that had every payment counted.** -/
theorem counted_perm {h : History (options.scanStartedAt now)} {m : ℕ}
    (hera : InEra options (h.listed 0)) (hnodup : (done.map (·.id)).Nodup)
    (hdone : done ⊆ h.listed m) (hall : restricted options now (h.listed 0) ⊆ done) :
    (counted options now done).Perm (counted options now (h.listed 0)) := by
  have hfirst : (counted options now (h.listed 0)).Nodup :=
    (List.Nodup.of_map _ (h.nodup 0)).filter _
  apply (List.perm_ext_iff_of_nodup ((List.Nodup.of_map _ hnodup).filter _) hfirst).2
  intro p
  unfold counted
  rw [List.mem_filter, List.mem_filter, Bool.and_eq_true, decide_eq_true_eq]
  constructor
  · rintro ⟨hp, hincludes, hcaptured⟩
    refine ⟨h.mem_first (hdone hp) ?_, hincludes, hcaptured⟩
    exact (not_le.1 hincludes.2).trans_le (min_le_right _ _)
  · rintro ⟨hp, hincludes, hcaptured⟩
    refine ⟨hall (List.mem_filter.2 ⟨hp, ?_⟩), hincludes, hcaptured⟩
    exact inSeconds_of_includes hincludes (hera p hp)

/-- The amounts of a result are those of the captured payments of the range, each once. -/
structure Exact (toUpperCase : Text → Text) (options : ScanOptions) (now : ℤ)
    (rows : List ProviderPayment) (result : RazorpayCollectedAmount) : Prop where
  nodup : (result.currencyBuckets.map (·.currency)).Nodup
  currencies : ∀ currency, currency ∈ result.currencyBuckets.map (·.currency) ↔
    ∃ p ∈ counted options now rows, p.upperCurrency toUpperCase = currency
  counts : ∀ b ∈ result.currencyBuckets, b.paymentCount =
    (inCurrency toUpperCase b.currency (counted options now rows)).length
  sums : ∀ b ∈ result.currencyBuckets, finiteNumber b.amountSubunits = some
    (((inCurrency toUpperCase b.currency (counted options now rows)).map (·.subunits)).sum : ℤ)
  majors : ∀ b ∈ result.currencyBuckets, ∀ subunits, finiteNumber b.amountSubunits = some subunits →
    finiteNumber b.amountMajor = some (subunits / 100)
  paymentCount : result.paymentCount = (counted options now rows).length

theorem Tallied.exact (ht : Tallied toUpperCase options clock.now s done)
    (hperm : (counted options clock.now done).Perm (counted options clock.now rows)) :
    Exact toUpperCase options clock.now rows (collectedAmount options clock localeCompare s) := by
  have hbuckets : ∀ b ∈ (collectedAmount options clock localeCompare s).currencyBuckets,
      ∃ x ∈ s.totals, b = currencyBucket x ∧ x.2 = bucketOf x.1 s.totals := by
    intro b hb
    obtain ⟨x, hx, rfl⟩ := List.mem_map.1 hb
    have hmem := (List.mergeSort_perm s.totals _).mem_iff.1 hx
    refine ⟨x, hmem, rfl, (bucketOf_mem ?_ hmem).symm⟩
    rw [ht.totals]
    exact nodup_keys_tally toUpperCase _
  have hkeys : ((collectedAmount options clock localeCompare s).currencyBuckets.map
      (·.currency)).Perm (s.totals.map (·.1)) := by
    show ((List.map currencyBucket _).map _).Perm _
    rw [List.map_map]
    exact (List.mergeSort_perm s.totals _).map _
  have hbucket : ∀ currency, bucketOf currency s.totals =
      ⟨((inCurrency toUpperCase currency (counted options clock.now rows)).map (·.subunits)).sum,
        (inCurrency toUpperCase currency (counted options clock.now rows)).length⟩ := by
    intro currency
    have hsame := hperm.filter fun p => p.upperCurrency toUpperCase == currency
    simp [ht.totals, bucketOf_tally, inCurrency, (hsame.map _).sum_eq, hsame.length_eq]
  exact
    { nodup := by
        rw [hkeys.nodup_iff, ht.totals]
        exact nodup_keys_tally toUpperCase _
      currencies := by
        intro currency
        rw [hkeys.mem_iff, ht.totals, mem_keys_tally]
        exact exists_congr fun p => and_congr_left fun _ => hperm.mem_iff
      counts := by
        intro b hb
        obtain ⟨x, hx, rfl, heq⟩ := hbuckets b hb
        show x.2.paymentCount = _
        rw [heq, hbucket]
        rfl
      sums := by
        intro b hb
        obtain ⟨x, hx, rfl, heq⟩ := hbuckets b hb
        show finiteNumber (integerText x.2.amount) = _
        rw [Moments.finiteNumber_integerText, heq, hbucket]
        rfl
      majors := by
        intro b hb subunits hsubunits
        obtain ⟨x, hx, rfl, -⟩ := hbuckets b hb
        have hamount := (Moments.finiteNumber_integerText x.2.amount).symm.trans hsubunits
        rw [← Option.some.inj hamount]
        exact finiteNumber_majorAmount x.2.amount
      paymentCount := by
        show s.paymentCount = _
        rw [ht.paymentCount, hperm.length_eq] }

/-- **The collected amount is exact.** -/
theorem collected_exact (h : History (options.scanStartedAt clock.now))
    (hserves : ServesHistory h fetchPage) (hera : InEra options (h.listed 0)) :
    (∀ result, scanRazorpayCollectedPayments toUpperCase options clock fetchPage localeCompare =
        .ok result → Exact toUpperCase options clock.now (h.listed 0) result) ∧
    ((∀ n params, ∃ raw, fetchPage n params = .ok raw) →
      (∀ n, ∀ p ∈ h.listed n, p.WellFormed) →
      (∀ n, (restricted options clock.now (h.listed n)).length <
        options.maxPages.getD defaultMaxPages * pageSize) →
      (∀ n, clock.atPage n - clock.startedMs ≤ options.maxScanMs.getD defaultMaxScanMs) →
      ∃ result, scanRazorpayCollectedPayments toUpperCase options clock fetchPage localeCompare =
        .ok result) := by
  have hbegin : Tallied toUpperCase options clock.now ⟨[], [], 0⟩ [] :=
    ⟨fun _ => Iff.rfl, List.nodup_nil, rfl, rfl⟩
  constructor
  · intro result hresult
    obtain ⟨s, hs, hresult⟩ := bind_eq_ok_iff.1 hresult
    cases hresult
    obtain ⟨m, done, ht, hdone, hall⟩ := scanPages_complete hserves hbegin (List.nil_subset _)
      (fun p hp => .inr (by rwa [Nat.zero_mul, List.drop_zero])) hs
    exact ht.exact (counted_perm hera ht.nodup hdone hall)
  · intro hanswers hformed hfew htime
    obtain ⟨s, hs⟩ := scanPages_returns hserves hanswers hformed htime (by rwa [Nat.zero_add])
      (by rw [Nat.zero_mul]; exact Nat.zero_le _) toUpperCase ⟨[], [], 0⟩
    refine ⟨collectedAmount options clock localeCompare s, ?_⟩
    unfold scanRazorpayCollectedPayments
    rw [hs]
    rfl

end Exact

/-! ### A provider that answers -/

def respond {asOf : ℤ} (h : History asOf) : FetchPage := fun n params =>
  .ok (response (page ((h.listed n).filter (inSeconds params.fromSecond params.toSecond))
    params.skip params.count))

theorem servesHistory_respond {asOf : ℤ} (h : History asOf) : ServesHistory h (respond h) := by
  intro n params raw hraw
  cases hraw
  exact serves_response _

def capturedPayment (id : String) (subunits : ℕ) (currency : String) (created_at : ℤ) :
    ProviderPayment :=
  ⟨id.toList, .number subunits, .string currency.toList, .boolean true, created_at⟩

def twoPayments : List ProviderPayment :=
  [capturedPayment "pay_2" 100 "usd" 1500, capturedPayment "pay_1" 10000 "inr" 1000]

/-- A third payment comes after the first request. -/
def growingHistory : History 2000000 where
  listed n := if n = 0 then twoPayments else capturedPayment "pay_3" 100 "inr" 2000 :: twoPayments
  nodup n := by
    split
    · decide +kernel
    · decide +kernel
  grows n := by
    by_cases h : n = 0
    · subst h
      exact ⟨[capturedPayment "pay_3" 100 "inr" 2000], rfl, by simp [capturedPayment]⟩
    · exact ⟨[], by simp [h], by simp⟩

def sinceOptions : ScanOptions := ⟨some 500000, none, some 2000000, none, none⟩

theorem wellFormed_capturedPayment (id currency : String) {subunits : ℕ}
    (h : (subunits : ℤ) ≤ maxSafeInteger) (created_at : ℤ) :
    (capturedPayment id subunits currency created_at).WellFormed :=
  ⟨⟨subunits, h, rfl⟩, ⟨_, rfl⟩, ⟨_, rfl⟩⟩

theorem wellFormed_growingHistory (n : ℕ) : ∀ p ∈ growingHistory.listed n, p.WellFormed := by
  have htwo : ∀ p ∈ twoPayments, p.WellFormed := by
    unfold twoPayments
    rw [List.forall_mem_cons, List.forall_mem_singleton]
    exact ⟨wellFormed_capturedPayment _ _ (by decide) _,
      wellFormed_capturedPayment _ _ (by decide) _⟩
  unfold growingHistory
  dsimp only
  split
  · exact htwo
  · rw [List.forall_mem_cons]
    exact ⟨wellFormed_capturedPayment _ _ (by decide) _, htwo⟩

theorem length_growingHistory (n : ℕ) : (growingHistory.listed n).length ≤ 3 := by
  unfold growingHistory
  dsimp only
  split <;> decide

theorem collected_exact_growing : ∃ result,
    scanRazorpayCollectedPayments (List.map Char.toUpper) sinceOptions ⟨0, 0, fun _ => 0⟩
        (respond growingHistory) (fun a b => decide (a ≤ b)) = .ok result ∧
      Exact (List.map Char.toUpper) sinceOptions 0 twoPayments result := by
  have hera : InEra sinceOptions (growingHistory.listed 0) := by
    show ∀ p ∈ twoPayments, _
    simp [twoPayments, capturedPayment]
  obtain ⟨hexact, hreturns⟩ := @collected_exact (List.map Char.toUpper)
    (fun a b => decide (a ≤ b)) sinceOptions ⟨0, 0, fun _ => 0⟩ (respond growingHistory)
    growingHistory (servesHistory_respond growingHistory) hera
  obtain ⟨result, hresult⟩ := hreturns (fun n params => ⟨_, rfl⟩) wellFormed_growingHistory
    (fun n => (List.length_filter_le _ _).trans_lt ((length_growingHistory n).trans_lt (by decide)))
    (fun _ => show (0 : ℤ) - 0 ≤ 25000 by decide)
  exact ⟨result, hresult, hexact result hresult⟩

def oldHistory : History 0 where
  listed _ := [capturedPayment "pay_1" 100 "inr" (-1)]
  nodup _ := List.nodup_singleton _
  grows _ := ⟨[], rfl, by simp⟩

def oldOptions : ScanOptions := ⟨some (-5000), none, some 0, none, none⟩

/-- The asked seconds begin with 1970: a payment before it is not among them. -/
theorem old_payment_missed : ∃ result,
    scanRazorpayCollectedPayments (List.map Char.toUpper) oldOptions ⟨0, 0, fun _ => 0⟩
        (respond oldHistory) (fun a b => decide (a ≤ b)) = .ok result ∧
      ¬Exact (List.map Char.toUpper) oldOptions 0 (oldHistory.listed 0) result := by
  refine ⟨collectedAmount oldOptions ⟨0, 0, fun _ => 0⟩ (fun a b => decide (a ≤ b)) ⟨[], [], 0⟩,
    ?_, ?_⟩
  · rfl
  · intro h
    have hcount : 0 = _ := h.paymentCount
    revert hcount
    decide +kernel

end VibemeetBackend.Collected
