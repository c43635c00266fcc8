import MeteredUsage.Library.Median
import MeteredUsage.Quota.Predictions
import MeteredUsage.Store.Replaced

/-! What a run of reports teaches of a window. Each window teaches once, by its last report, however often
it was reported; the share a dollar spends is between the bounds that hold for more than half of the
windows, so that a provider's courtesies do not move it, and those it leaves out are named. -/

namespace MeteredUsage.Quota.Calibrations
open MeteredUsage.Values MeteredUsage.Store MeteredUsage.Store.Schema MeteredUsage.Store.Windows
open MeteredUsage.Store.Samples MeteredUsage.Store.Replaced MeteredUsage.Quota.Predictions
open MeteredUsage.Library.Keyed MeteredUsage.Library.Median

variable {runtime : Sql.Runtime}

/-- The windows a provider reported of an account. -/
structure Report where
  accountId : AccountId
  windows : List NewWindow
  observedAt : Timestamp

/-- The tables once the reports were stored. -/
def stored (runtime : Sql.Runtime) (reports : List Report) (tables : Tables) : Tables :=
  reports.foldl (fun tables report =>
    replaced runtime report.accountId report.windows report.observedAt tables) tables

/-- What a report says of the windows it teaches of, the first window of each key alone. -/
def samplesOf (runtime : Sql.Runtime) (report : Report) : List QuotaSample :=
  (firsts NewWindow.key report.windows).filterMap (·.sample runtime report.accountId report.observedAt)

/-- What the last report of a window says of it. -/
def lastSaid (runtime : Sql.Runtime) (reports : List Report) (id : AccountId) (key : String)
    (startedAt : Timestamp) : Option QuotaSample :=
  ((reports.flatMap (samplesOf runtime)).filter fun sample => keyOf sample = (id, key, startedAt)).getLast?

/-- `INSERT … ON CONFLICT … DO UPDATE`, over the samples alone. -/
def upsert (row : QuotaSample) (samples : List QuotaSample) : List QuotaSample :=
  if keyOf row ∈ samples.map keyOf then samples.map fun sample => if keyOf sample = keyOf row then row else sample
  else samples ++ [row]

theorem samples_upsertSample (row : QuotaSample) (tables : Tables) :
    (upsertSample row tables).samples = upsert row tables.samples := by
  have named (sample : QuotaSample) : (sample.accountId = row.accountId && sample.windowKey = row.windowKey &&
      sample.startedAt = row.startedAt) = decide (keyOf sample = keyOf row) := by
    simp [keyOf, Bool.and_assoc]
  have known : (tables.samples.any fun sample => decide (keyOf sample = keyOf row)) = true ↔
      keyOf row ∈ tables.samples.map keyOf := by
    simp only [List.any_eq_true, decide_eq_true_eq, List.mem_map]
  unfold upsertSample upsert
  simp only [named, known, decide_eq_true_eq]

/-- Only what a report teaches reaches the samples. -/
theorem samples_withWindow (windows : List QuotaWindow) (id : AccountId) (observedAt : Timestamp)
    (tables : Tables) (window : NewWindow) :
    (withWindow runtime windows id observedAt tables window).samples =
      (window.sample runtime id observedAt).toList.foldl (fun samples row => upsert row samples) tables.samples := by
  unfold withWindow recorded
  cases window.sample runtime id observedAt with
  | none => rfl
  | some row => exact samples_upsertSample row _

theorem samples_replaced (report : Report) (tables : Tables) :
    (replaced runtime report.accountId report.windows report.observedAt tables).samples =
      (samplesOf runtime report).foldl (fun samples row => upsert row samples) tables.samples := by
  have each (items : List NewWindow) (windows : List QuotaWindow) (tables : Tables) :
      (items.foldl (withWindow runtime windows report.accountId report.observedAt) tables).samples =
        (items.filterMap (·.sample runtime report.accountId report.observedAt)).foldl
          (fun samples row => upsert row samples) tables.samples := by
    induction items generalizing tables with
    | nil => rfl
    | cons window rest ih =>
      rw [List.foldl_cons, ih, samples_withWindow, List.filterMap_cons]
      cases window.sample runtime report.accountId report.observedAt <;> rfl
  exact each _ _ _

theorem samples_stored (reports : List Report) (tables : Tables) :
    (stored runtime reports tables).samples =
      (reports.flatMap (samplesOf runtime)).foldl (fun samples row => upsert row samples) tables.samples := by
  induction reports generalizing tables with
  | nil => rfl
  | cons report rest ih =>
    have step : stored runtime (report :: rest) tables = stored runtime rest
        (replaced runtime report.accountId report.windows report.observedAt tables) := rfl
    rw [step, ih, samples_replaced, List.flatMap_cons, List.foldl_append]

/-- The requests are those from before. -/
theorem events_stored (reports : List Report) (tables : Tables) :
    (stored runtime reports tables).events = tables.events := by
  induction reports generalizing tables with
  | nil => rfl
  | cons report rest ih =>
    obtain ⟨rows, samples, same⟩ := replaced_frame runtime report.accountId report.windows report.observedAt tables
    have step : stored runtime (report :: rest) tables = stored runtime rest
        (replaced runtime report.accountId report.windows report.observedAt tables) := rfl
    rw [step, ih, same]

/-- The samples hold of each window what was said of it last. -/
structure Lasts (rows samples : List QuotaSample) : Prop where
  keys : Distinct keyOf samples
  last : ∀ sample, sample ∈ samples ↔ (rows.filter fun row => keyOf row = keyOf sample).getLast? = some sample

theorem Lasts.upsert {rows samples : List QuotaSample} (lasts : Lasts rows samples) (row : QuotaSample) :
    Lasts (rows ++ [row]) (upsert row samples) := by
  have last (sample : QuotaSample) :
      ((rows ++ [row]).filter fun other => keyOf other = keyOf sample).getLast? = some sample ↔
        if keyOf row = keyOf sample then row = sample else sample ∈ samples := by
    rw [List.filter_append, List.filter_singleton]
    by_cases same : keyOf row = keyOf sample
    · simp [same]
    · rw [if_neg same, lasts.last]
      simp [same]
  unfold Calibrations.upsert
  by_cases known : keyOf row ∈ samples.map keyOf
  · rw [if_pos known]
    have keys : ∀ sample : QuotaSample, keyOf (if keyOf sample = keyOf row then row else sample) = keyOf sample := by
      intro sample
      split
      next same => exact same.symm
      next => rfl
    refine ⟨lasts.keys.map keys, fun sample => ?_⟩
    rw [last, List.mem_map]
    by_cases same : keyOf row = keyOf sample
    · rw [if_pos same]
      constructor
      · rintro ⟨old, _, rfl⟩
        rw [keys] at same
        exact (if_pos same.symm).symm
      · rintro rfl
        obtain ⟨old, held, named⟩ := List.mem_map.mp known
        exact ⟨old, held, if_pos named⟩
    · rw [if_neg same]
      constructor
      · rintro ⟨old, held, rfl⟩
        rw [keys] at same
        rwa [if_neg fun equal => same equal.symm]
      · intro held
        exact ⟨sample, held, if_neg fun equal => same equal.symm⟩
  · rw [if_neg known]
    have free : ∀ other ∈ samples, keyOf other ≠ keyOf row := fun other held same =>
      known (List.mem_map.mpr ⟨other, held, same⟩)
    refine ⟨lasts.keys.append_singleton free, fun sample => ?_⟩
    rw [last, List.mem_append, List.mem_singleton]
    by_cases same : keyOf row = keyOf sample
    · rw [if_pos same]
      exact ⟨fun member => member.elim (fun held => absurd same.symm (free sample held)) Eq.symm, fun equal =>
        .inr equal.symm⟩
    · rw [if_neg same]
      exact ⟨fun member => member.resolve_right fun equal => same (congrArg keyOf equal).symm, .inl⟩

theorem lasts_foldl (rows : List QuotaSample) :
    Lasts rows (rows.foldl (fun samples row => upsert row samples) []) := by
  induction rows using List.reverseRecOn with
  | nil => exact ⟨List.Pairwise.nil, by simp⟩
  | append_singleton rows row ih =>
    rw [List.foldl_append]
    exact ih.upsert row

section Rates
variable {value : Sql.Float64 → ℚ} {reports : List Report} {tables : Tables} {window : QuotaWindow}
  {now : Timestamp}

/-- A window of the credential teaches a rate: its last report is recent and says that enough of it was
used, for requests that cost something. -/
def TeachesRate (runtime : Sql.Runtime) (value : Sql.Float64 → ℚ) (reports : List Report) (tables : Tables)
    (window : QuotaWindow) (now startedAt : Timestamp) (rate : ℚ) : Prop :=
  ∃ said, lastSaid runtime reports window.accountId window.windowKey startedAt = some said ∧
    now - horizon ≤ said.observedAt ∧ minUsedFraction ≤ value said.usedFraction ∧
    0 < listCost value (usedBetween tables window startedAt said.observedAt) ∧
    rate = value said.usedFraction / listCost value (usedBetween tables window startedAt said.observedAt)

/-- The tables once the reports were stored over none. -/
def taughtBy (runtime : Sql.Runtime) (reports : List Report) (tables : Tables) : Tables :=
  stored runtime reports { tables with samples := [] }

theorem lasts_taught (reports : List Report) (tables : Tables) :
    Lasts (reports.flatMap (samplesOf runtime)) (taughtBy runtime reports tables).samples := by
  unfold taughtBy
  rw [samples_stored]
  exact lasts_foldl _

theorem usedBetween_taught (start finish : Timestamp) :
    usedBetween (taughtBy runtime reports tables) window start finish = usedBetween tables window start finish := by
  unfold usedBetween taughtBy
  rw [events_stored]

/-- The stored samples that the rate is learned from. -/
def recent (value : Sql.Float64 → ℚ) (tables : Tables) (window : QuotaWindow) (now : Timestamp) :
    List QuotaSample :=
  tables.samples.filter fun sample => sample.accountId = window.accountId &&
    sample.windowKey = window.windowKey && now - horizon ≤ sample.observedAt &&
    minUsedFraction ≤ value sample.usedFraction

theorem mem_rates (startedAt : Timestamp) (rate : ℚ) :
    (startedAt, rate) ∈ rates value (taughtBy runtime reports tables) window now ↔
      TeachesRate runtime value reports tables window now startedAt rate := by
  have said (sample : QuotaSample) (named : keyOf sample = (window.accountId, window.windowKey, startedAt)) :
      sample ∈ (taughtBy runtime reports tables).samples ↔
        lastSaid runtime reports window.accountId window.windowKey startedAt = some sample := by
    rw [(lasts_taught reports tables).last, named]
    rfl
  simp only [rates, List.mem_filterMap, List.mem_insertionSort, List.mem_filter, Bool.and_eq_true,
    decide_eq_true_eq, usedBetween_taught]
  constructor
  · rintro ⟨sample, ⟨held, ⟨⟨account, key⟩, near⟩, used⟩, taught⟩
    split at taught
    next spent =>
      cases taught
      refine ⟨sample, (said sample ?_).mp held, near, used, spent, rfl⟩
      rw [← account, ← key]
      rfl
    next => cases taught
  · rintro ⟨sample, last, near, used, spent, rfl⟩
    have named : keyOf sample = (window.accountId, window.windowKey, startedAt) := by
      simpa using (List.mem_filter.mp (List.mem_of_getLast? last)).2
    have held := (said sample named).mpr last
    simp only [keyOf, Prod.mk.injEq] at named
    obtain ⟨account, key, rfl⟩ := named
    exact ⟨sample, ⟨held, ⟨⟨account, key⟩, near⟩, used⟩, if_pos spent⟩

/-- No two windows that teach start together, and the newest is the first. -/
theorem rates_ordered (value : Sql.Float64 → ℚ) (reports : List Report) (tables : Tables) (window : QuotaWindow)
    (now : Timestamp) :
    (rates value (taughtBy runtime reports tables) window now).Pairwise fun first second => second.1 < first.1 := by
  have total : Std.Total fun first second : QuotaSample => second.startedAt ≤ first.startedAt :=
    ⟨fun first second => le_total second.startedAt first.startedAt⟩
  have trans : IsTrans QuotaSample fun first second => second.startedAt ≤ first.startedAt :=
    ⟨fun _ _ _ early late => le_trans late early⟩
  have sorted := List.pairwise_insertionSort
    (fun first second : QuotaSample => second.startedAt ≤ first.startedAt)
    (recent value (taughtBy runtime reports tables) window now)
  have apart : (recent value (taughtBy runtime reports tables) window now).Pairwise fun first second =>
      first.startedAt ≠ second.startedAt := by
    refine (List.Pairwise.filter _ (lasts_taught reports tables).keys).imp_of_mem ?_
    intro first second left right keys same
    have one := (List.mem_filter.mp left).2
    have two := (List.mem_filter.mp right).2
    simp only [Bool.and_eq_true, decide_eq_true_eq] at one two
    apply keys
    unfold keyOf
    rw [one.1.1.1, one.1.1.2, two.1.1.1, two.1.1.2, same]
  have newest := ((List.perm_insertionSort (fun first second : QuotaSample =>
    second.startedAt ≤ first.startedAt) _).pairwise_iff Ne.symm).mpr apart
  refine List.Pairwise.filterMap _ ?_ (sorted.and newest)
  rintro first second ⟨order, differs⟩ one taught two learned
  have spent {sample : QuotaSample} {rate : Timestamp × ℚ} {cost : ℚ}
      (taught : (if 0 < cost then some (sample.startedAt, value sample.usedFraction / cost) else none) =
        some rate) : rate.1 = sample.startedAt := by
    split at taught
    next =>
      cases taught
      rfl
    next => cases taught
  rw [spent taught, spent learned]
  exact lt_of_le_of_ne order differs.symm

end Rates

section Learning
variable {taught : List (Timestamp × ℚ)}

/-- What is learned of the rates of some windows, the newest first. -/
structure Learned (taught : List (Timestamp × ℚ)) (calibration : Calibration) : Prop where
  windows : calibration.windows = taught.length
  /-- Fewer than half of the windows move the rate nowhere the others are not. -/
  resists : ∀ low high, taught.length < 2 * taught.countP (fun rate => low ≤ rate.2 ∧ rate.2 ≤ high) →
    low ≤ calibration.fractionPerUsd ∧ calibration.fractionPerUsd ≤ high
  /-- The windows whose rate is less than half of the learned one or more than twice as much. -/
  outliers : calibration.outliers = (taught.filter fun rate =>
    2 * rate.2 < calibration.fractionPerUsd ∨ 2 * calibration.fractionPerUsd < rate.2).map fun rate =>
      ⟨rate.1, rate.2⟩

theorem median_eq_none {sorted : List ℚ} : median sorted = none ↔ sorted = [] := by
  unfold median
  rw [Option.map_eq_none_iff, List.getElem?_eq_none_iff]
  constructor
  · intro short
    exact List.length_eq_zero_iff.mp (by omega)
  · rintro rfl
    exact le_refl _

/-- The median is between bounds that hold for more than half of the rates. -/
theorem median_between {sorted : List ℚ} {middle low high : ℚ} (ordered : sorted.Pairwise (· ≤ ·))
    (found : median sorted = some middle)
    (most : sorted.length < 2 * sorted.countP fun rate => low ≤ rate ∧ rate ≤ high) :
    low ≤ middle ∧ middle ≤ high := by
  obtain ⟨upper, placed, rfl⟩ := Option.map_eq_some_iff.mp found
  obtain ⟨above, below⟩ := middle_between ordered placed (by omega) (by omega) most
  split
  next even =>
    obtain ⟨inside, -⟩ := List.getElem?_eq_some_iff.mp placed
    have before : sorted.length / 2 - 1 < sorted.length := by omega
    have lower := List.getElem?_eq_getElem before
    rw [List.getD_eq_getElem?_getD, lower, Option.getD_some]
    have both := middle_between ordered lower (by omega) (by omega) most
    constructor
    · linarith [both.1]
    · linarith [both.2]
  next => exact ⟨above, below⟩

/-- A rate is off by the factor, either way. -/
theorem off_iff {rate middle : ℚ} (positive : 0 < middle) :
    ¬(1 / outlierFactor ≤ rate / middle ∧ rate / middle ≤ outlierFactor) ↔
      2 * rate < middle ∨ 2 * middle < rate := by
  unfold outlierFactor
  rw [not_and_or, not_le, not_le, div_lt_div_iff₀ positive (by norm_num), lt_div_iff₀ positive, one_mul,
    mul_comm rate 2]

theorem learned_of_learn {value : Sql.Float64 → ℚ} {tables : Tables} {window : QuotaWindow} {now : Timestamp}
    {calibration : Calibration} (learned : learn value tables window now = some calibration) :
    Learned (rates value tables window now) calibration := by
  unfold learn at learned
  split at learned
  next => cases learned
  next =>
    dsimp only at learned
    split at learned
    next => cases learned
    next middle found =>
      cases learned
      have positive : 0 < middle := median_positive (fun rate member => by
        obtain ⟨sample, taught, rfl⟩ := List.mem_map.mp ((List.mem_insertionSort _).mp member)
        exact rates_positive taught) found
      refine ⟨rfl, ?_, ?_⟩
      · intro low high most
        have perm := List.perm_insertionSort (· ≤ ·) ((rates value tables window now).map Prod.snd)
        refine median_between (List.pairwise_insertionSort _ _) found ?_
        rw [perm.length_eq, perm.countP_eq, List.length_map, List.countP_map]
        exact most
      · rw [← List.filterMap_eq_filter, List.map_filterMap]
        apply List.filterMap_congr
        rintro ⟨startedAt, rate⟩ -
        dsimp only
        have off := @off_iff rate middle positive
        by_cases far : 2 * rate < middle ∨ 2 * middle < rate
        · rw [if_neg (off.mpr far)]
          simp [Option.guard, far]
        · rw [if_pos (not_not.mp (off.not.mpr far))]
          simp [Option.guard, far]

theorem learn_eq_none {value : Sql.Float64 → ℚ} {tables : Tables} {window : QuotaWindow} {now : Timestamp} :
    learn value tables window now = none ↔ scopeOf window.scope = .unmetered ∨ window.unit = some requests ∨
      rates value tables window now = [] := by
  unfold learn
  split
  next unlearned => simp [← or_assoc, unlearned]
  next metered =>
    rw [← or_assoc, or_iff_right metered]
    dsimp only
    have empty : median (((rates value tables window now).map Prod.snd).insertionSort (· ≤ ·)) = none ↔
        rates value tables window now = [] := by
      rw [median_eq_none, ← List.length_eq_zero_iff, List.length_insertionSort, List.length_map,
        List.length_eq_zero_iff]
    split
    next none_found => exact iff_of_true rfl (empty.mp none_found)
    next middle found =>
      refine iff_of_false nofun fun untaught => ?_
      rw [empty.mpr untaught] at found
      cases found

end Learning

/-- However the windows of the credentials were reported, and in whatever order, each window teaches once,
by its last report; and of what they teach, the rate is learned so that fewer than half of them cannot move
it beyond the others, and those it is far from are the ones named. -/
theorem courtesies_do_not_move_the_rate (runtime : Sql.Runtime) (value : Sql.Float64 → ℚ)
    (reports : List Report) (tables : Tables) (window : QuotaWindow) (now : Timestamp) :
    ∃ taught : List (Timestamp × ℚ),
      taught.Pairwise (fun first second => second.1 < first.1) ∧
      (∀ startedAt rate, (startedAt, rate) ∈ taught ↔
        TeachesRate runtime value reports tables window now startedAt rate) ∧
      (learn value (taughtBy runtime reports tables) window now = none ↔
        scopeOf window.scope = .unmetered ∨ window.unit = some requests ∨ taught = []) ∧
      ∀ calibration, learn value (taughtBy runtime reports tables) window now = some calibration →
        Learned taught calibration :=
  ⟨rates value (taughtBy runtime reports tables) window now, rates_ordered _ _ _ _ _, mem_rates, learn_eq_none,
    fun _ => learned_of_learn⟩

end MeteredUsage.Quota.Calibrations
