import Mathlib.Data.Int.Interval
import MeteredUsage.Analytics.Charts
import MeteredUsage.Analytics.Sessions

/-! One window in figures. The days come in any order and their costs can tie, yet the answer is one: the
totals of the table, the earliest of the days that cost or used most, and a rate over the days tracked. -/

namespace MeteredUsage.Analytics.Summaries
open MeteredUsage.Store.Sql (Order)
open MeteredUsage.Values MeteredUsage.Store.Schema MeteredUsage.Codec MeteredUsage.Analytics.Filter
open MeteredUsage.Analytics.Metrics MeteredUsage.Analytics.Query MeteredUsage.Library.Outcome
open MeteredUsage.Library.Calendar MeteredUsage.Library.Reading MeteredUsage.Library.Ranking
open MeteredUsage.Analytics.UtcBuckets
open MeteredUsage.Analytics.RunningSums (Bounded Held)
open MeteredUsage.Analytics.Series (Aggregate aggregateOf Bucket Dates Dimension RankBy toDatetime utcDates)

/-- What the libraries of dates answer, with dates read back as days since the epoch. -/
structure DateReader extends Dates where
  /-- `str::parse` of a `Date`. -/
  parse : String → Option Int

structure PeakDay where
  day : Int
  listCostUsd : ℚ
  totalTokens : Int
deriving DecidableEq

/-- The window's totals spread over every day it covers since the first event ever recorded. -/
structure DailyBurn where
  listCostUsd : ℚ
  billedCostUsd : ℚ
  totalTokens : Int
deriving DecidableEq

/-- How many values of each dimension the window holds. -/
structure DistinctCounts where
  models : Nat
  providers : Nat
  accounts : Nat
  harnesses : Nat
  sources : Nat
  sessions : Nat
deriving DecidableEq

structure Overall where
  distinct : DistinctCounts
  activeDays : Nat
  cacheHitRate : Option ℚ

structure DayRow where
  day : String
  aggregate : Aggregate

structure Summary where
  metrics : UsageMetrics
  /-- Local days the window covers, from its first day to the day of its last instant. -/
  rangeDays : Int
  /-- Local days with at least one event. -/
  activeDays : Nat
  dailyBurn : DailyBurn
  peakDayByCost : Option PeakDay
  peakDayByTokens : Option PeakDay
  /-- Cache reads over all input; absent when there was no input. -/
  cacheHitRate : Option ℚ
  distinct : DistinctCounts

/-- `COUNT(DISTINCT …)`, which passes over NULL. -/
def countDistinct {Value : Type} [DecidableEq Value] (column : Joined → Option Value) (rows : List Joined) : Nat :=
  (rows.filterMap column).dedup.length

/-- `Overall::load`. -/
def Overall.load (dates : Dates) (shift : Shift) (selected : List Joined) : Overall :=
  let input := total (fun row => some row.event.inputTokens) selected
  { distinct :=
      { models := countDistinct (some ·.event.model) selected
        providers := countDistinct (some ·.event.provider) selected
        accounts := countDistinct (some ·.event.accountId) selected
        harnesses := countDistinct (some <| harnessKey ·.event) selected
        sources := countDistinct (some ·.event.sourceId) selected
        sessions := countDistinct (·.event.sessionId) selected }
    activeDays := countDistinct (Bucket.day.expression dates shift ·.event) selected
    cacheHitRate := if input = 0 then none
      else some (total (fun row => some row.event.cacheReadTokens) selected / input) }

/-- The local day of an instant. -/
def localDay (zone : TimeZone) (instant : Timestamp) : Int := toDatetime zone instant / hours 24

/-- `range_days`: the local days from an instant to the last of the window. -/
def rangeDays (filter : AnalyticsFilter) (start : Timestamp) : Except AnalyticsError Int :=
  let first := localDay filter.timeZone start
  if filter.finish - 1 < firstInstant then .error .window
  else
    let last := localDay filter.timeZone (filter.finish - 1)
    .ok (if last < first then 0 else last - first + 1)

/-- The days of the rate: none before the first event ever recorded. -/
def burnDays (filter : AnalyticsFilter) (start : Option Timestamp) (recorded : Option Recorded) :
    Except AnalyticsError Int :=
  match start, recorded with
  | some start, some recorded => rangeDays filter (max start recorded.first)
  | _, _ => .ok 0

/-- The days of the window, none where it has neither a start nor an event. -/
def windowDays (filter : AnalyticsFilter) : Option Timestamp → Except AnalyticsError Int
  | some start => rangeDays filter start
  | none => .ok 0

/-- What the days so far come to. -/
structure Progress where
  metrics : UsageMetrics
  peakDayByCost : Option PeakDay
  peakDayByTokens : Option PeakDay
  firstAt : Option Timestamp

def peakOf (row : Int × Aggregate) : PeakDay := ⟨row.1, row.2.metrics.listCostUsd, row.2.metrics.totalTokens⟩

/-- Adds a day. A day that only equals the held peak leaves it. -/
def step (progress : Progress) (row : Int × Aggregate) : Progress where
  metrics := plus progress.metrics row.2.metrics
  peakDayByCost := exceeding PeakDay.listCostUsd progress.peakDayByCost (peakOf row)
  peakDayByTokens := exceeding PeakDay.totalTokens progress.peakDayByTokens (peakOf row)
  firstAt := some (progress.firstAt.elim row.2.firstAt fun earlier => min earlier row.2.firstAt)

/-- A NULL day decodes as the empty text. -/
def decode (row : Option String × Aggregate) : DayRow := ⟨row.1.getD "", row.2⟩

def parse (reader : DateReader) (row : DayRow) : Except AnalyticsError (Int × Aggregate) :=
  match reader.parse row.day with
  | some day => .ok (day, row.aggregate)
  | none => .error (.unreadable "occurred_at" row.day)

/-- The totals over some days, at a rate of none where there are no days. -/
def burn (metrics : UsageMetrics) (days : Int) : DailyBurn :=
  if 0 < days then ⟨metrics.listCostUsd / days, metrics.billedCostUsd / days, metrics.totalTokens.tdiv days⟩
  else ⟨0, 0, 0⟩

/-- `Summary::load`. -/
def load (reader : DateReader) (tables : Tables) (order : Order (Option String × Aggregate)) (stored : List Joined)
    (filter : AnalyticsFilter) : Except AnalyticsError Summary := do
  filter.check tables
  let recorded := Recorded.load (stored.map Joined.event)
  let shift := filter.shift recorded
  let selected := stored.filter (filter.selects ·.event)
  let listed ← aggregate (Bucket.day.expression reader.toDates shift ·.event) selected
  let days := (order.arrange listed).map decode
  let overall := Overall.load reader.toDates shift selected
  let parsed ← days.mapM (parse reader)
  let progress := (parsed.insertionSort fun left right => left.1 ≤ right.1).foldl step ⟨0, none, none, none⟩
  let start := filter.start.or progress.firstAt
  let tracked ← burnDays filter start recorded
  let range ← windowDays filter start
  return {
    metrics := progress.metrics
    rangeDays := range
    activeDays := overall.activeDays
    dailyBurn := burn progress.metrics tracked
    peakDayByCost := progress.peakDayByCost
    peakDayByTokens := progress.peakDayByTokens
    cacheHitRate := overall.cacheHitRate
    distinct := overall.distinct }

/-- How many values of a dimension a summary counts. -/
def DistinctCounts.of (counts : DistinctCounts) : Dimension → Nat
  | .model => counts.models
  | .provider => counts.providers
  | .account => counts.accounts
  | .harness => counts.harnesses
  | .source => counts.sources
  | .session => counts.sessions

/-- What the libraries of dates answer of a zone's local times: the text of a second, shifted by the zone's
offset, is cut after its day, and that text reads as the day. -/
structure InZone (reader : DateReader) (zone : TimeZone) : Prop where
  date : ∀ instant, Printable instant → Printable (toDatetime zone instant) →
    reader.date (String.ofList (dateTime (secondOf instant))) [modifier (zone.toOffset instant)] =
      some (String.ofList ((dateTime (secondOf (toDatetime zone instant))).take 10))
  parse : ∀ second, FourDigits second →
    reader.parse (String.ofList ((dateTime second).take 10)) = some (second / daySeconds)

/-- The events of a local day. -/
def onDay (zone : TimeZone) (day : Int) (events : List Joined) : List Joined :=
  events.filter fun row => localDay zone row.event.occurredAt = day

def daysOf (zone : TimeZone) (events : List Joined) : List Int :=
  events.map fun row => localDay zone row.event.occurredAt

/-- The day of the greatest measure, the earliest of those, with all that its events add up to. -/
structure Peaks {Measure : Type} [LinearOrder Measure] (measure : UsageMetrics → Measure) (zone : TimeZone)
    (events : List Joined) (peak : PeakDay) : Prop where
  held : peak.day ∈ daysOf zone events
  first : ∀ day ∈ daysOf zone events,
    measure (metrics (onDay zone day events)) < measure (metrics (onDay zone peak.day events)) ∨
      measure (metrics (onDay zone day events)) = measure (metrics (onDay zone peak.day events)) ∧ peak.day ≤ day
  figures : peak = ⟨peak.day, (metrics (onDay zone peak.day events)).listCostUsd,
    (metrics (onDay zone peak.day events)).totalTokens⟩

/-- Bounds of the dates there are, and events of the years 0 to 9999, on the clock of the zone as well. -/
structure Dated (stored : List Joined) (filter : AnalyticsFilter) : Prop where
  events : ∀ row ∈ stored, Printable row.event.occurredAt
  clocks : ∀ row ∈ stored, Printable (toDatetime filter.timeZone row.event.occurredAt)
  starts : ∀ start, filter.start = some start → firstInstant ≤ start ∧ start ≤ lastInstant
  ends : firstInstant < filter.finish

section Days
variable {reader : DateReader} {stored : List Joined} {filter : AnalyticsFilter}

theorem Dated.represented (dated : Dated stored filter) {row : Joined} (member : row ∈ stored) :
    Representable row.event.occurredAt :=
  ⟨lt_of_lt_of_le (by decide) (dated.events row member).1, (dated.events row member).2⟩

/-- What the statement shifts an event by is the zone's offset at its instant. -/
theorem eval_shift (dated : Dated stored filter) {row : Joined} (member : row ∈ stored)
    (selected : filter.selects row.event = true) :
    (filter.shift (Recorded.load (stored.map Joined.event))).push.eval (Codec.stored row.event.occurredAt) =
      modifier (filter.timeZone.toOffset row.event.occurredAt) := by
  have listed : row.event ∈ stored.map Joined.event := List.mem_map_of_mem member
  have held : ∀ event ∈ stored.map Joined.event, Representable event.occurredAt := by
    intro event known
    obtain ⟨other, there, rfl⟩ := List.mem_map.mp known
    exact dated.represented there
  have printable := dated.events row member
  have starts : ∀ start, filter.start = some start → Representable start := fun start given =>
    Rollups.representable_of_bounds (dated.starts start given).1 (dated.starts start given).2
  have ends : Representable filter.finish := Rollups.representable_of_bounds dated.ends.le filter.held
  obtain ⟨recorded, loaded⟩ := Shift.load_isSome listed
  have readable : ∀ change ∈ (filter.shift (some recorded)).changes, Representable change.1 ∧
      (Printable change.1 ∨ Printable row.event.occurredAt) := fun change kept =>
    ⟨filter.timeZone.held change (Shift.mem_zone_of_mem_shift kept), .inr printable⟩
  obtain ⟨after, before⟩ := Shift.stretch_of_printable loaded held starts ends listed selected printable
  rw [loaded, Shift.eval_push _ (held row.event listed) readable]
  exact congrArg modifier (Shift.find_cut filter.timeZone.changes.reverse after before)

/-- The text of a day. -/
def dayKey (zone : TimeZone) (row : Joined) : String :=
  String.ofList ((dateTime (secondOf (toDatetime zone row.event.occurredAt))).take 10)

theorem expression_eq (zoned : InZone reader filter.timeZone) (dated : Dated stored filter) {row : Joined}
    (member : row ∈ stored) (selected : filter.selects row.event = true) :
    Bucket.day.expression reader.toDates (filter.shift (Recorded.load (stored.map Joined.event))) row.event =
      some (dayKey filter.timeZone row) := by
  have date := zoned.date row.event.occurredAt (dated.events row member) (dated.clocks row member)
  change reader.date (String.ofList ((Codec.stored row.event.occurredAt).toList.take 19))
    [(filter.shift (Recorded.load (stored.map Joined.event))).push.eval (Codec.stored row.event.occurredAt)] = _
  rw [take_stored (dated.events row member), eval_shift dated member selected]
  exact date

theorem parse_dayKey (zoned : InZone reader filter.timeZone) (dated : Dated stored filter) {row : Joined}
    (member : row ∈ stored) :
    reader.parse (dayKey filter.timeZone row) = some (localDay filter.timeZone row.event.occurredAt) := by
  have day : secondOf (toDatetime filter.timeZone row.event.occurredAt) / daySeconds =
      localDay filter.timeZone row.event.occurredAt := by
    unfold localDay secondOf daySeconds hours minutes seconds
    omega
  unfold dayKey
  rw [zoned.parse _ (dated.clocks row member), day]

/-- Days of one number have one text. -/
theorem dayKey_eq (dated : Dated stored filter) {row other : Joined} (member : row ∈ stored)
    (held : other ∈ stored) (same : localDay filter.timeZone row.event.occurredAt =
      localDay filter.timeZone other.event.occurredAt) : dayKey filter.timeZone row = dayKey filter.timeZone other := by
  have text {row : Joined} (member : row ∈ stored) : dayKey filter.timeZone row =
      String.ofList (dayText (secondOf (toDatetime filter.timeZone row.event.occurredAt))) := by
    have length := length_dayText (dated.clocks row member)
    obtain ⟨rest, written⟩ := dateTime_eq .day (secondOf (toDatetime filter.timeZone row.event.occurredAt))
    unfold dayKey
    rw [written]
    exact congrArg String.ofList (List.take_left' length)
  have day : secondOf (toDatetime filter.timeZone row.event.occurredAt) / daySeconds =
      secondOf (toDatetime filter.timeZone other.event.occurredAt) / daySeconds := by
    unfold localDay hours minutes seconds at same
    unfold secondOf daySeconds
    omega
  rw [text member, text held]
  unfold dayText yearAt ordinalAt
  rw [day]

/-- The rows of the statement read as the days of the events, each with its events. -/
theorem parsed_shared (zoned : InZone reader filter.timeZone) (dated : Dated stored filter)
    {rows : List (Option String × Aggregate)}
    (shared : Shared (Bucket.day.expression reader.toDates
      (filter.shift (Recorded.load (stored.map Joined.event))) ·.event)
        (stored.filter (filter.selects ·.event)) rows) :
    ∃ parsed, (rows.map decode).mapM (parse reader) = .ok parsed ∧
      Shared (fun row => localDay filter.timeZone row.event.occurredAt) (stored.filter (filter.selects ·.event))
        parsed := by
  have keyed : ∀ row ∈ stored.filter (filter.selects ·.event), Bucket.day.expression reader.toDates
      (filter.shift (Recorded.load (stored.map Joined.event))) row.event = some (dayKey filter.timeZone row) := by
    intro row member
    obtain ⟨held, selected⟩ := List.mem_filter.mp member
    exact expression_eq zoned dated held selected
  let name (column : Option String) : Int := (reader.parse (column.getD "")).getD 0
  have reads : ∀ row ∈ rows, ∃ text, row.1 = some text ∧ reader.parse text = some (name row.1) := by
    intro row member
    obtain ⟨event, held, named⟩ := List.mem_map.mp ((shared.known _).mp (List.mem_map_of_mem member))
    have text : row.1 = some (dayKey filter.timeZone event) := named.symm.trans (keyed event held)
    refine ⟨_, text, ?_⟩
    simp only [name, text, Option.getD_some]
    rw [parse_dayKey zoned dated (List.mem_of_mem_filter held)]
    rfl
  refine ⟨rows.map fun row => (name row.1, row.2), ?_, ?_⟩
  · rw [List.mapM_map]
    apply mapM_ok
    intro row member
    obtain ⟨text, column, parsed⟩ := reads row member
    have found : reader.parse (row.1.getD "") = some (name row.1) := by rw [column, Option.getD_some, parsed, column]
    simp only [Function.comp, decode, parse, found]
  · apply shared.rename
    · intro row member
      simp only [name, keyed row member, Option.getD_some]
      rw [parse_dayKey zoned dated (List.mem_of_mem_filter member)]
      rfl
    · intro row member other held same
      rw [keyed row member, keyed other held,
        dayKey_eq dated (List.mem_of_mem_filter member) (List.mem_of_mem_filter held) same]

end Days

section Fold
variable {zone : TimeZone} {events : List Joined} {rows : List (Int × Aggregate)}

/-- What the rows so far come to, each part on its own. -/
theorem foldl_step (rows : List (Int × Aggregate)) (additive : Additive (rows.map (·.2.metrics))) :
    rows.foldl step ⟨0, none, none, none⟩ =
      ⟨(rows.map (·.2.metrics)).sum, (rows.map peakOf).foldl (exceeding PeakDay.listCostUsd) none,
        (rows.map peakOf).foldl (exceeding PeakDay.totalTokens) none, (rows.map (·.2.firstAt)).min?⟩ := by
  induction rows using List.reverseRecOn with
  | nil => rfl
  | append_singleton rows row ih =>
    have least : ((rows ++ [row]).map (·.2.firstAt)).min? =
        some ((rows.map (·.2.firstAt)).min?.elim row.2.firstAt fun earlier => min earlier row.2.firstAt) := by
      cases rows with
      | nil => rfl
      | cons first rest =>
        rw [List.map_append, List.map_cons, List.cons_append, List.min?_cons', List.min?_cons', List.foldl_append]
        rfl
    have before := additive.sublist ((List.sublist_append_left rows [row]).map _)
    have whole := additive _ (List.Sublist.refl _)
    rw [List.map_append, List.sum_append, List.map_singleton, List.sum_singleton] at whole
    rw [List.foldl_append, List.foldl_cons, List.foldl_nil, ih before, least]
    unfold step
    simp only [plus_eq whole, List.map_append, List.map_singleton, List.sum_append, List.sum_singleton,
      List.foldl_append, List.foldl_cons, List.foldl_nil]

/-- The peak of a window's days is the first that no other exceeds. -/
theorem peaks_of_shared {Measure : Type} [LinearOrder Measure] {measure : UsageMetrics → Measure}
    {figure : PeakDay → Measure} (reads : ∀ row, figure (peakOf row) = measure row.2.metrics)
    (shared : Shared (fun row => localDay zone row.event.occurredAt) events rows)
    (ordered : rows.Pairwise fun left right => left.1 ≤ right.1) :
    ((rows.map peakOf).foldl (exceeding figure) none).elim (events = []) (Peaks measure zone events) := by
  have sorted : (rows.map peakOf).Pairwise fun left right => left.day ≤ right.day := List.pairwise_map.mpr ordered
  have leads := @foldl_exceeding _ _ _ _ _ PeakDay.day figure _ sorted
  have measures (row : Int × Aggregate) (member : row ∈ rows) :
      figure (peakOf row) = measure (metrics (onDay zone row.1 events)) := by
    rw [reads, shared.metrics_eq member]
    rfl
  cases found : (rows.map peakOf).foldl (exceeding figure) none with
  | none =>
    rw [found] at leads
    have empty : rows = [] := List.map_eq_nil_iff.mp leads
    apply List.eq_nil_iff_forall_not_mem.mpr
    intro event member
    have listed := (shared.known _).mpr (List.mem_map_of_mem member)
    rw [empty] at listed
    cases listed
  | some peak =>
    rw [found] at leads
    obtain ⟨member, least⟩ := leads
    obtain ⟨row, listed, rfl⟩ := List.mem_map.mp member
    refine ⟨(shared.known row.1).mp (List.mem_map_of_mem listed), ?_, ?_⟩
    · intro day held
      obtain ⟨other, also, rfl⟩ := List.mem_map.mp ((shared.known day).mpr held)
      have before := least (peakOf other) (List.mem_map_of_mem also)
      unfold Before at before
      rw [measures other also, measures row listed] at before
      rcases before with less | ⟨same, earlier⟩
      · exact .inl less
      · exact .inr ⟨same.symm, earlier⟩
    · have sums := shared.metrics_eq listed
      unfold peakOf
      rw [sums]
      rfl

end Fold

section Spread
variable {reader : DateReader} {stored : List Joined} {filter : AnalyticsFilter}

/-- Where a window starts: where it is asked to, else with the first of its events. -/
def startOf (filter : AnalyticsFilter) (selected : List Joined) : Option Timestamp :=
  filter.start.or (selected.map (·.event.occurredAt)).min?

/-- Where the days of the rate start: with the window, or later with the first event ever recorded. -/
def trackedFrom (filter : AnalyticsFilter) (stored : List Joined) : Option Timestamp := do
  let start ← startOf filter (stored.filter (filter.selects ·.event))
  let since ← (stored.map (·.event.occurredAt)).min?
  return max start since

/-- The local days from an instant to the last of the window. -/
def covered (filter : AnalyticsFilter) (start : Timestamp) : Int :=
  max 0 (localDay filter.timeZone (filter.finish - 1) - localDay filter.timeZone start + 1)

/-- A clock whose days never go back in a window. -/
def Steady (filter : AnalyticsFilter) (start : Timestamp) : Prop :=
  ∀ earlier later : Timestamp, (start : Int) ≤ earlier → (earlier : Int) ≤ later →
    (later : Int) < filter.finish → localDay filter.timeZone earlier ≤ localDay filter.timeZone later

theorem rangeDays_eq (ends : firstInstant < filter.finish) (start : Timestamp) :
    rangeDays filter start = .ok (covered filter start) := by
  have last : ¬filter.finish - 1 < firstInstant := not_lt.mpr (Int.le_sub_one_of_lt ends)
  unfold rangeDays covered
  rw [if_neg last]
  apply congrArg Except.ok
  split <;> omega

theorem firstAt_eq {columns : Joined → Int} {selected : List Joined} {rows : List (Int × Aggregate)}
    (printed : ∀ row ∈ selected, Printable row.event.occurredAt) (shared : Shared columns selected rows) :
    (rows.map (·.2.firstAt)).min? = (selected.map (·.event.occurredAt)).min? := by
  have spans (row : Int × Aggregate) (listed : row ∈ rows) :
      Sessions.Spans (selected.filter (columns · = row.1)) row.2.firstAt row.2.lastAt :=
    Sessions.aggregateOf_spans (shared.whole row listed) fun event member =>
      printed event (List.mem_of_mem_filter member)
  cases found : (selected.map (·.event.occurredAt)).min? with
  | none =>
    have empty : selected = [] := List.map_eq_nil_iff.mp (List.min?_eq_none_iff.mp found)
    rw [List.min?_eq_none_iff, List.map_eq_nil_iff]
    apply List.eq_nil_iff_forall_not_mem.mpr
    intro row listed
    have known := (shared.known row.1).mp (List.mem_map_of_mem listed)
    rw [empty] at known
    cases known
  | some first =>
    obtain ⟨member, least⟩ := List.min?_eq_some_iff.mp found
    have bounds : ∀ instant ∈ rows.map (·.2.firstAt), (first : Int) ≤ instant := by
      intro instant listed
      obtain ⟨row, held, rfl⟩ := List.mem_map.mp listed
      obtain ⟨event, kept, same⟩ := List.mem_map.mp (spans row held).begun
      rw [← same]
      exact least _ (List.mem_map_of_mem (List.mem_of_mem_filter kept))
    obtain ⟨event, held, rfl⟩ := List.mem_map.mp member
    obtain ⟨row, listed, named⟩ := List.mem_map.mp ((shared.known (columns event)).mpr (List.mem_map_of_mem held))
    have grouped : event ∈ selected.filter (columns · = row.1) :=
      List.mem_filter.mpr ⟨held, decide_eq_true named.symm⟩
    have same : row.2.firstAt = event.event.occurredAt :=
      le_antisymm ((spans row listed).least event grouped) (bounds _ (List.mem_map_of_mem listed))
    exact List.min?_eq_some_iff.mpr ⟨same ▸ List.mem_map_of_mem listed, bounds⟩

theorem recorded_eq (printed : ∀ row ∈ stored, Printable row.event.occurredAt) :
    (Recorded.load (stored.map Joined.event)).map Recorded.first = (stored.map (·.event.occurredAt)).min? := by
  cases loaded : Recorded.load (stored.map Joined.event) with
  | none =>
    cases stored with
    | nil => rfl
    | cons row rest =>
      have listed : row.event ∈ (row :: rest).map Joined.event := List.mem_map_of_mem List.mem_cons_self
      obtain ⟨recorded, found⟩ := Shift.load_isSome listed
      rw [found] at loaded
      cases loaded
  | some recorded =>
    obtain ⟨first, -, between⟩ := Shift.load_spec loaded
    rw [List.map_map] at first
    have shown : Printable recorded.first := by
      obtain ⟨row, held, same⟩ := List.mem_map.mp first
      rw [← same]
      exact printed row held
    refine (List.min?_eq_some_iff.mpr ⟨first, ?_⟩).symm
    intro instant member
    obtain ⟨row, held, rfl⟩ := List.mem_map.mp member
    exact (stored_le_iff shown (printed row held)).mp (between row.event (List.mem_map_of_mem held)).1

theorem burnDays_eq (dated : Dated stored filter) :
    burnDays filter (startOf filter (stored.filter (filter.selects ·.event)))
      (Recorded.load (stored.map Joined.event)) = .ok ((trackedFrom filter stored).elim 0 (covered filter)) := by
  unfold trackedFrom
  rw [← recorded_eq dated.events]
  cases startOf filter (stored.filter (filter.selects ·.event)) with
  | none => rfl
  | some start =>
    cases Recorded.load (stored.map Joined.event) with
    | none => rfl
    | some span => exact rangeDays_eq dated.ends _

theorem windowDays_eq (dated : Dated stored filter) (start : Option Timestamp) :
    windowDays filter start = .ok (start.elim 0 (covered filter)) := by
  cases start with
  | none => rfl
  | some start => exact rangeDays_eq dated.ends start

theorem within_window (dated : Dated stored filter) {row : Joined} (member : row ∈ stored)
    (selected : filter.selects row.event = true) :
    (∀ start, filter.start = some start → (start : Int) ≤ row.event.occurredAt) ∧
      (row.event.occurredAt : Int) < filter.finish := by
  have represented := dated.represented member
  have printable := dated.events row member
  have ends : Representable filter.finish := Rollups.representable_of_bounds dated.ends.le filter.held
  simp only [AnalyticsFilter.selects, Bool.and_eq_true, decide_eq_true_eq, Option.all_eq_true] at selected
  obtain ⟨⟨⟨⟨⟨⟨before, after⟩, -⟩, -⟩, -⟩, -⟩, -⟩ := selected
  constructor
  · intro start given
    have begins := Rollups.representable_of_bounds (dated.starts start given).1 (dated.starts start given).2
    exact (Shift.stored_le_iff_of_printable begins represented (.inr printable)).mp (after start given)
  · rw [← not_le] at before ⊢
    rwa [Shift.stored_le_iff_of_printable ends represented (.inr printable)] at before

/-- Every event selected is between the later of the two starts and the end. -/
theorem tracked_inside (dated : Dated stored filter) {start since : Timestamp}
    (started : startOf filter (stored.filter (filter.selects ·.event)) = some start)
    (least : (stored.map (·.event.occurredAt)).min? = some since) :
    ∀ row ∈ stored.filter (filter.selects ·.event),
      (max start since : Int) ≤ row.event.occurredAt ∧ (row.event.occurredAt : Int) < filter.finish := by
  intro row held
  obtain ⟨kept, chosen⟩ := List.mem_filter.mp held
  obtain ⟨after, before⟩ := within_window dated kept chosen
  refine ⟨max_le ?_ ((List.min?_eq_some_iff.mp least).2 _ (List.mem_map_of_mem kept)), before⟩
  rcases Option.or_eq_some_iff.mp started with given | ⟨-, first⟩
  · exact after start given
  · exact (List.min?_eq_some_iff.mp first).2 _ (List.mem_map_of_mem held)

/-- The days of events from an instant on are no more than the window covers from there. -/
theorem days_le_covered {start : Timestamp} {events : List Joined} (steady : Steady filter start)
    (inside : ∀ row ∈ events,
      (start : Int) ≤ row.event.occurredAt ∧ (row.event.occurredAt : Int) < filter.finish) :
    ((daysOf filter.timeZone events).dedup.length : Int) ≤ covered filter start := by
  let first := localDay filter.timeZone start
  let last := localDay filter.timeZone (filter.finish - 1)
  have days : (daysOf filter.timeZone events).toFinset ⊆ Finset.Icc first last := by
    intro day member
    obtain ⟨row, held, rfl⟩ := List.mem_map.mp (List.mem_toFinset.mp member)
    obtain ⟨after, before⟩ := inside row held
    have ending : (row.event.occurredAt : Int) ≤ filter.finish - 1 := Int.le_sub_one_of_lt before
    exact Finset.mem_Icc.mpr ⟨steady _ _ le_rfl after before, steady _ _ after ending (sub_one_lt _)⟩
  have counted : (daysOf filter.timeZone events).dedup.length ≤ (last + 1 - first).toNat := calc
    (daysOf filter.timeZone events).dedup.length = (daysOf filter.timeZone events).toFinset.card := rfl
    _ ≤ (Finset.Icc first last).card := Finset.card_le_card days
    _ = (last + 1 - first).toNat := Int.card_Icc first last
  unfold covered
  omega

end Spread

section Counts
variable {selected : List Joined}

theorem countDistinct_some {Value : Type} [DecidableEq Value] (column : Joined → Value) (rows : List Joined) :
    countDistinct (fun row => some (column row)) rows = (rows.map column).dedup.length := by
  unfold countDistinct
  congr 2
  exact congrFun List.filterMap_eq_map rows

/-- A summary counts the groups of a dimension that a table can list. -/
theorem distinct_eq (dates : Dates) (shift : Shift) {groupBy : Dimension} (grouped : groupBy ≠ .session) :
    (Overall.load dates shift selected).distinct.of groupBy =
      (selected.map (groupBy.expression ·.event)).dedup.length := by
  have ids (id : Joined → Nat) : countDistinct (fun row => some (id row)) selected =
      (selected.map fun row => toString (id row)).dedup.length := by
    have texts : (selected.map fun row => toString (id row)) = (selected.map id).map toString := List.map_map.symm
    rw [countDistinct_some, texts, List.dedup_map_of_injective fun _ _ => Breakdowns.toString_inj, List.length_map]
  cases groupBy with
  | model | provider | harness => exact countDistinct_some _ selected
  | account => exact ids (·.event.accountId)
  | source => exact ids (·.event.sourceId)
  | session => exact absurd rfl grouped

theorem length_ranking (groupBy : Dimension) (rankBy : RankBy) (selected : List Joined) :
    (Breakdowns.ranking groupBy rankBy selected).length =
      (selected.map (groupBy.expression ·.event)).dedup.length := by
  have keys := congrArg List.length (keys_split (groupBy.expression ·.event) selected)
  rw [List.length_map, (List.perm_insertionSort (· ≤ ·) _).length_eq] at keys
  exact (perm_ranked _).length_eq.trans keys

theorem total_eq_sum (column : Joined → Int) (rows : List Joined) :
    total (fun row => some (column row)) rows = (sum column rows : ℚ) := by
  have cast := map_list_sum (Int.castRingHom ℚ) (rows.map column)
  rw [List.map_map] at cast
  exact cast.symm

theorem cacheHitRate_eq (dates : Dates) (shift : Shift) (selected : List Joined) :
    (Overall.load dates shift selected).cacheHitRate = if (metrics selected).inputTokens = 0 then none
      else some (((metrics selected).cacheReadTokens : ℚ) / (metrics selected).inputTokens) := by
  simp only [Overall.load, total_eq_sum, Int.cast_eq_zero]
  rfl

end Counts

/-- The totals, the days and the counts of some events that a window selects. -/
structure Summarized (filter : AnalyticsFilter) (selected : List Joined) (tracked : Option Timestamp)
    (summary : Summary) : Prop where
  metrics : summary.metrics = metrics selected
  rangeDays : summary.rangeDays = (startOf filter selected).elim 0 (covered filter)
  activeDays : summary.activeDays = (daysOf filter.timeZone selected).dedup.length
  dailyBurn : summary.dailyBurn = burn summary.metrics (tracked.elim 0 (covered filter))
  byCost : summary.peakDayByCost.elim (selected = []) (Peaks UsageMetrics.listCostUsd filter.timeZone selected)
  byTokens : summary.peakDayByTokens.elim (selected = []) (Peaks UsageMetrics.totalTokens filter.timeZone selected)
  cacheHitRate : summary.cacheHitRate = if summary.metrics.inputTokens = 0 then none
    else some ((summary.metrics.cacheReadTokens : ℚ) / summary.metrics.inputTokens)
  distinct : ∀ dimension ≠ .session, summary.distinct.of dimension =
    (selected.map (dimension.expression ·.event)).dedup.length
  sessions : summary.distinct.sessions = (selected.filterMap (·.event.sessionId)).dedup.length

/-- A rate over no fewer days than there was usage on, and no more than the window has. -/
structure Paced (summary : Summary) (days : Int) : Prop where
  tracked : 1 ≤ days
  active : (summary.activeDays : Int) ≤ days
  ranged : days ≤ summary.rangeDays
  listCostUsd : summary.dailyBurn.listCostUsd * days = summary.metrics.listCostUsd
  billedCostUsd : summary.dailyBurn.billedCostUsd * days = summary.metrics.billedCostUsd
  totalTokens : summary.dailyBurn.totalTokens = summary.metrics.totalTokens.tdiv days

section Summary
variable {reader : DateReader} {tables : Tables} {stored : List Joined} {filter : AnalyticsFilter} {summary : Summary}

/-- The days with an event are those of the keys the statement gives the events. -/
theorem activeDays_eq (zoned : InZone reader filter.timeZone) (dated : Dated stored filter) :
    (Overall.load reader.toDates (filter.shift (Recorded.load (stored.map Joined.event)))
      (stored.filter (filter.selects ·.event))).activeDays =
        (daysOf filter.timeZone (stored.filter (filter.selects ·.event))).dedup.length := by
  let selected := stored.filter (filter.selects ·.event)
  have keyed : selected.filterMap (Bucket.day.expression reader.toDates
      (filter.shift (Recorded.load (stored.map Joined.event))) ·.event) =
        selected.map (dayKey filter.timeZone) := by
    refine (List.filterMap_congr ?_).trans (congrFun List.filterMap_eq_map selected)
    intro row member
    obtain ⟨held, chosen⟩ := List.mem_filter.mp member
    exact expression_eq zoned dated held chosen
  let read (key : String) : Int := (reader.parse key).getD 0
  have reads : ∀ row ∈ selected,
      read (dayKey filter.timeZone row) = localDay filter.timeZone row.event.occurredAt := by
    intro row member
    simp only [read]
    rw [parse_dayKey zoned dated (List.mem_of_mem_filter member)]
    rfl
  have days : daysOf filter.timeZone selected = (selected.map (dayKey filter.timeZone)).map read := by
    rw [List.map_map]
    exact (List.map_congr_left reads).symm
  have apart : Set.InjOn read (selected.map (dayKey filter.timeZone)).toFinset := by
    intro first left second right same
    obtain ⟨row, held, rfl⟩ := List.mem_map.mp (List.mem_toFinset.mp left)
    obtain ⟨other, listed, rfl⟩ := List.mem_map.mp (List.mem_toFinset.mp right)
    rw [reads row held, reads other listed] at same
    exact dayKey_eq dated (List.mem_of_mem_filter held) (List.mem_of_mem_filter listed) same
  calc
    _ = (selected.map (dayKey filter.timeZone)).dedup.length := by
      unfold Overall.load countDistinct
      rw [keyed]
    _ = (selected.map (dayKey filter.timeZone)).toFinset.card := rfl
    _ = ((selected.map (dayKey filter.timeZone)).toFinset.image read).card :=
      (Finset.card_image_of_injOn apart).symm
    _ = (daysOf filter.timeZone selected).dedup.length := by
      rw [days, ← List.card_toFinset]
      congr 1
      ext day
      simp

/-- On a clock whose days never go back, the rate is spread over days between those with usage and all. -/
theorem paced (dated : Dated stored filter) {start : Timestamp}
    (started : startOf filter (stored.filter (filter.selects ·.event)) = some start) (steady : Steady filter start)
    (used : stored.filter (filter.selects ·.event) ≠ [])
    (made : Summarized filter (stored.filter (filter.selects ·.event)) (trackedFrom filter stored) summary) :
    ∃ days, Paced summary days := by
  obtain ⟨row, rest, listed⟩ := List.exists_cons_of_ne_nil used
  have member : row ∈ stored.filter (filter.selects ·.event) := listed ▸ List.mem_cons_self
  obtain ⟨since, least⟩ : ∃ since, (stored.map (·.event.occurredAt)).min? = some since :=
    Option.isSome_iff_exists.mp (by
      rw [List.isSome_min?_iff]
      exact List.ne_nil_of_mem (List.mem_map_of_mem (List.mem_of_mem_filter member)))
  have tracked : trackedFrom filter stored = some (max start since) := by
    unfold trackedFrom
    rw [started, least]
    rfl
  have inside := tracked_inside dated started least
  obtain ⟨after, before⟩ := inside row member
  have later : Steady filter (max start since) := fun earlier last from_start =>
    steady earlier last (le_trans (le_max_left _ _) from_start)
  have ending : (row.event.occurredAt : Int) ≤ filter.finish - 1 := Int.le_sub_one_of_lt before
  have opened : localDay filter.timeZone start ≤ localDay filter.timeZone (max start since) :=
    steady _ _ le_rfl (le_max_left _ _) (lt_of_le_of_lt after before)
  have closed : localDay filter.timeZone (max start since) ≤ localDay filter.timeZone (filter.finish - 1) :=
    later _ _ le_rfl (after.trans ending) (sub_one_lt _)
  have counted := days_le_covered later inside
  have positive : 0 < covered filter (max start since) := by
    unfold covered
    omega
  have burned := made.dailyBurn
  rw [tracked, Option.elim_some, burn, if_pos positive] at burned
  have nonzero : (covered filter (max start since) : ℚ) ≠ 0 := by exact_mod_cast positive.ne'
  refine ⟨covered filter (max start since), positive, ?_, ?_, ?_, ?_, ?_⟩
  · rw [made.activeDays]
    exact counted
  · rw [made.rangeDays, started, Option.elim_some]
    unfold covered
    omega
  · rw [burned]
    exact div_mul_cancel₀ _ nonzero
  · rw [burned]
    exact div_mul_cancel₀ _ nonzero
  · rw [burned]

/-- The answer the days of a window make, in their order. -/
def answer (reader : DateReader) (stored : List Joined) (filter : AnalyticsFilter) (rows : List (Int × Aggregate)) :
    Summary :=
  let selected := stored.filter (filter.selects ·.event)
  let overall := Overall.load reader.toDates (filter.shift (Recorded.load (stored.map Joined.event))) selected
  { metrics := metrics selected
    rangeDays := (startOf filter selected).elim 0 (covered filter)
    activeDays := overall.activeDays
    dailyBurn := burn (metrics selected) ((trackedFrom filter stored).elim 0 (covered filter))
    peakDayByCost := (rows.map peakOf).foldl (exceeding PeakDay.listCostUsd) none
    peakDayByTokens := (rows.map peakOf).foldl (exceeding PeakDay.totalTokens) none
    cacheHitRate := overall.cacheHitRate
    distinct := overall.distinct }

/-- The answer is made of rows that share the events out by local day, in the order of the days. -/
theorem load_ok (order : Order (Option String × Aggregate)) (zoned : InZone reader filter.timeZone)
    (dated : Dated stored filter) (held : ∀ row ∈ stored, Held row.event)
    (bounded : Bounded (stored.filter (filter.selects ·.event))) (found : filter.check tables = .ok ()) :
    ∃ rows, Shared (fun row => localDay filter.timeZone row.event.occurredAt)
        (stored.filter (filter.selects ·.event)) rows ∧ rows.Pairwise (fun left right => left.1 ≤ right.1) ∧
      load reader tables order stored filter = .ok (answer reader stored filter rows) := by
  let selected := stored.filter (filter.selects ·.event)
  let recorded := Recorded.load (stored.map Joined.event)
  obtain ⟨listed, ran, grouped⟩ :=
    aggregate_ok (Bucket.day.expression reader.toDates (filter.shift recorded) ·.event) bounded fun row member =>
      held row (List.mem_of_mem_filter member)
  obtain ⟨parsed, read, shared⟩ := parsed_shared zoned dated (grouped.perm (order.perm listed))
  have sorted := List.pairwise_insertionSort (fun left right : Int × Aggregate => left.1 ≤ right.1) parsed
  have arranged := shared.perm (List.perm_insertionSort (fun left right => left.1 ≤ right.1) parsed)
  have printed : ∀ row ∈ selected, Printable row.event.occurredAt := fun row member =>
    dated.events row (List.mem_of_mem_filter member)
  have folded := foldl_step (parsed.insertionSort fun left right => left.1 ≤ right.1) (arranged.additive bounded)
  rw [arranged.sum, firstAt_eq printed arranged] at folded
  refine ⟨_, arranged, sorted, ?_⟩
  unfold load
  rw [found]
  change (aggregate (Bucket.day.expression reader.toDates (filter.shift recorded) ·.event) selected >>= _) = _
  rw [ran]
  change (((order.arrange listed).map decode).mapM (parse reader) >>= _) = _
  rw [read]
  dsimp only [bind, Except.bind]
  rw [folded]
  change (burnDays filter (startOf filter selected) recorded >>= _) = _
  rw [burnDays_eq dated]
  change (windowDays filter (startOf filter selected) >>= _) = _
  rw [windowDays_eq dated]
  rfl

theorem summarized_answer (zoned : InZone reader filter.timeZone) (dated : Dated stored filter)
    {rows : List (Int × Aggregate)} (shared : Shared (fun row => localDay filter.timeZone row.event.occurredAt)
      (stored.filter (filter.selects ·.event)) rows) (ordered : rows.Pairwise fun left right => left.1 ≤ right.1) :
    Summarized filter (stored.filter (filter.selects ·.event)) (trackedFrom filter stored)
      (answer reader stored filter rows) where
  metrics := rfl
  rangeDays := rfl
  activeDays := activeDays_eq zoned dated
  dailyBurn := rfl
  byCost := peaks_of_shared (fun _ => rfl) shared ordered
  byTokens := peaks_of_shared (fun _ => rfl) shared ordered
  cacheHitRate := cacheHitRate_eq reader.toDates (filter.shift (Recorded.load (stored.map Joined.event))) _
  distinct _ keyed := distinct_eq reader.toDates (filter.shift (Recorded.load (stored.map Joined.event))) keyed
  sessions := rfl

end Summary

/-- Dates in UTC, with days read off their texts. -/
def utcReader : DateReader := { utcDates with
  parse := fun text =>
    (readDateTime (text.toList ++ ['T', '0', '0', ':', '0', '0', ':', '0', '0'])).map (· / daySeconds) }

theorem inZone_utcReader : InZone utcReader .utc where
  date instant _ _ := by
    have civil : toDatetime .utc instant = instant := add_zero _
    rw [civil]
    simp [utcReader, utcDates]
  parse second dated := by
    have text : (dateTime second).take 10 = StepInput.day.text second := by
      obtain ⟨rest, written⟩ := dateTime_eq .day second
      rw [written]
      exact List.take_left' (length_dayText dated)
    have midnight := dateTime_floor .day second
    have day : second / StepInput.day.span * StepInput.day.span / daySeconds = second / daySeconds := by
      dsimp only [StepInput.span, daySeconds]
      omega
    simp only [utcReader, String.toList_ofList, text]
    rw [← midnight, readDateTime_dateTime (fourDigits_floor .day dated)]
    exact congrArg some day

/-- Two requests of the first day there is and one of the next. -/
def threeOfTwoDays : List Joined := [1, 2, 25].map fun hour => ⟨Shift.requestAt (hours hour), none, none, none⟩

def threeDays : AnalyticsFilter := ⟨some 0, hours 72, .utc, [], [], [], [], [], by decide⟩

end MeteredUsage.Analytics.Summaries
