import MeteredUsage.Analytics.Grid
import MeteredUsage.Analytics.Polls
import MeteredUsage.Analytics.Query
import MeteredUsage.Analytics.UtcBuckets

/-! Usage per UTC hour or day of a closed window, split by one dimension or not, with every group
kept. Whatever order its rows come in, the answer is the window's events cut by time and by name:
each event is counted in one bucket and one group, and every total is that of its parts. -/

namespace MeteredUsage.Analytics.Rollups
open MeteredUsage.Store.Sql (Order)
open MeteredUsage.Values MeteredUsage.Store.Schema MeteredUsage.Codec MeteredUsage.Analytics.Filter
open MeteredUsage.Analytics.Metrics MeteredUsage.Analytics.Query MeteredUsage.Analytics.UtcBuckets
open MeteredUsage.Library.Calendar MeteredUsage.Library.Outcome MeteredUsage.Library.Tally
open MeteredUsage.Analytics.RunningSums (Bounded Held)
open MeteredUsage.Analytics.Series (Dates Bucket BucketStart Dimension Aggregate indexOf maxBuckets utcDates
  storedId encodeRaw asI64_toString indexOf_of_mem)

/-- One group, keyed as `Dimension::key` spells it. -/
structure RollupGroup where
  key : String
  metrics : UsageMetrics
deriving DecidableEq

structure RollupBucket where
  start : Timestamp
  total : UsageMetrics
  /-- The groups with an event in this bucket, by key; none when ungrouped. -/
  groups : Option (List RollupGroup)
deriving DecidableEq

structure Rollup where
  total : UsageMetrics
  /-- Every group with an event in the window, by key; none when ungrouped. -/
  groups : Option (List RollupGroup)
  /-- Every bucket that overlaps the window, oldest first, zero where it had no events. -/
  buckets : List RollupBucket
deriving DecidableEq

structure CellRow where
  bucketKey : String
  groupKey : String
  aggregate : Aggregate

/-- `AnalyticsFilter::window`. -/
def window (start : Option Timestamp) (finish : Timestamp) (zone : TimeZone) (held : finish ≤ lastInstant) :
    AnalyticsFilter := ⟨start, finish, zone, [], [], [], [], [], held⟩

/-- What the statement groups by; the group is empty where nothing is. -/
def columns (dates : Dates) (step : Bucket) (shift : Shift) (groupBy : Option Dimension) (row : Joined) :
    Option String × String :=
  (step.expression dates shift row.event, (groupBy.map (Dimension.expression row.event)).getD "")

/-- A NULL bucket key decodes as the empty text. -/
def decode (row : (Option String × String) × Aggregate) : CellRow := ⟨row.1.1.getD "", row.1.2, row.2⟩

/-- What is added up so far. -/
structure Progress where
  total : UsageMetrics
  groups : List (String × UsageMetrics)
  buckets : List RollupBucket

/-- Adds a row to the total, to its bucket and to its group in both. -/
def place (groupBy : Option Dimension) (starts : List BucketStart) (progress : Progress) (row : CellRow) :
    Except AnalyticsError Progress :=
  let metrics := row.aggregate.metrics
  match indexOf (starts.map BucketStart.key) row.bucketKey with
  | none => .error (.unreadable "occurred_at" row.bucketKey)
  | some index =>
    let total := plus progress.total metrics
    let buckets := progress.buckets.modify index fun bucket => { bucket with total := plus bucket.total metrics }
    match groupBy with
    | none => .ok { progress with total, buckets }
    | some dimension =>
      (dimension.key row.groupKey).map fun key =>
        { total
          groups := upsert (fun held => plus (held.getD 0) metrics) key progress.groups
          buckets := buckets.modify index fun bucket =>
            { bucket with groups := bucket.groups.map (· ++ [⟨key, metrics⟩]) } }

/-- Orders a bucket's groups once their keys are final. -/
def sorted (bucket : RollupBucket) : RollupBucket :=
  { bucket with groups := bucket.groups.map fun cells => cells.insertionSort fun left right => left.key ≤ right.key }

/-- `Rollup::load`. -/
def load (dates : Dates) (order : Order ((Option String × String) × Aggregate)) (stored : List Joined)
    (start finish : Timestamp) (held : finish ≤ lastInstant) (step : Bucket) (groupBy : Option Dimension) :
    Except AnalyticsError Rollup := do
  let filter := window (some start) finish .utc held
  let starts ← step.starts dates start finish filter.timeZone
  let shift := filter.shift none
  let listed ← aggregate (columns dates step shift groupBy) (stored.filter (filter.selects ·.event))
  let rows := (order.arrange listed).map decode
  let progress ← rows.foldlM (place groupBy starts)
    ⟨0, [], starts.map fun start => ⟨start.start, 0, groupBy.map fun _ => []⟩⟩
  return {
    total := progress.total
    groups := groupBy.map fun _ => progress.groups.map fun group => ⟨group.1, group.2⟩
    buckets := progress.buckets.map sorted }

/-- What the API calls the group of an event. -/
def spelled (event : UsageEvent) : Dimension → String
  | .account => encode event.accountId
  | .source => encode event.sourceId
  | dimension => dimension.expression event

/-- The parts of some events as groups. -/
def groupsOf (dimension : Dimension) (events : List Joined) : List RollupGroup :=
  (split (spelled ·.event dimension) events).map fun part => ⟨part.1, part.2⟩

/-- The events of a stretch of time. -/
def within (start finish : Int) (events : List Joined) : List Joined :=
  events.filter fun row => decide (start ≤ row.event.occurredAt) && decide (row.event.occurredAt < finish)

/-- The events of a window cut by time and by name. -/
def cut (step : StepInput) (groupBy : Option Dimension) (start finish : Int) (events : List Joined) : Rollup :=
  { total := metrics events
    groups := groupBy.map (groupsOf · events)
    buckets := (List.range (overlapping step start finish)).map fun index =>
      let held := within (startOf step start index) (startOf step start (index + 1)) events
      ⟨startOf step start index, metrics held, groupBy.map (groupsOf · held)⟩ }

section Fold
variable {groupBy : Option Dimension} {starts : List BucketStart} {index : CellRow → Nat} {name : CellRow → String}

/-- What the rows so far come to. -/
def counted (groupBy : Option Dimension) (starts : List BucketStart) (index : CellRow → Nat)
    (name : CellRow → String) (rows : List CellRow) : Progress :=
  { total := (rows.map (·.aggregate.metrics)).sum
    groups := groupBy.elim [] fun _ => sums name (·.aggregate.metrics) rows
    buckets := starts.zipIdx.map fun start =>
      let held := rows.filter (index · = start.2)
      ⟨start.1.start, (held.map (·.aggregate.metrics)).sum,
        groupBy.map fun _ => held.map fun row => ⟨name row, row.aggregate.metrics⟩⟩ }

theorem modify_zipIdx {Item Value : Type} (items : List Item) (value : Item × Nat → Value) (place : Nat)
    (change : Value → Value) : (items.zipIdx.map value).modify place change =
      items.zipIdx.map fun item => if item.2 = place then change (value item) else value item := by
  apply List.ext_getElem?
  intro index
  rw [List.getElem?_modify, List.getElem?_map, List.getElem?_map, List.getElem?_zipIdx]
  cases items[index]? with
  | none => rfl
  | some item =>
    by_cases here : place = index
    · simp [here]
    · simp [here, Ne.symm here]

/-- A row adds exactly to any part of the rows before it. -/
theorem plus_part {rows part : List CellRow} {row : CellRow}
    (additive : Additive ((rows ++ [row]).map (·.aggregate.metrics))) (inside : part.Sublist rows) :
    plus (part.map (·.aggregate.metrics)).sum row.aggregate.metrics =
      ((part ++ [row]).map (·.aggregate.metrics)).sum := by
  have whole := additive _ ((inside.append_right [row]).map (·.aggregate.metrics))
  rw [List.map_append, List.sum_append, List.map_singleton, List.sum_singleton] at whole ⊢
  exact plus_eq whole

/-- A row whose bucket and key are known adds to what the rows before it came to. -/
theorem place_counted (rows : List CellRow) {row : CellRow}
    (additive : Additive ((rows ++ [row]).map (·.aggregate.metrics)))
    (found : indexOf (starts.map BucketStart.key) row.bucketKey = some (index row))
    (named : ∀ dimension ∈ groupBy, dimension.key row.groupKey = .ok (name row)) :
    place groupBy starts (counted groupBy starts index name rows) row =
      .ok (counted groupBy starts index name (rows ++ [row])) := by
  have total : (counted groupBy starts index name (rows ++ [row])).total =
      plus (counted groupBy starts index name rows).total row.aggregate.metrics :=
    (plus_part additive (List.Sublist.refl rows)).symm
  have bucket (place : Nat) : plus ((rows.filter (index · = place)).map (·.aggregate.metrics)).sum
      row.aggregate.metrics =
        ((rows.filter (index · = place) ++ [row]).map (·.aggregate.metrics)).sum :=
    plus_part additive List.filter_sublist
  unfold place
  rw [found]
  cases groupBy with
  | none =>
    have buckets : (counted none starts index name (rows ++ [row])).buckets =
        (counted none starts index name rows).buckets.modify (index row) fun bucket =>
          { bucket with total := plus bucket.total row.aggregate.metrics } := by
      unfold counted
      rw [modify_zipIdx]
      apply List.map_congr_left
      intro start _
      by_cases here : start.2 = index row
      · simp [here, bucket]
      · simp [here, Ne.symm here]
    dsimp only
    rw [← total, ← buckets]
    rfl
  | some dimension =>
    have held : ((sums name (·.aggregate.metrics) rows).lookup (name row)).getD 0 =
        ((rows.filter (name · = name row)).map (·.aggregate.metrics)).sum := by
      rw [lookup_sums]
      split
      next => rfl
      next absent =>
        have none_named : rows.filter (name · = name row) = [] := by
          rw [List.filter_eq_nil_iff]
          intro other member same
          exact absent (of_decide_eq_true same ▸ List.mem_map_of_mem member)
        rw [none_named]
        rfl
    have groups : (counted (some dimension) starts index name (rows ++ [row])).groups =
        upsert (fun held => plus (held.getD 0) row.aggregate.metrics) (name row)
          (counted (some dimension) starts index name rows).groups := by
      refine (collect_append_singleton rows row).trans (upsert_congr (ordered_sums rows) ?_)
      have sum := plus_part additive (@List.filter_sublist _ (decide <| name · = name row) rows)
      rw [List.map_append, List.sum_append, List.map_singleton, List.sum_singleton, ← held] at sum
      exact sum.symm
    have buckets : (counted (some dimension) starts index name (rows ++ [row])).buckets =
        ((counted (some dimension) starts index name rows).buckets.modify (index row) fun bucket =>
          { bucket with total := plus bucket.total row.aggregate.metrics }).modify (index row) fun bucket =>
            { bucket with groups := bucket.groups.map (· ++ [⟨name row, row.aggregate.metrics⟩]) } := by
      unfold counted
      rw [modify_zipIdx, modify_zipIdx]
      apply List.map_congr_left
      intro start _
      by_cases here : start.2 = index row
      · simp [here, bucket]
      · simp [here, Ne.symm here]
    dsimp only
    rw [named dimension rfl, Except.map, ← total, ← groups, ← buckets]

theorem fold_counted {rows : List CellRow} (additive : Additive (rows.map (·.aggregate.metrics)))
    (found : ∀ row ∈ rows, indexOf (starts.map BucketStart.key) row.bucketKey = some (index row))
    (named : ∀ row ∈ rows, ∀ dimension ∈ groupBy, dimension.key row.groupKey = .ok (name row)) :
    rows.foldlM (place groupBy starts) (counted groupBy starts index name []) =
      .ok (counted groupBy starts index name rows) := by
  induction rows using List.reverseRecOn with
  | nil => rfl
  | append_singleton rows row ih =>
    have last : row ∈ rows ++ [row] := List.mem_append_right _ List.mem_cons_self
    have before : Additive (rows.map (·.aggregate.metrics)) :=
      additive.sublist ((List.sublist_append_left rows [row]).map _)
    rw [List.foldlM_append, ih before (fun other member => found other (List.mem_append_left _ member))
      fun other member => named other (List.mem_append_left _ member)]
    have placed := place_counted rows additive (found row last) (named row last)
    change List.foldlM (place groupBy starts) (counted groupBy starts index name rows) [row] = _
    rw [List.foldlM_cons, placed]
    rfl

end Fold

section Placed
variable {dates : Dates} {step : StepInput} {start finish : Int}

theorem year_lt_of_le {instant : Int} (fits : instant ≤ lastInstant) : yearOfInstant instant < 10000 := by
  have last : yearAt HealthBuckets.lastSecond = 9999 := by decide
  have second : secondOf instant ≤ HealthBuckets.lastSecond := by
    unfold lastInstant at fits
    unfold secondOf HealthBuckets.lastSecond
    omega
  have mono := Polls.yearAt_mono second
  unfold yearOfInstant
  omega

theorem representable_of_bounds {instant : Int} (first : firstInstant ≤ instant) (last : instant ≤ lastInstant) :
    Representable instant := by
  have early : yearAt HealthBuckets.firstSecond = -9999 := by decide
  have second : HealthBuckets.firstSecond ≤ secondOf instant := by
    unfold firstInstant at first
    unfold secondOf HealthBuckets.firstSecond
    omega
  have mono := Polls.yearAt_mono second
  refine ⟨?_, year_lt_of_le last⟩
  unfold yearOfInstant
  omega

/-- A window's text bounds select the events of the stretch of time. -/
theorem window_selects (begins : Representable start) (ends : Representable finish) (held : finish ≤ lastInstant)
    {event : UsageEvent} (dated : Printable event.occurredAt) :
    (window (some start) finish .utc held).selects event =
      (decide (start ≤ event.occurredAt) && decide (event.occurredAt < finish)) := by
  have represented : Representable event.occurredAt := ⟨lt_of_lt_of_le (by decide) dated.1, dated.2⟩
  have after := Shift.stored_le_iff_of_printable begins represented (.inr dated)
  have before := Shift.stored_le_iff_of_printable ends represented (.inr dated)
  have whole : (window (some start) finish .utc held).selects event =
      (decide (stored event.occurredAt < stored finish) && decide (stored start ≤ stored event.occurredAt)) := by
    simp [AnalyticsFilter.selects, admits, window]
  rw [whole, Bool.and_comm]
  simp only [after, ← not_le, before]

theorem indexOf_getElem? {names : List String} {name : String} {index : Nat}
    (found : indexOf names name = some index) : names[index]? = some name := by
  obtain ⟨entry, first, rfl⟩ := Option.map_eq_some_iff.mp found
  have named : entry.1 = name := by simpa using List.find?_some first
  have member := List.mem_reverse.mp (List.mem_of_find?_eq_some first)
  rw [List.mem_zipIdx_iff_getElem?, named] at member
  exact member

/-- The keys of a window's buckets. -/
def bucketKeys (step : StepInput) (start finish : Int) : List String :=
  (List.range (overlapping step start finish)).map fun index => step.bucket.key (startOf step start index)

theorem exists_startOf (step : StepInput) {instant : Int} (after : start ≤ instant) (before : instant < finish) :
    ∃ index < overlapping step start finish, startOf step start index = step.bucket.floor instant := by
  refine ⟨((step.bucket.floor instant - step.bucket.floor start) / step.bucket.length).toNat, ?_⟩
  rw [← startOf_lt_iff]
  unfold startOf
  rw [floor_eq, floor_eq, length_eq]
  cases step <;> dsimp only [StepInput.span] <;> omega

theorem startOf_inj {first second : Nat} (same : startOf step start first = startOf step start second) :
    first = second := by
  unfold startOf at same
  rw [length_eq] at same
  cases step <;> dsimp only [StepInput.span] at same <;> omega

/-- The key of an instant's bucket finds that bucket, among all of the window. -/
theorem indexOf_bucket (step : StepInput) (held : finish ≤ lastInstant) {instant : Int} (dated : Printable instant)
    (after : start ≤ instant) (before : instant < finish) :
    ∃ index < overlapping step start finish, startOf step start index = step.bucket.floor instant ∧
      indexOf (bucketKeys step start finish) (step.bucket.key (step.bucket.floor instant)) = some index := by
  obtain ⟨place, inside, starts⟩ := exists_startOf step after before
  have member : step.bucket.key (step.bucket.floor instant) ∈ bucketKeys step start finish :=
    List.mem_map.mpr ⟨place, List.mem_range.mpr inside, by rw [starts]⟩
  obtain ⟨index, found⟩ := indexOf_of_mem member
  have entry := indexOf_getElem? found
  unfold bucketKeys at entry
  rw [List.getElem?_map, Option.map_eq_some_iff] at entry
  obtain ⟨other, listed, keyed⟩ := entry
  have bounded := List.mem_range.mp (List.mem_of_getElem? listed)
  obtain rfl : index = other := by
    have value := List.getElem?_eq_some_iff.mp listed
    exact (List.getElem_range _).symm.trans value.2
  have early := (startOf_lt_iff.mpr bounded).le.trans held
  rw [← floor_startOf step start index] at keyed
  have same := (key_inj dated (year_lt_of_le early)).mp keyed.symm
  rw [floor_startOf] at same
  exact ⟨index, bounded, same.symm, found⟩

/-- A bucket holds the instants from its start to the next. -/
theorem floor_eq_startOf_iff (step : StepInput) (start instant : Int) (index : Nat) :
    step.bucket.floor instant = startOf step start index ↔
      startOf step start index ≤ instant ∧ instant < startOf step start (index + 1) := by
  unfold startOf
  rw [floor_eq, floor_eq, length_eq]
  cases step <;> dsimp only [StepInput.span] <;> omega

end Placed

section Answer
variable {dates : Dates} {step : StepInput} {groupBy : Option Dimension} {start finish : Int}
  {events : List Joined} {rows : List ((Option String × String) × Aggregate)}

/-- Events of a window, of the years 0 to 9999 and of ids a column holds. -/
structure InWindow (start finish : Int) (events : List Joined) : Prop where
  dated : ∀ row ∈ events, Printable row.event.occurredAt
  fits : ∀ row ∈ events, row.event.accountId < 2 ^ 63 ∧ row.event.sourceId < 2 ^ 63
  inside : ∀ row ∈ events, start ≤ row.event.occurredAt ∧ row.event.occurredAt < finish

/-- The bucket of a group of the statement. -/
def bucketOf (step : StepInput) (start finish : Int) (group : Option String × String) : Nat :=
  (indexOf (bucketKeys step start finish) (group.1.getD "")).getD 0

/-- The name of a group of the statement. -/
def nameOf (groupBy : Option Dimension) (group : Option String × String) : String :=
  (groupBy.bind fun dimension => (dimension.key group.2).toOption).getD ""

theorem key_expression {event : UsageEvent} (account : event.accountId < 2 ^ 63) (source : event.sourceId < 2 ^ 63)
    (dimension : Dimension) : dimension.key (dimension.expression event) = .ok (spelled event dimension) := by
  have ids (field : String) {id : Nat} (fits : id < 2 ^ 63) :
      (storedId field (toString id)).map encodeRaw = .ok (encode id) := by
    have whole : ((id : Int) % 2 ^ 64).toNat = id := by omega
    unfold storedId
    rw [asI64_toString, if_pos fits]
    change Except.ok (encodeRaw (id : Int)) = _
    unfold encodeRaw
    rw [whole]
  cases dimension with
  | account => exact ids "account_id" account
  | source => exact ids "source_id" source
  | model | provider | harness | session => rfl

theorem bucketOf_columns (step : StepInput) (groupBy : Option Dimension) (utc : InUtc dates)
    (held : finish ≤ lastInstant) (windowed : InWindow start finish events) {row : Joined} (member : row ∈ events) :
    let group := columns dates step.bucket ⟨[], 0⟩ groupBy row
    group.1 = some (step.bucket.key (step.bucket.floor row.event.occurredAt)) ∧
      bucketOf step start finish group < overlapping step start finish ∧
      startOf step start (bucketOf step start finish group) = step.bucket.floor row.event.occurredAt ∧
      indexOf (bucketKeys step start finish) (group.1.getD "") = some (bucketOf step start finish group) := by
  have dated := windowed.dated row member
  have ⟨after, before⟩ := windowed.inside row member
  have keyed := expression_eq utc step dated
  obtain ⟨index, bounded, starts, found⟩ := indexOf_bucket step held dated after before
  dsimp only
  unfold columns bucketOf
  rw [keyed]
  dsimp only [Option.getD_some]
  rw [found]
  exact ⟨rfl, bounded, starts, rfl⟩

theorem bucketOf_eq_iff (utc : InUtc dates) (held : finish ≤ lastInstant)
    (windowed : InWindow start finish events) {row : Joined} (member : row ∈ events) (index : Nat) :
    bucketOf step start finish (columns dates step.bucket ⟨[], 0⟩ groupBy row) = index ↔
      startOf step start index ≤ row.event.occurredAt ∧ row.event.occurredAt < startOf step start (index + 1) := by
  obtain ⟨-, -, starts, -⟩ := bucketOf_columns step groupBy utc held windowed member
  rw [← floor_eq_startOf_iff, ← starts]
  exact ⟨fun same => by rw [same], startOf_inj⟩

theorem nameOf_columns (windowed : InWindow start finish events) {row : Joined} (member : row ∈ events)
    (shift : Shift) {dimension : Dimension} :
    nameOf (some dimension) (columns dates step.bucket shift (some dimension) row) = spelled row.event dimension := by
  have ⟨account, source⟩ := windowed.fits row member
  have spells := key_expression account source dimension
  unfold nameOf columns
  simp only [Option.bind_some, Option.map_some, Option.getD_some]
  rw [spells]
  rfl

/-- In one bucket no two groups have one name. -/
theorem names_apart (utc : InUtc dates) (held : finish ≤ lastInstant) (windowed : InWindow start finish events)
    {dimension : Dimension}
    (shared : Shared (columns dates step.bucket ⟨[], 0⟩ (some dimension)) events rows) (index : Nat) :
    ((rows.filter (bucketOf step start finish ·.1 = index)).map (nameOf (some dimension) ·.1)).Nodup := by
  have groups := (List.pairwise_map.mp shared.once).filter (bucketOf step start finish ·.1 = index)
  apply List.pairwise_map.mpr
  apply groups.imp_of_mem
  intro first second left right apart same
  obtain ⟨leftHeld, leftBucket⟩ := List.mem_filter.mp left
  obtain ⟨rightHeld, rightBucket⟩ := List.mem_filter.mp right
  obtain ⟨event, member, named⟩ := List.mem_map.mp ((shared.known _).mp (List.mem_map_of_mem leftHeld))
  obtain ⟨other, stored, called⟩ := List.mem_map.mp ((shared.known _).mp (List.mem_map_of_mem rightHeld))
  have leftPlace := of_decide_eq_true leftBucket
  have rightPlace := of_decide_eq_true rightBucket
  rw [← named] at leftPlace same
  rw [← called] at rightPlace same
  rw [nameOf_columns windowed member, nameOf_columns windowed stored] at same
  obtain ⟨key, -, starts, -⟩ := bucketOf_columns step (some dimension) utc held windowed member
  obtain ⟨otherKey, -, otherStarts, -⟩ := bucketOf_columns step (some dimension) utc held windowed stored
  have ⟨account, source⟩ := windowed.fits event member
  have ⟨otherAccount, otherSource⟩ := windowed.fits other stored
  have spells := key_expression account source dimension
  rw [same] at spells
  have texts := Series.key_injective spells (key_expression otherAccount otherSource dimension)
  have buckets : step.bucket.floor event.event.occurredAt = step.bucket.floor other.event.occurredAt := by
    rw [← starts, ← otherStarts, leftPlace, rightPlace]
  apply apart
  rw [← named, ← called]
  refine Prod.ext ?_ ?_
  · rw [key, otherKey, buckets]
  · exact texts

theorem zipIdx_range {Value : Type} (value : Nat → Value) (count : Nat) :
    ((List.range count).map value).zipIdx = (List.range count).map fun index => (value index, index) := by
  rw [List.zipIdx_map]
  have indices : (List.range count).zipIdx = (List.range count).map fun index => (index, index) := by
    apply List.ext_getElem?
    intro index
    rw [List.getElem?_zipIdx, List.getElem?_map]
    by_cases inside : index < count
    · simp [List.getElem?_range inside]
    · simp [inside]
  rw [indices, List.map_map]
  rfl

theorem split_congr {name other : Joined → String} {events : List Joined}
    (same : ∀ row ∈ events, name row = other row) : split name events = split other events := by
  unfold split
  rw [List.map_congr_left same]
  apply List.map_congr_left
  intro key _
  have kept : events.filter (name · = key) = events.filter (other · = key) :=
    List.filter_congr fun row member => by rw [same row member]
  rw [kept]

theorem sums_map {Item Other : Type} (name : Other → String) (value : Other → UsageMetrics)
    (change : Item → Other) (items : List Item) :
    sums name value (items.map change) =
      sums (fun item => name (change item)) (fun item => value (change item)) items := by
  unfold sums collect
  rw [List.foldl_map]

/-- The cells of a bucket, put in order, are the parts of its events. -/
theorem sorted_cells (utc : InUtc dates) (held : finish ≤ lastInstant) (windowed : InWindow start finish events)
    {dimension : Dimension}
    (shared : Shared (columns dates step.bucket ⟨[], 0⟩ (some dimension)) events rows) (index : Nat) :
    ((rows.filter (bucketOf step start finish ·.1 = index)).map fun row =>
        (⟨nameOf (some dimension) row.1, row.2.metrics⟩ : RollupGroup)).insertionSort
          (fun left right => left.key ≤ right.key) =
      groupsOf dimension (within (startOf step start index) (startOf step start (index + 1)) events) := by
  let cells := rows.filter (bucketOf step start finish ·.1 = index)
  have inside : events.filter (fun row => decide (bucketOf step start finish
        (columns dates step.bucket ⟨[], 0⟩ (some dimension) row) = index)) =
      within (startOf step start index) (startOf step start (index + 1)) events := by
    apply List.filter_congr
    intro row member
    rw [← Bool.decide_and, decide_eq_decide]
    exact bucketOf_eq_iff utc held windowed member index
  have ordered : (cells.map fun row => (nameOf (some dimension) row.1, row.2.metrics)).insertionSort
        (fun left right => left.1 ≤ right.1) =
      split (nameOf (some dimension) <| columns dates step.bucket ⟨[], 0⟩ (some dimension) ·)
        (within (startOf step start index) (startOf step start (index + 1)) events) := by
    rw [insertionSort_eq_sums (names_apart utc held windowed shared index), ← inside]
    exact shared.sums_eq_split (fun group => decide (bucketOf step start finish group = index))
      (nameOf (some dimension))
  have parts : split (nameOf (some dimension) <| columns dates step.bucket ⟨[], 0⟩ (some dimension) ·)
        (within (startOf step start index) (startOf step start (index + 1)) events) =
      split (spelled ·.event dimension) (within (startOf step start index) (startOf step start (index + 1)) events) :=
    split_congr fun row member => nameOf_columns windowed (List.mem_of_mem_filter member) ⟨[], 0⟩
  have groups : (cells.map fun row => (⟨nameOf (some dimension) row.1, row.2.metrics⟩ : RollupGroup)) =
      (cells.map fun row => (nameOf (some dimension) row.1, row.2.metrics)).map fun part => ⟨part.1, part.2⟩ := by
    rw [List.map_map]
    rfl
  unfold groupsOf
  rw [← parts, ← ordered, groups]
  exact (List.map_insertionSort (fun left right : String × UsageMetrics => left.1 ≤ right.1)
    (fun left right : RollupGroup => left.key ≤ right.key) _ _ fun _ _ _ _ => Iff.rfl).symm

/-- The bucket of a row of the statement, by its place. -/
def CellRow.index (step : StepInput) (start finish : Int) (row : CellRow) : Nat :=
  bucketOf step start finish (some row.bucketKey, row.groupKey)

/-- The name of a row's group. -/
def CellRow.name (groupBy : Option Dimension) (row : CellRow) : String :=
  nameOf groupBy (some row.bucketKey, row.groupKey)

/-- Before the first row, every bucket is there with nothing in it. -/
theorem counted_nil (step : StepInput) (groupBy : Option Dimension) (start finish : Int) :
    counted groupBy (bucketsUpTo step start (overlapping step start finish)) (CellRow.index step start finish)
        (CellRow.name groupBy) [] =
      ⟨0, [], (List.range (overlapping step start finish)).map fun index =>
        ⟨startOf step start index, 0, groupBy.map fun _ => []⟩⟩ := by
  unfold counted bucketsUpTo
  rw [zipIdx_range, List.map_map]
  cases groupBy <;> rfl

/-- Each row has its bucket's place in the window. -/
theorem index_decode (utc : InUtc dates) (held : finish ≤ lastInstant) (windowed : InWindow start finish events)
    (shared : Shared (columns dates step.bucket ⟨[], 0⟩ groupBy) events rows) :
    ∀ row ∈ rows.map decode, indexOf ((bucketsUpTo step start (overlapping step start finish)).map BucketStart.key)
      row.bucketKey = some (row.index step start finish) := by
  have keys : (bucketsUpTo step start (overlapping step start finish)).map BucketStart.key =
      bucketKeys step start finish := List.map_map
  have group (row : (Option String × String) × Aggregate) : bucketOf step start finish
      (some (row.1.1.getD ""), row.1.2) = bucketOf step start finish row.1 := rfl
  intro row member
  obtain ⟨read, listed, rfl⟩ := List.mem_map.mp member
  obtain ⟨event, stored, named⟩ := List.mem_map.mp ((shared.known _).mp (List.mem_map_of_mem listed))
  obtain ⟨-, -, -, indexed⟩ := bucketOf_columns step groupBy utc held windowed stored
  rw [keys]
  dsimp only [decode, CellRow.index]
  rw [group, ← named]
  exact indexed

/-- Each row has its group's name, as the API spells it. -/
theorem name_decode (windowed : InWindow start finish events)
    (shared : Shared (columns dates step.bucket ⟨[], 0⟩ groupBy) events rows) :
    ∀ row ∈ rows.map decode, ∀ dimension ∈ groupBy, dimension.key row.groupKey = .ok (row.name groupBy) := by
  intro row member dimension grouped
  obtain ⟨read, listed, rfl⟩ := List.mem_map.mp member
  obtain ⟨event, stored, called⟩ := List.mem_map.mp ((shared.known _).mp (List.mem_map_of_mem listed))
  have ⟨account, source⟩ := windowed.fits event stored
  obtain rfl : groupBy = some dimension := grouped
  have spells := key_expression account source dimension
  have text : read.1.2 = dimension.expression event.event := (congrArg Prod.snd called).symm
  dsimp only [decode, CellRow.name, nameOf, Option.bind_some]
  rw [text, spells]
  rfl

/-- The buckets, each with its groups put in order, are those of the cut. -/
theorem buckets_cut (utc : InUtc dates) (held : finish ≤ lastInstant) (windowed : InWindow start finish events)
    (shared : Shared (columns dates step.bucket ⟨[], 0⟩ groupBy) events rows) :
    (counted groupBy (bucketsUpTo step start (overlapping step start finish)) (CellRow.index step start finish)
      (CellRow.name groupBy) (rows.map decode)).buckets.map sorted = (cut step groupBy start finish events).buckets := by
  unfold counted cut
  dsimp only [bucketsUpTo]
  rw [zipIdx_range, List.map_map, List.map_map]
  apply List.map_congr_left
  intro place _
  have cells : (rows.map decode).filter (CellRow.index step start finish · = place) =
      (rows.filter (bucketOf step start finish ·.1 = place)).map decode := by
    rw [List.filter_map]
    rfl
  have inside : events.filter (fun row => decide (bucketOf step start finish
        (columns dates step.bucket ⟨[], 0⟩ groupBy row) = place)) =
      within (startOf step start place) (startOf step start (place + 1)) events := by
    apply List.filter_congr
    intro row member
    rw [← Bool.decide_and, decide_eq_decide]
    exact bucketOf_eq_iff utc held windowed member place
  have sum := shared.sum_filter fun group => decide (bucketOf step start finish group = place)
  rw [inside] at sum
  dsimp only [Function.comp_apply, sorted]
  rw [cells, List.map_map]
  refine congrArg₂ (RollupBucket.mk _) sum ?_
  cases groupBy with
  | none => rfl
  | some dimension =>
    rw [Option.map_some, Option.map_some, Option.map_some, List.map_map]
    exact congrArg some (sorted_cells utc held windowed shared place)

theorem groups_cut (windowed : InWindow start finish events)
    (shared : Shared (columns dates step.bucket ⟨[], 0⟩ groupBy) events rows) (starts : List BucketStart)
    (index : CellRow → Nat) :
    (groupBy.map fun _ => (counted groupBy starts index (CellRow.name groupBy) (rows.map decode)).groups.map fun group =>
      (⟨group.1, group.2⟩ : RollupGroup)) = groupBy.map (groupsOf · events) := by
  cases groupBy with
  | none => rfl
  | some dimension =>
    have whole := shared.sums_eq_split (fun _ => true) (nameOf (some dimension))
    rw [List.filter_true, List.filter_true,
      split_congr fun row member => nameOf_columns windowed member ⟨[], 0⟩] at whole
    have summed : sums (CellRow.name (some dimension)) (·.aggregate.metrics) (rows.map decode) =
        split (spelled ·.event dimension) events := by
      rw [sums_map]
      exact whole
    change some ((sums (CellRow.name (some dimension)) (·.aggregate.metrics) (rows.map decode)).map _) =
      some (groupsOf dimension events)
    rw [summed]
    rfl

/-- The rows of the statement over a window make the cut of its events. -/
theorem fold_cut (utc : InUtc dates) (held : finish ≤ lastInstant) (windowed : InWindow start finish events)
    (bounded : Bounded events) (shared : Shared (columns dates step.bucket ⟨[], 0⟩ groupBy) events rows) :
    ∃ progress, (rows.map decode).foldlM (place groupBy (bucketsUpTo step start (overlapping step start finish)))
        ⟨0, [], (List.range (overlapping step start finish)).map fun index =>
          ⟨startOf step start index, 0, groupBy.map fun _ => []⟩⟩ = .ok progress ∧
      (⟨progress.total, groupBy.map fun _ => progress.groups.map fun group => ⟨group.1, group.2⟩,
        progress.buckets.map sorted⟩ : Rollup) = cut step groupBy start finish events := by
  have additive : Additive ((rows.map decode).map (·.aggregate.metrics)) := by
    rw [List.map_map]
    exact shared.additive bounded
  have ran := fold_counted additive (index_decode utc held windowed shared) (name_decode windowed shared)
  rw [counted_nil] at ran
  refine ⟨_, ran, ?_⟩
  have total : ((rows.map decode).map (·.aggregate.metrics)).sum = metrics events := by
    rw [List.map_map]
    exact shared.sum
  rw [groups_cut windowed shared, buckets_cut utc held windowed shared]
  exact congrArg (Rollup.mk · _ _) total

/-- The parts of a rollup: its buckets add up to it, and so do its groups, each bucket's to that bucket,
one group for each name and in the order of the names. -/
structure Conserved (rollup : Rollup) : Prop where
  buckets : (rollup.buckets.map RollupBucket.total).sum = rollup.total
  groups : ∀ groups ∈ rollup.groups, (groups.map RollupGroup.metrics).sum = rollup.total ∧
    (groups.map RollupGroup.key).Pairwise (· < ·)
  cells : ∀ bucket ∈ rollup.buckets, ∀ groups ∈ bucket.groups,
    (groups.map RollupGroup.metrics).sum = bucket.total ∧ (groups.map RollupGroup.key).Pairwise (· < ·)

theorem groupsOf_conserve (dimension : Dimension) (events : List Joined) :
    ((groupsOf dimension events).map RollupGroup.metrics).sum = metrics events ∧
      ((groupsOf dimension events).map RollupGroup.key).Pairwise (· < ·) := by
  have sums : (groupsOf dimension events).map RollupGroup.metrics =
      (split (spelled ·.event dimension) events).map Prod.snd := List.map_map
  have keys : (groupsOf dimension events).map RollupGroup.key =
      (split (spelled ·.event dimension) events).map Prod.fst := List.map_map
  rw [sums, keys]
  exact ⟨sum_split _ _, Library.OrderedMap.ordered_iff_keys.mp (ordered_split _ _)⟩

theorem cut_conserved (step : StepInput) (groupBy : Option Dimension) (start finish : Int) (stored : List Joined) :
    Conserved (cut step groupBy start finish (within start finish stored)) where
  buckets := by
    let place (row : Joined) : Nat :=
      ((step.bucket.floor row.event.occurredAt - step.bucket.floor start) / step.bucket.length).toNat
    have inside : ∀ row ∈ within start finish stored,
        start ≤ row.event.occurredAt ∧ row.event.occurredAt < finish := by
      intro row member
      simpa only [Bool.and_eq_true, decide_eq_true_eq] using (List.mem_filter.mp member).2
    have placed : ∀ row ∈ within start finish stored, place row < overlapping step start finish ∧
        startOf step start (place row) = step.bucket.floor row.event.occurredAt := by
      intro row member
      obtain ⟨index, bounded, starts⟩ := exists_startOf step (inside row member).1 (inside row member).2
      have same : place row = index := by
        have positive := step.bucket.length_pos.ne'
        dsimp only [place]
        rw [← starts, startOf, add_sub_cancel_left, Int.mul_ediv_cancel _ positive, Int.toNat_natCast]
      rw [same]
      exact ⟨bounded, starts⟩
    have parts (index : Nat) : within (startOf step start index) (startOf step start (index + 1))
        (within start finish stored) = (within start finish stored).filter (place · = index) := by
      apply List.filter_congr
      intro row member
      rw [← Bool.decide_and, decide_eq_decide, ← floor_eq_startOf_iff, ← (placed row member).2]
      exact ⟨startOf_inj, fun same => by rw [same]⟩
    unfold cut
    rw [List.map_map, metrics_eq_sum (within start finish stored),
      ← Library.Groups.sum_filter List.nodup_range place _ fun row member =>
        List.mem_range.mpr (placed row member).1]
    congr 1
    apply List.map_congr_left
    intro index _
    dsimp only [Function.comp_apply]
    rw [parts]
    exact metrics_eq_sum _
  groups := by
    intro groups member
    obtain ⟨dimension, _, rfl⟩ := Option.map_eq_some_iff.mp member
    exact groupsOf_conserve dimension _
  cells := by
    intro bucket member groups held
    obtain ⟨index, _, rfl⟩ := List.mem_map.mp member
    obtain ⟨dimension, _, rfl⟩ := Option.map_eq_some_iff.mp held
    exact groupsOf_conserve dimension _

end Answer

theorem inUtc_utcDates : InUtc utcDates where
  civil _ _ _ := rfl
  hour _ _ := by simp [utcDates]
  day _ _ := by simp [utcDates]

/-- A request of the last second of 1970's first hour, and two of the next. -/
def twoHours : List Joined :=
  [3599, 3600, 7199].map fun second => ⟨Shift.requestAt (seconds second), none, none, none⟩

end MeteredUsage.Analytics.Rollups
