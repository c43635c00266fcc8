import Mathlib.Data.List.Dedup
import Mathlib.Data.List.Sort
import Mathlib.Data.String.Basic
import MeteredUsage.Analytics.Filter
import MeteredUsage.Analytics.Totals
import MeteredUsage.Library.Calendar
import MeteredUsage.Store.Accounts
import MeteredUsage.Store.Response

/-! Usage over time, one row per bucket and key, with no bucket missing. The instants of local times
and the dates of stored texts are those other libraries answer, whatever they are. -/

namespace MeteredUsage.Analytics.Series
open MeteredUsage.Values MeteredUsage.Store.Schema MeteredUsage.Codec MeteredUsage.Analytics.Filter
open MeteredUsage.Analytics.Metrics MeteredUsage.Library.Calendar MeteredUsage.Library.Keyed

/-- What the libraries of dates answer. -/
structure Dates where
  /-- `TimeZone::to_timestamp`, where there is such an instant. -/
  toTimestamp : TimeZone → Int → Option Timestamp
  /-- SQLite's `strftime` of a format, a text and modifiers; NULL of what is no date. -/
  strftime : String → String → List String → Option String
  /-- SQLite's `date`. -/
  date : String → List String → Option String

/-- A week starts on Monday. -/
inductive Bucket where
  | hour
  | day
  | week
deriving DecidableEq

/-- One bucket of a window: its key as SQL spells it and the instant it starts. -/
structure BucketStart where
  key : String
  start : Timestamp
deriving DecidableEq

/-- `MAX_BUCKETS`. -/
def maxBuckets : Nat := 5000

/-- `push_expression`: the key of the bucket an event falls in, in the viewer's local time. The
stored instant is cut to whole seconds first. -/
def Bucket.expression (dates : Dates) (bucket : Bucket) (shift : Shift) (event : UsageEvent) :
    Option String :=
  let text := String.ofList ((stored event.occurredAt).toList.take 19)
  let modifier := shift.push.eval (stored event.occurredAt)
  match bucket with
  | .hour => dates.strftime "%Y-%m-%dT%H" text [modifier]
  | .day => dates.date text [modifier]
  | .week => dates.date text [modifier, "weekday 0", "-6 days"]

/-- `TimeZone::to_datetime`: the local time of an instant, in nanoseconds. -/
def toDatetime (zone : TimeZone) (instant : Timestamp) : Int := instant + seconds (zone.toOffset instant)

/-- The first day a date can be, and the last local time. -/
def firstDate : Int := -4371587
def lastCivil : Int := 253402300799999999999

/-- `monday_of`, of days since the epoch, which was a Thursday. -/
def mondayOf (date : Int) : Int := max firstDate (date - (date + 3) % 7)

def Bucket.floor (bucket : Bucket) (civil : Int) : Int :=
  match bucket with
  | .hour => civil / hours 1 * hours 1
  | .day => civil / hours 24 * hours 24
  | .week => mondayOf (civil / hours 24) * hours 24

def Bucket.key (bucket : Bucket) (civil : Int) : String :=
  let text := dateTime (civil / seconds 1)
  match bucket with
  | .hour => String.ofList (text.takeWhile (· ≠ ':'))
  | .day | .week => String.ofList (text.takeWhile (· ≠ 'T'))

def Bucket.length : Bucket → Int
  | .hour => hours 1
  | .day => hours 24
  | .week => hours 168

/-- The first instant whose local time falls in the bucket that starts at `civil`. A start inside a
gap maps past the transition, and the transition itself may already be in the bucket. -/
def Bucket.firstInstant (dates : Dates) (bucket : Bucket) (civil : Int) (zone : TimeZone) :
    Except AnalyticsError (Option Timestamp) :=
  let inside (instant : Timestamp) : Bool := bucket.floor (toDatetime zone instant) = civil
  match dates.toTimestamp zone civil with
  | none => .error .window
  | some mapped =>
    if inside mapped then .ok (some mapped)
    else .ok (((zone.preceding mapped).head?.map Prod.fst).filter inside)

/-- The buckets from `civil` on, of which so many start by the last local time; a start past it is
refused. -/
def Bucket.startsFrom (dates : Dates) (bucket : Bucket) (finish : Timestamp) (zone : TimeZone) :
    Nat → Int → List BucketStart → Except AnalyticsError (List BucketStart)
  | 0, _, _ => .error .window
  | left + 1, civil, starts =>
    match bucket.firstInstant dates civil zone with
    | .error error => .error error
    | .ok none => startsFrom dates bucket finish zone left (civil + bucket.length) starts
    | .ok (some start) =>
      if finish ≤ start then .ok starts
      else if starts.length = maxBuckets then .error .tooManyBuckets
      else startsFrom dates bucket finish zone left (civil + bucket.length)
        (starts ++ [⟨bucket.key civil, start⟩])

/-- Every bucket that overlaps the window, in order. -/
def Bucket.starts (dates : Dates) (bucket : Bucket) (start finish : Timestamp) (zone : TimeZone) :
    Except AnalyticsError (List BucketStart) :=
  let civil := bucket.floor (toDatetime zone start)
  bucket.startsFrom dates finish zone ((lastCivil - civil) / bucket.length + 1).toNat civil []

inductive Dimension where
  | model
  | provider
  | account
  | harness
  | source
  | session
deriving DecidableEq

/-- The key as text, whatever the column holds. -/
def Dimension.expression (event : UsageEvent) : Dimension → String
  | .model => event.model
  | .provider => event.provider
  | .account => toString event.accountId
  | .harness => harnessKey event
  | .source => toString event.sourceId
  | .session => event.sessionId.getD unknownKey

/-- `stored_id`. -/
def storedId (field text : String) : Except AnalyticsError Int :=
  match Store.Response.asI64 text.toList ['+'] with
  | some id => .ok id
  | none => .error (.unreadable field text)

/-- `Id::encode` of a raw id, read as unsigned. -/
def encodeRaw (id : Int) : String := encode (id % 2 ^ 64).toNat

/-- The key as the API spells it: an account or a source by its encoded id. -/
def Dimension.key (text : String) : Dimension → Except AnalyticsError String
  | .account => (storedId "account_id" text).map encodeRaw
  | .source => (storedId "source_id" text).map encodeRaw
  | .model | .provider | .harness | .session => .ok text

/-- What a reader calls each stored key: an account by its display name, else its label, and a source
by its name. -/
def Dimension.labels (tables : Tables) (texts : List String) :
    Dimension → Except AnalyticsError (List (String × String))
  | .account => do
    let ids ← texts.mapM (storedId "account_id")
    let named := tables.accounts.filter fun account =>
      ids.contains (account.id : Int) && (lookup Source.id tables.sources account.sourceId).isSome
    return named.filterMap fun account =>
      (account.displayName <|> account.label).map fun name => (toString account.id, name)
  | .source => do
    let ids ← texts.mapM (storedId "source_id")
    let named := tables.sources.filter fun source => ids.contains (source.id : Int)
    return named.map fun source => (toString source.id, source.name)
  | .model | .provider | .harness | .session => return []

/-- The measure groups are ranked by, largest first. -/
inductive RankBy where
  | listCostUsd
  | billedCostUsd
  | totalTokens
  | requests
deriving DecidableEq

def RankBy.measure (metrics : UsageMetrics) : RankBy → ℚ
  | .listCostUsd => metrics.listCostUsd
  | .billedCostUsd => metrics.billedCostUsd
  | .totalTokens => metrics.totalTokens
  | .requests => metrics.requests

/-- The order of the ranking: `descending`, then by key. -/
def RankBy.before (rankBy : RankBy) (left right : String × UsageMetrics) : Prop :=
  rankBy.measure right.2 < rankBy.measure left.2 ∨
    rankBy.measure left.2 = rankBy.measure right.2 ∧ left.1 ≤ right.1

instance (rankBy : RankBy) : DecidableRel rankBy.before := fun _ _ =>
  inferInstanceAs (Decidable (_ ∨ _ ∧ _))

/-- The key of every row of an ungrouped series. -/
def allKey : String := "all"

/-- The key the groups outside the top are merged into. -/
def otherKey : String := "other"

structure SeriesQuery where
  bucket : Bucket
  groupBy : Option Dimension
  /-- How many groups keep their own key. -/
  top : Nat
  rankBy : RankBy

structure SeriesBucket where
  start : Timestamp
  key : String
  label : Option String
  metrics : UsageMetrics
deriving DecidableEq

/-- The measures of one group and the first and last instant it saw. -/
structure Aggregate where
  metrics : UsageMetrics
  firstAt : Timestamp
  lastAt : Timestamp

structure SeriesRow where
  bucketKey : String
  groupKey : String
  aggregate : Aggregate

/-- The column an event is grouped under. -/
def SeriesQuery.group (query : SeriesQuery) (row : Joined) : String :=
  (query.groupBy.map (Dimension.expression row.event)).getD allKey

/-- What the statement groups by. -/
def SeriesQuery.columns (dates : Dates) (query : SeriesQuery) (shift : Shift) (row : Joined) :
    Option String × String :=
  (query.bucket.expression dates shift row.event, query.group row)

/-- The aggregate of a group, which has at least one event. -/
def aggregateOf (members : List Joined) : Except AnalyticsError Aggregate :=
  match Recorded.load (members.map Joined.event) with
  | none => .error (.columnDecode "first_at")
  | some span => .ok ⟨metrics members, span.first, span.last⟩

/-- The rows of the statement. A NULL bucket key decodes as the empty text. -/
def seriesRows (dates : Dates) (query : SeriesQuery) (shift : Shift) (selected : List Joined) :
    Except AnalyticsError (List SeriesRow) :=
  (selected.map (query.columns dates shift)).dedup.mapM fun group =>
    (aggregateOf (selected.filter (query.columns dates shift · = group))).map fun aggregate =>
      ⟨group.1.getD "", group.2, aggregate⟩

/-- The measures of each group over the whole window. -/
def totals (rows : List SeriesRow) : List (String × UsageMetrics) :=
  (rows.map SeriesRow.groupKey).dedup.map fun key =>
    (key, ((rows.filter (·.groupKey = key)).map (·.aggregate.metrics)).sum)

def SeriesQuery.ranked (query : SeriesQuery) (rows : List SeriesRow) : List (String × UsageMetrics) :=
  (totals rows).insertionSort query.rankBy.before

/-- Whether groups are merged into `otherKey`. -/
def SeriesQuery.merged (query : SeriesQuery) (rows : List SeriesRow) : Bool :=
  decide (query.top < (query.ranked rows).length)

/-- The groups that keep their own key. -/
def SeriesQuery.keys (query : SeriesQuery) (rows : List SeriesRow) : List String :=
  let keys := ((query.ranked rows).take query.top).map Prod.fst
  if query.groupBy.isNone && keys.isEmpty then [allKey] else keys

/-- `HashMap::get` of a map collected from enumerated names, in which a later name takes the place of
an earlier one. -/
def indexOf (names : List String) (name : String) : Option Nat :=
  (names.zipIdx.reverse.find? fun entry => entry.1 = name).map Prod.snd

/-- Adds a row to the cell of its bucket and key. -/
def place (starts : List BucketStart) (keys : List String) (width : Nat) (cells : List UsageMetrics)
    (row : SeriesRow) : Except AnalyticsError (List UsageMetrics) :=
  match indexOf (starts.map BucketStart.key) row.bucketKey with
  | none => .error (.unreadable "occurred_at" row.bucketKey)
  | some bucket =>
    let key := (indexOf keys row.groupKey).getD keys.length
    .ok (cells.modify (bucket * width + key) (· + row.aggregate.metrics))

/-- The name and label of each key. -/
def SeriesQuery.names (query : SeriesQuery) (tables : Tables) (keys : List String) :
    Except AnalyticsError (List (String × Option String)) :=
  match query.groupBy with
  | none => .ok (keys.map fun _ => (allKey, none))
  | some dimension => do
    let labels ← dimension.labels tables keys
    keys.mapM fun key => do
      let name ← dimension.key key
      return (name, (lookup Prod.fst labels.reverse key).map Prod.snd)

/-- The rows of the answer, bucket by bucket. -/
def grid (starts : List BucketStart) (names : List (String × Option String))
    (cells : List UsageMetrics) : List SeriesBucket :=
  starts.zipIdx.flatMap fun bucket => names.zipIdx.map fun key =>
    { start := bucket.1.start
      key := key.1.1
      label := key.1.2
      metrics := cells.getD (bucket.2 * names.length + key.2) 0 }

/-- Where the window starts: absent a start, at the first matching event. -/
def windowStart (filter : AnalyticsFilter) (rows : List SeriesRow) : Option Timestamp :=
  filter.start <|> (rows.map (·.aggregate.firstAt)).min?

/-- `SeriesBucket::load`, over the rows of `METRICS`' `FROM`. -/
def load (dates : Dates) (tables : Tables) (stored : List Joined) (filter : AnalyticsFilter)
    (query : SeriesQuery) : Except AnalyticsError (List SeriesBucket) := do
  filter.check tables
  let shift := filter.shift (Recorded.load (stored.map Joined.event))
  let rows ← seriesRows dates query shift (stored.filter (filter.selects ·.event))
  match windowStart filter rows with
  | none => return []
  | some start =>
    let starts ← query.bucket.starts dates start filter.finish filter.timeZone
    let keys := query.keys rows
    let width := keys.length + (query.merged rows).toNat
    let cells ← rows.foldlM (place starts keys width) (List.replicate (starts.length * width) 0)
    let names ← query.names tables keys
    return grid starts (names ++ if query.merged rows then [(otherKey, none)] else []) cells

end MeteredUsage.Analytics.Series
