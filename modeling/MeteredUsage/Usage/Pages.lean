import MeteredUsage.Billing.Leverage
import MeteredUsage.Codec
import MeteredUsage.IdTexts
import MeteredUsage.Library.Paging
import MeteredUsage.Store.Minted

/-! The stored events as a client asks for them, a page at a time: newest first, or oldest first after
an event the client already has. -/

namespace MeteredUsage.Usage.Pages
open MeteredUsage.Values MeteredUsage.Store.Schema MeteredUsage.Codec MeteredUsage.IdTexts
open MeteredUsage.Library.Keyed MeteredUsage.Library.Outcome MeteredUsage.Library.Paging
open MeteredUsage.Library.OrderedLog (Ordered)
open MeteredUsage.Store.Minted (Sound Grown)
open MeteredUsage.Store.Sql (Float64 Runtime)
open MeteredUsage.Billing.Leverage (AccountSummary)

structure UsageFilter where
  /-- `from`. -/
  start : Option Timestamp
  /-- `to`, inclusive. -/
  finish : Option Timestamp
  sourceId : Option Id
  model : Option String
  accountId : Option Id
  failed : Option Bool
deriving DecidableEq, Repr

def UsageFilter.default : UsageFilter := ⟨none, none, none, none, none, none⟩

/-- What `UsageFilter::push_to` asks of an event. Instants are compared as the texts they are stored
as. -/
def UsageFilter.selects (filter : UsageFilter) (event : UsageEvent) : Bool :=
  filter.start.all (fun start => decide (stored start ≤ stored event.occurredAt)) &&
    filter.finish.all (fun finish => decide (stored event.occurredAt ≤ stored finish)) &&
    filter.sourceId.all (fun id => decide ((event.sourceId : Int) = id.value.toInt)) &&
    filter.model.all (fun model => decide (event.model = model)) &&
    filter.accountId.all (fun id => decide ((event.accountId : Int) = id.value.toInt)) &&
    filter.failed.all fun failed => decide (event.failed = failed)

/-- Where a page starts, as the id of an event the client already has. -/
inductive Cursor where
  | before (id : Id)
  | after (id : Id)
deriving DecidableEq, Repr

/-- An event as it is read back. -/
structure Loaded where
  event : UsageEvent
  account : AccountSummary
deriving DecidableEq

/-- The `JOIN`s of an event. The source is the event's own. -/
def joined (tables : Tables) (event : UsageEvent) : Option Loaded := do
  let account ← lookup Account.id tables.accounts event.accountId
  let source ← lookup Source.id tables.sources event.sourceId
  return ⟨event, account.id, event.sourceId, source.name, account.provider, account.authKind,
    account.label, account.displayName⟩

/-- A `LIMIT`, which a negative number is none of. -/
def limited (limit : Int) (rows : List Loaded) : List Loaded :=
  if limit < 0 then rows else rows.take limit.toNat

/-- `UsageEvent::page`: newest first, or oldest first after a `Cursor.after`. -/
def page (tables : Tables) (filter : UsageFilter) (limit : Int) (cursor : Option Cursor) : List Loaded :=
  let rows := (tables.events.filterMap (joined tables)).filter fun row => filter.selects row.event
  match cursor with
  | none => limited limit (rows.insertionSort fun first second => second.event.id ≤ first.event.id)
  | some (.before before) => limited limit
      ((rows.filter fun row => decide ((row.event.id : Int) < before.value.toInt)).insertionSort
        fun first second => second.event.id ≤ first.event.id)
  | some (.after after) => limited limit
      ((rows.filter fun row => decide (after.value.toInt < (row.event.id : Int))).insertionSort
        fun first second => first.event.id ≤ second.event.id)

/-- Why a request is refused. -/
structure Error where
  message : String
deriving DecidableEq, Repr

/-- The query as it arrived, before anything was read out of it. -/
structure Filter where
  /-- `from`. -/
  start : Option String
  /-- `to`. -/
  finish : Option String
  sourceId : Option String
  model : Option String
  accountId : Option String
  failed : Option Bool
deriving DecidableEq, Repr

/-- A parameter that is absent, or is read. -/
def parameter {Value : Type} (parse : String → Option Value) (message : String) :
    Option String → Except Error (Option Value)
  | none => .ok none
  | some text => (parse text).elim (.error ⟨message⟩) fun value => .ok (some value)

/-- `event_id` -/
def eventId (value : Option String) (name : String) : Except Error (Option Id) :=
  parameter (fun text => (Id.fromStr text).toOption) (name ++ " must be an event id") value

section Requests

variable (runtime : Runtime)

/-- `instant` -/
def instant (value : Option String) (name : String) : Except Error (Option Timestamp) :=
  parameter runtime.parseTimestamp (name ++ " must be an RFC 3339 timestamp") value

/-- `UsageFilter::try_from` -/
def UsageFilter.tryFrom (query : Filter) : Except Error UsageFilter := do
  let start ← instant runtime query.start "from"
  let finish ← instant runtime query.finish "to"
  let sourceId ← parameter (fun text => (Id.fromStr text).toOption) "source_id must be a source id"
    query.sourceId
  let accountId ← parameter (fun text => (Id.fromStr text).toOption) "account_id must be an account id"
    query.accountId
  return ⟨start, finish, sourceId, query.model, accountId, query.failed⟩

end Requests

structure AccountSummaryOutput where
  accountId : String
  sourceId : String
  sourceName : String
  provider : String
  authKind : AuthKind
  label : Option String
  displayName : Option String
deriving DecidableEq

def AccountSummaryOutput.of (summary : AccountSummary) : AccountSummaryOutput :=
  ⟨encode summary.id, encode summary.sourceId, summary.sourceName, summary.provider, summary.authKind,
    summary.label, summary.displayName⟩

structure UsageEventOutput where
  eventId : String
  sourceId : String
  upstreamId : Option String
  occurredAt : String
  provider : String
  model : String
  modelAlias : Option String
  endpoint : String
  account : AccountSummaryOutput
  caller : Option String
  harness : Option String
  userAgent : Option String
  sessionId : Option String
  inputTokens : Int
  outputTokens : Int
  reasoningTokens : Int
  cacheReadTokens : Int
  cacheWriteTokens : Int
  unclassifiedTokens : Int
  totalTokens : Int
  tokenQuality : Option TokenQuality
  latencyMs : Option Int
  ttftMs : Option Int
  streamed : Bool
  statusCode : Int
  failed : Bool
  errorMessage : Option String
  serviceTier : Option String
  reasoningEffort : Option String
  listCostUsd : Option Float64
  billedCostUsd : Option Float64
deriving DecidableEq

def UsageEventOutput.of (loaded : Loaded) : UsageEventOutput :=
  let event := loaded.event
  { eventId := encode event.id
    sourceId := encode event.sourceId
    -- An upstream that named no request wrote the empty string, which is an absent id.
    upstreamId := if event.upstreamId = "" then none else some event.upstreamId
    occurredAt := display event.occurredAt
    provider := event.provider
    model := event.model
    modelAlias := event.modelAlias
    endpoint := event.endpoint
    account := .of loaded.account
    caller := event.caller
    harness := event.harness
    userAgent := event.userAgent
    sessionId := event.sessionId
    inputTokens := event.inputTokens
    outputTokens := event.outputTokens
    reasoningTokens := event.reasoningTokens
    cacheReadTokens := event.cacheReadTokens
    cacheWriteTokens := event.cacheWriteTokens
    unclassifiedTokens := event.unclassifiedTokens
    totalTokens := event.totalTokens
    tokenQuality := event.tokenQuality
    latencyMs := event.latencyMs
    ttftMs := event.ttftMs
    streamed := event.streamed
    statusCode := event.statusCode
    failed := event.failed
    errorMessage := event.errorMessage
    serviceTier := event.serviceTier
    reasoningEffort := event.reasoningEffort
    listCostUsd := event.listCostUsd
    billedCostUsd := event.billedCostUsd }

structure EventPage where
  events : List UsageEventOutput
  nextBefore : Option String
deriving DecidableEq

inductive EventPageResponse where
  | found (page : EventPage)
  | invalid (error : Error)
  | failed (error : Error)
deriving DecidableEq

def defaultLimit : Int := 100

def maxLimit : Int := 500

/-- `i64::clamp` -/
def clamp (value low high : Int) : Int :=
  if value < low then low else if high < value then high else value

/-- How many events a page has at most. -/
def pageLimit (limit : Option Int) : Int := clamp (limit.getD defaultLimit) 1 maxLimit

/-- The id a client asks on from, after a page that is full. -/
def nextBefore (cursor : Option Cursor) (limit : Int) (events : List Loaded) : Option String :=
  match cursor with
  | some (.after _) => none
  | _ => if (events.length : Int) = limit then events.getLast?.map fun row => encode row.event.id else none

def eventPage (tables : Tables) (filter : UsageFilter) (limit : Int) (cursor : Option Cursor) : EventPage :=
  let events := page tables filter limit cursor
  ⟨events.map .of, nextBefore cursor limit events⟩

/-- `list_usage_events`, with what the database holds when the page is read. -/
def listUsageEvents (runtime : Runtime) (database : Except DatabaseError Tables)
    (query : Filter) (limit : Option Int) (before after : Option String) : EventPageResponse :=
  match UsageFilter.tryFrom runtime query with
  | .error error => .invalid error
  | .ok filter =>
    match eventId before "before", eventId after "after" with
    | .error error, _ => .invalid error
    | .ok _, .error error => .invalid error
    | .ok (some _), .ok (some _) => .invalid ⟨"before and after cannot be combined"⟩
    | .ok before, .ok after =>
      let cursor := (before.map Cursor.before).or (after.map Cursor.after)
      match database with
      | .error _ => .failed ⟨"the database refused the request"⟩
      | .ok tables => .found (eventPage tables filter (pageLimit limit) cursor)

theorem pageLimit_positive (limit : Option Int) : 0 < pageLimit limit := by
  unfold pageLimit clamp maxLimit
  split
  · omega
  · split <;> omega

theorem eventId_encode {value : Nat} (fits : value < 2 ^ 63) (name : String) :
    eventId (some (encode value)) name = .ok (some ⟨.ofNat value⟩) := by
  rw [eventId, parameter, fromStr_encode fits]
  rfl

section Answers

variable {runtime : Runtime} {tables : Tables} {query : Filter}
  {filter : UsageFilter} (accepted : UsageFilter.tryFrom runtime query = .ok filter)
  (limit : Option Int)
include accepted

theorem listUsageEvents_first : listUsageEvents runtime (.ok tables) query limit none none =
    .found (eventPage tables filter (pageLimit limit) none) := by
  unfold listUsageEvents
  rw [accepted]
  rfl

theorem listUsageEvents_before {value : Nat} (fits : value < 2 ^ 63) :
    listUsageEvents runtime (.ok tables) query limit (some (encode value)) none =
      .found (eventPage tables filter (pageLimit limit) (some (.before ⟨.ofNat value⟩))) := by
  unfold listUsageEvents
  rw [accepted, eventId_encode fits]
  rfl

theorem listUsageEvents_after {value : Nat} (fits : value < 2 ^ 63) :
    listUsageEvents runtime (.ok tables) query limit none (some (encode value)) =
      .found (eventPage tables filter (pageLimit limit) (some (.after ⟨.ofNat value⟩))) := by
  unfold listUsageEvents
  rw [accepted, eventId_encode fits]
  rfl

end Answers

section Rows

variable {tables : Tables} {filter : UsageFilter} {limit : Int}

/-- The stored events that are asked for. -/
def matching (tables : Tables) (filter : UsageFilter) : List UsageEvent :=
  tables.events.filter filter.selects

def newest (tables : Tables) (filter : UsageFilter) : List UsageEvent :=
  sorted (fun event => OrderDual.toDual event.id) (matching tables filter)

def oldest (tables : Tables) (filter : UsageFilter) : List UsageEvent :=
  sorted UsageEvent.id (matching tables filter)

theorem mem_matching {event : UsageEvent} :
    event ∈ matching tables filter ↔ event ∈ tables.events ∧ filter.selects event = true := List.mem_filter

theorem distinct_matching (sound : Sound tables) : Distinct UsageEvent.id (matching tables filter) :=
  sound.ids.filter _

theorem ordered_newest (sound : Sound tables) :
    Ordered (fun event => OrderDual.toDual event.id) (newest tables filter) :=
  ordered_sorted (distinct_matching sound)

theorem ordered_oldest (sound : Sound tables) : Ordered UsageEvent.id (oldest tables filter) :=
  ordered_sorted (distinct_matching sound)

/-- No event is left out for an account or a source that is missing. -/
theorem joined_eq_some (sound : Sound tables) {event : UsageEvent} (stored : event ∈ tables.events) :
    ∃ account, joined tables event = some ⟨event, account⟩ := by
  obtain ⟨account, holds, named, inSource, _⟩ := sound.valid.eventAccounts event stored
  obtain ⟨source, present, owns⟩ := sound.valid.accountSources account holds
  have found : lookup Account.id tables.accounts event.accountId = some account :=
    (lookup_eq_some sound.valid.accountIds).mpr ⟨holds, named⟩
  have known : lookup Source.id tables.sources event.sourceId = some source :=
    (lookup_eq_some sound.valid.sourceIds).mpr ⟨present, owns.trans inSource⟩
  unfold joined
  rw [found, known]
  exact ⟨_, rfl⟩

theorem map_event_joined (sound : Sound tables) :
    (tables.events.filterMap (joined tables)).map Loaded.event = tables.events := by
  have each : ∀ event ∈ tables.events, (joined tables event).map Loaded.event = some event := by
    intro event stored
    obtain ⟨account, found⟩ := joined_eq_some sound stored
    rw [found]
    rfl
  calc (tables.events.filterMap (joined tables)).map Loaded.event
      = tables.events.filterMap fun event => (joined tables event).map Loaded.event := List.map_filterMap ..
    _ = tables.events.filterMap some := List.filterMap_congr each
    _ = tables.events := List.filterMap_some

theorem map_event_filter (rows : List Loaded) (kept : UsageEvent → Bool) :
    (rows.filter fun row => kept row.event).map Loaded.event = (rows.map Loaded.event).filter kept :=
  List.filter_map.symm

theorem map_event_limited (positive : 0 < limit) (rows : List Loaded) :
    (limited limit rows).map Loaded.event = (rows.map Loaded.event).take limit.toNat := by
  unfold limited
  rw [if_neg (by omega), List.map_take]

theorem map_event_newest (rows : List Loaded) :
    (rows.insertionSort fun first second => second.event.id ≤ first.event.id).map Loaded.event =
      sorted (fun event => OrderDual.toDual event.id) (rows.map Loaded.event) :=
  List.map_insertionSort _ _ Loaded.event rows fun _ _ _ _ => Iff.rfl

theorem map_event_oldest (rows : List Loaded) :
    (rows.insertionSort fun first second => first.event.id ≤ second.event.id).map Loaded.event =
      sorted UsageEvent.id (rows.map Loaded.event) :=
  List.map_insertionSort _ _ Loaded.event rows fun _ _ _ _ => Iff.rfl

variable (sound : Sound tables) (positive : 0 < limit)
include sound positive

theorem page_first : (page tables filter limit none).map Loaded.event =
    (newest tables filter).take limit.toNat := by
  unfold page
  rw [map_event_limited positive, map_event_newest, map_event_filter, map_event_joined sound]
  rfl

theorem page_before {value : Nat} (fits : value < 2 ^ 63) :
    (page tables filter limit (some (.before ⟨.ofNat value⟩))).map Loaded.event =
      ((newest tables filter).filter fun event => decide (event.id < value)).take limit.toNat := by
  have distinct : Distinct (fun event => OrderDual.toDual event.id) (matching tables filter) :=
    distinct_matching sound
  simp only [page, Int64.toInt_ofNat_of_lt fits, Nat.cast_lt]
  rw [map_event_limited positive, map_event_newest, map_event_filter _ fun event => decide (event.id < value),
    map_event_filter, map_event_joined sound, newest, filter_sorted distinct]
  rfl

theorem page_after {value : Nat} (fits : value < 2 ^ 63) :
    (page tables filter limit (some (.after ⟨.ofNat value⟩))).map Loaded.event =
      ((oldest tables filter).filter fun event => decide (value < event.id)).take limit.toNat := by
  simp only [page, Int64.toInt_ofNat_of_lt fits, Nat.cast_lt]
  rw [map_event_limited positive, map_event_oldest, map_event_filter _ fun event => decide (value < event.id),
    map_event_filter, map_event_joined sound, oldest, filter_sorted (distinct_matching sound)]
  rfl

end Rows

section Growth

variable {before after : Tables} {filter : UsageFilter} (grown : Grown before after)
include grown

theorem matching_grown : ∃ added, matching after filter = matching before filter ++ added ∧
    (∀ event ∈ before.events, ∀ other ∈ added, event.id < other.id) ∧
      Distinct UsageEvent.id (matching before filter ++ added) := by
  obtain ⟨added, grows, above⟩ := grown.events
  have whole : matching after filter = matching before filter ++ added.filter filter.selects := by
    unfold matching
    rw [grows, List.filter_append]
  refine ⟨_, whole, ?_, whole ▸ distinct_matching grown.sound⟩
  exact fun event member other new => above event member other (List.mem_of_mem_filter new)

/-- What was stored below an event stays what is stored below it. -/
theorem newest_below {event : UsageEvent} (stored : event ∈ before.events) :
    ((newest after filter).filter fun other => decide (other.id < event.id)) =
      (newest before filter).filter fun other => decide (other.id < event.id) := by
  obtain ⟨added, whole, above, distinct⟩ := @matching_grown _ _ filter grown
  have none_new : added.filter (fun other => decide (other.id < event.id)) = [] := by
    rw [List.filter_eq_nil_iff]
    intro other new below
    exact absurd (of_decide_eq_true below) (above event stored other new).asymm
  have early : Distinct (fun event => OrderDual.toDual event.id) (matching before filter) :=
    (List.pairwise_append.mp distinct).1
  have late : Distinct (fun event => OrderDual.toDual event.id) (matching before filter ++ added) := distinct
  unfold newest
  rw [whole, filter_sorted late, filter_sorted early, List.filter_append, none_new, List.append_nil]

theorem oldest_grown : oldest before filter <+: oldest after filter := by
  obtain ⟨added, whole, above, distinct⟩ := @matching_grown _ _ filter grown
  unfold oldest
  rw [whole, sorted_append distinct fun event early other late =>
    above event (List.mem_of_mem_filter early) other late]
  exact List.prefix_append _ _

end Growth

end MeteredUsage.Usage.Pages
