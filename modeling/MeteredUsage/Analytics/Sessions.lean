import MeteredUsage.Analytics.Breakdowns
import MeteredUsage.Billing.Leverage

/-! Usage per session, as the harness named it. Rows and maps come in an order nobody promises, yet the
answer is one: the sessions that rank first, each with all its requests and under the account, the source
and the harness that carried most of them. -/

namespace MeteredUsage.Analytics.Sessions
open MeteredUsage.Store.Sql (Order)
open MeteredUsage.Values MeteredUsage.Store.Schema MeteredUsage.Codec MeteredUsage.Analytics.Filter
open MeteredUsage.Analytics.Metrics MeteredUsage.Analytics.Query MeteredUsage.Library.Outcome
open MeteredUsage.Library.Keyed MeteredUsage.Library.Tally MeteredUsage.Library.Ranking
open MeteredUsage.Library.OrderedMap MeteredUsage.Analytics.Breakdowns
open MeteredUsage.Analytics.Series (Aggregate aggregateOf Dimension RankBy)
open MeteredUsage.Analytics.RunningSums (Bounded Held integers)
open MeteredUsage.Billing.Leverage (AccountSummary summaryOf)
open MeteredUsage.Collector.LiteLlm (wrap64)
open MeteredUsage.Store.Thresholds (wrap_eq_self_iff)

/-- A session that moved between accounts, sources or harnesses is reported under the one that carried
most of its requests. -/
structure SessionUsage where
  sessionId : String
  sourceId : SourceId
  account : AccountSummary
  harness : Option String
  /-- Sorted. -/
  models : List String
  firstAt : Timestamp
  lastAt : Timestamp
  metrics : UsageMetrics
deriving DecidableEq

/-- What the statement groups by. -/
structure Columns where
  sessionId : Option String
  accountId : AccountId
  sourceId : SourceId
  harness : Option String
  model : String
deriving DecidableEq

structure SessionRow where
  sessionId : String
  accountId : AccountId
  sourceId : SourceId
  harness : Option String
  model : String
  aggregate : Aggregate

/-- The maps and the set are by key; in what order a hash map is walked is not theirs to say. -/
structure Tally where
  aggregate : Aggregate
  accounts : List (AccountId × Int)
  sources : List (SourceId × Int)
  harnesses : List (String × Int)
  models : List (String × Unit)

structure Chosen where
  sessionId : String
  accountId : Option AccountId
  sourceId : Option SourceId
  harness : Option String
  models : List String
  aggregate : Aggregate

def columns (row : Joined) : Columns :=
  ⟨row.event.sessionId, row.event.accountId, row.event.sourceId, row.event.harness, row.event.model⟩

/-- A NULL session, which the statement leaves out, would decode as the empty text. -/
def decode (row : Columns × Aggregate) : SessionRow :=
  ⟨row.1.sessionId.getD "", row.1.accountId, row.1.sourceId, row.1.harness, row.1.model, row.2⟩

/-- `AddAssign` of an aggregate. -/
def addAssign (held other : Aggregate) : Aggregate :=
  ⟨plus held.metrics other.metrics, min held.firstAt other.firstAt, max held.lastAt other.lastAt⟩

/-- `*counts.entry(key).or_default() += requests`, which wraps. -/
def count {Key : Type} [LinearOrder Key] (requests : Int) (key : Key) (counts : List (Key × Int)) :
    List (Key × Int) := upsert (fun held => wrap64 (held.getD 0 + requests)) key counts

/-- A session's tally with one more row. -/
def tallied (row : SessionRow) (held : Option Tally) : Tally :=
  let requests := row.aggregate.metrics.requests
  let tally : Tally := match held with
    | some tally => { tally with aggregate := addAssign tally.aggregate row.aggregate }
    | none => ⟨row.aggregate, [], [], [], []⟩
  { tally with
    accounts := count requests row.accountId tally.accounts
    sources := count requests row.sourceId tally.sources
    harnesses := row.harness.elim tally.harnesses fun harness => count requests harness tally.harnesses
    models := upsert (fun _ => ()) row.model tally.models }

/-- `leader`: the value with the most requests, the least value among equals, in a walk of a map. -/
def leader {Key : Type} [LinearOrder Key] (order : Order (Key × Int)) (counts : List (Key × Int)) : Option Key :=
  (leading Prod.fst Prod.snd (order.arrange counts)).map Prod.fst

/-- The orders in which rows come and hash maps are walked, each map in its own. -/
structure Orders where
  rows : Order (Columns × Aggregate)
  sessions : Order (String × Tally)
  accounts : String → Order (AccountId × Int)
  sources : String → Order (SourceId × Int)
  harnesses : String → Order (String × Int)

def choose (orders : Orders) (session : String × Tally) : Chosen where
  sessionId := session.1
  accountId := leader (orders.accounts session.1) session.2.accounts
  sourceId := leader (orders.sources session.1) session.2.sources
  harness := leader (orders.harnesses session.1) session.2.harnesses
  models := session.2.models.map Prod.fst
  aggregate := session.2.aggregate

/-- `account_summaries`. The map they are collected into keeps no order. -/
def accountSummaries (tables : Tables) (ids : List AccountId) : List AccountSummary :=
  (tables.accounts.filter fun account => ids.contains account.id).filterMap fun account => summaryOf tables account.id

/-- One session of the answer, under the accounts found. -/
def report (accounts : List AccountSummary) (session : Chosen) : Except AnalyticsError SessionUsage := do
  let some account := session.accountId.bind (lookup AccountSummary.id accounts)
    | throw (.unreadable "session_id" session.sessionId)
  let some sourceId := session.sourceId | throw (.unreadable "session_id" session.sessionId)
  return ⟨session.sessionId, sourceId, account, session.harness, session.models, session.aggregate.firstAt,
    session.aggregate.lastAt, session.aggregate.metrics⟩

/-- The events a filter selects that name a session. -/
def inSession (filter : AnalyticsFilter) (stored : List Joined) : List Joined :=
  stored.filter fun row => filter.selects row.event && row.event.sessionId.isSome

/-- The order of the ranking: `descending`, then by session. -/
def before (rankBy : RankBy) : String × Tally → String × Tally → Prop :=
  Before Prod.fst fun session => rankBy.measure session.2.aggregate.metrics

instance (rankBy : RankBy) : DecidableRel (before rankBy) :=
  inferInstanceAs (DecidableRel (Before Prod.fst fun _ : String × Tally => _))

/-- `SessionUsage::list`. Events without a session are left out. -/
def list (tables : Tables) (orders : Orders) (stored : List Joined) (filter : AnalyticsFilter) (rankBy : RankBy)
    (limit : Nat) : Except AnalyticsError (List SessionUsage) := do
  filter.check tables
  let listed ← aggregate columns (inSession filter stored)
  let rows := (orders.rows.arrange listed).map decode
  let sessions := orders.sessions.arrange (collect SessionRow.sessionId tallied rows)
  let chosen := ((sessions.insertionSort (before rankBy)).take limit).map (choose orders)
  let accounts := accountSummaries tables (chosen.filterMap Chosen.accountId)
  chosen.mapM (report accounts)

section Counts
variable {Key : Type} [LinearOrder Key]

/-- How many of some events are of a name. -/
def requestsOf (name : Joined → Option Key) (events : List Joined) (key : Key) : Nat :=
  events.countP (name · = some key)

/-- The name most of some events are of, the least of those that share them evenly; none where no event
has one. -/
def Leads (name : Joined → Option Key) (events : List Joined) : Option Key → Prop
  | none => ∀ row ∈ events, name row = none
  | some key => 0 < requestsOf name events key ∧ ∀ other,
      requestsOf name events other < requestsOf name events key ∨
        requestsOf name events key = requestsOf name events other ∧ key ≤ other

/-- The requests of each name over some rows. -/
def counts (name : SessionRow → Option Key) (rows : List SessionRow) : List (Key × Int) :=
  sums Prod.fst Prod.snd (rows.filterMap fun row => (name row).map (·, row.aggregate.metrics.requests))

variable {name : SessionRow → Option Key} {rows : List SessionRow} {row : SessionRow} {key : Key}

theorem ordered_counts (name : SessionRow → Option Key) (rows : List SessionRow) : Ordered (counts name rows) :=
  ordered_sums _

theorem lookup_counts (name : SessionRow → Option Key) (rows : List SessionRow) (key : Key) :
    (counts name rows).lookup key = if ∃ row ∈ rows, name row = some key then
      some ((rows.filter (name · = some key)).map (·.aggregate.metrics.requests)).sum else none := by
  have kept : ((rows.filterMap fun row => (name row).map (·, row.aggregate.metrics.requests)).filter
      (Prod.fst · = key)).map Prod.snd = (rows.filter (name · = some key)).map (·.aggregate.metrics.requests) := by
    induction rows with
    | nil => rfl
    | cons row rest ih =>
      cases named : name row with
      | none => simp [named, ih]
      | some other =>
        by_cases same : other = key
        · simp [named, same, ih]
        · simp [named, same, ih]
  have member : key ∈ (rows.filterMap fun row => (name row).map (·, row.aggregate.metrics.requests)).map Prod.fst ↔
      ∃ row ∈ rows, name row = some key := by
    simp [List.mem_map, List.mem_filterMap, Option.map_eq_some_iff]
  unfold counts
  rw [lookup_sums, kept]
  simp only [member]

theorem requests_sum (values : List UsageMetrics) : values.sum.requests = (values.map UsageMetrics.requests).sum := by
  induction values with
  | nil => rfl
  | cons value rest ih =>
    rw [List.map_cons, List.sum_cons, List.sum_cons, ← ih]
    rfl

theorem counts_append_of_none (unnamed : name row = none) : counts name (rows ++ [row]) = counts name rows := by
  unfold counts
  rw [List.filterMap_append, List.filterMap_cons_none (by rw [unnamed]; rfl), List.filterMap_nil, List.append_nil]

/-- One more row is counted exactly under its name. -/
theorem counts_append_of_some (additive : Additive ((rows ++ [row]).map (·.aggregate.metrics)))
    (named : name row = some key) :
    counts name (rows ++ [row]) = count row.aggregate.metrics.requests key (counts name rows) := by
  have appended : counts name (rows ++ [row]) =
      upsert (fun held => held.getD 0 + row.aggregate.metrics.requests) key (counts name rows) := by
    unfold counts sums
    rw [List.filterMap_append, List.filterMap_cons_some (by rw [named]; rfl), List.filterMap_nil,
      collect_append_singleton]
  have held : ((counts name rows).lookup key).getD 0 =
      ((rows.filter (name · = some key)).map (·.aggregate.metrics.requests)).sum := by
    rw [lookup_counts]
    split
    next => rfl
    next absent =>
      have none_named : rows.filter (name · = some key) = [] := by
        rw [List.filter_eq_nil_iff]
        exact fun other member same => absent ⟨other, member, of_decide_eq_true same⟩
      rw [none_named]
      rfl
  have part : (rows.filter (name · = some key) ++ [row]).Sublist (rows ++ [row]) :=
    List.filter_sublist.append_right [row]
  have fits := additive _ (part.map (·.aggregate.metrics)) _ List.mem_cons_self
  rw [requests_sum, List.map_map, List.map_append, List.sum_append, List.map_singleton, List.sum_singleton] at fits
  rw [appended]
  apply upsert_congr (ordered_counts name rows)
  rw [held]
  exact ((wrap_eq_self_iff _).mpr fits).symm

theorem counts_append (additive : Additive ((rows ++ [row]).map (·.aggregate.metrics)))
    (name : SessionRow → Option Key) : counts name (rows ++ [row]) =
      (name row).elim (counts name rows) fun key => count row.aggregate.metrics.requests key (counts name rows) := by
  cases named : name row with
  | none => exact counts_append_of_none named
  | some key => exact counts_append_of_some additive named

end Counts

/-- A tally of some rows. -/
structure Tallied (rows : List SessionRow) (tally : Tally) : Prop where
  metrics : tally.aggregate.metrics = (rows.map (·.aggregate.metrics)).sum
  first : tally.aggregate.firstAt ∈ rows.map (·.aggregate.firstAt) ∧
    ∀ row ∈ rows, (tally.aggregate.firstAt : Int) ≤ row.aggregate.firstAt
  last : tally.aggregate.lastAt ∈ rows.map (·.aggregate.lastAt) ∧
    ∀ row ∈ rows, (row.aggregate.lastAt : Int) ≤ tally.aggregate.lastAt
  accounts : tally.accounts = counts (some ·.accountId) rows
  sources : tally.sources = counts (some ·.sourceId) rows
  harnesses : tally.harnesses = counts SessionRow.harness rows
  models : tally.models = collect SessionRow.model (fun _ _ => ()) rows

theorem Tallied.single {row : SessionRow} (additive : Additive [row.aggregate.metrics]) :
    Tallied [row] (tallied row none) where
  metrics := by simp [tallied]
  first := by simp [tallied]
  last := by simp [tallied]
  accounts := (@counts_append _ _ [] row additive (some ·.accountId)).symm
  sources := (@counts_append _ _ [] row additive (some ·.sourceId)).symm
  harnesses := (@counts_append _ _ [] row additive SessionRow.harness).symm
  models := rfl

theorem Tallied.more {rows : List SessionRow} {row : SessionRow} {tally : Tally} (held : Tallied rows tally)
    (additive : Additive ((rows ++ [row]).map (·.aggregate.metrics))) :
    Tallied (rows ++ [row]) (tallied row (some tally)) where
  metrics := by
    have whole := additive _ (List.Sublist.refl _)
    rw [List.map_append, List.sum_append, ← held.metrics, List.map_singleton, List.sum_singleton] at whole ⊢
    exact plus_eq whole
  first := by
    obtain ⟨member, least⟩ := held.first
    constructor
    · change min tally.aggregate.firstAt row.aggregate.firstAt ∈ _
      rw [List.map_append, List.mem_append]
      rcases min_choice tally.aggregate.firstAt row.aggregate.firstAt with same | same
      · rw [same]
        exact .inl member
      · rw [same]
        exact .inr (List.mem_singleton_self _)
    · intro other listed
      rcases List.mem_append.mp listed with earlier | here
      · exact (min_le_left _ _).trans (least other earlier)
      · rw [List.mem_singleton.mp here]
        exact min_le_right _ _
  last := by
    obtain ⟨member, greatest⟩ := held.last
    constructor
    · change max tally.aggregate.lastAt row.aggregate.lastAt ∈ _
      rw [List.map_append, List.mem_append]
      rcases max_choice tally.aggregate.lastAt row.aggregate.lastAt with same | same
      · rw [same]
        exact .inl member
      · rw [same]
        exact .inr (List.mem_singleton_self _)
    · intro other listed
      rcases List.mem_append.mp listed with earlier | here
      · exact (greatest other earlier).trans (le_max_left _ _)
      · rw [List.mem_singleton.mp here]
        exact le_max_right _ _
  accounts := by
    rw [counts_append additive, ← held.accounts]
    rfl
  sources := by
    rw [counts_append additive, ← held.sources]
    rfl
  harnesses := by
    rw [counts_append additive, ← held.harnesses]
    rfl
  models := by
    rw [collect_append_singleton, ← held.models]
    rfl

theorem tallied_rows {rows : List SessionRow} (additive : Additive (rows.map (·.aggregate.metrics)))
    (filled : rows ≠ []) : ∃ tally, rows.foldl (fun held row => some (tallied row held)) none = some tally ∧ Tallied rows tally := by
  induction rows using List.reverseRecOn with
  | nil => exact absurd rfl filled
  | append_singleton rows row ih =>
    rw [List.foldl_append]
    by_cases empty : rows = []
    · subst empty
      exact ⟨_, rfl, Tallied.single additive⟩
    · obtain ⟨tally, folded, held⟩ := ih (additive.sublist ((List.sublist_append_left rows [row]).map _)) empty
      rw [folded]
      exact ⟨_, rfl, held.more additive⟩

section Rows
variable {selected : List Joined} {arranged : List (Columns × Aggregate)}

/-- A row as it is read where it has a session. -/
def read (row : Columns × Aggregate) : SessionRow :=
  ⟨row.1.sessionId.getD unknownKey, row.1.accountId, row.1.sourceId, row.1.harness, row.1.model, row.2⟩

theorem decode_eq {row : Columns × Aggregate} (named : row.1.sessionId.isSome = true) : decode row = read row := by
  obtain ⟨session, same⟩ := Option.isSome_iff_exists.mp named
  unfold decode read
  rw [same]
  rfl

/-- The rows of some groups count the events of those groups. -/
theorem requests_rows (shared : Shared columns selected arranged) (named : Columns → Bool) :
    ((arranged.filter (named ·.1)).map (·.2.metrics.requests)).sum =
      ((selected.filter (named <| columns ·)).length : Int) := by
  have whole := congrArg UsageMetrics.requests (shared.sum_filter named)
  rw [requests_sum, List.map_map] at whole
  exact whole

theorem exists_row (shared : Shared columns selected arranged) (held : Columns → Prop) :
    (∃ row ∈ arranged, held row.1) ↔ ∃ row ∈ selected, held (columns row) := by
  constructor
  · rintro ⟨row, member, holds⟩
    obtain ⟨event, stored, named⟩ := List.mem_map.mp ((shared.known row.1).mp (List.mem_map_of_mem member))
    exact ⟨event, stored, by rwa [named]⟩
  · rintro ⟨event, stored, holds⟩
    obtain ⟨row, member, named⟩ := List.mem_map.mp ((shared.known _).mpr (List.mem_map_of_mem stored))
    exact ⟨row, member, by rwa [named]⟩

/-- The rows of a session. -/
def rowsOf (session : String) (rows : List SessionRow) : List SessionRow := rows.filter (·.sessionId = session)

/-- The events of a session. -/
def eventsOf (session : String) (events : List Joined) : List Joined :=
  events.filter (Dimension.expression ·.event .session = session)

variable {Key : Type}

theorem rowsOf_read (session : String) (arranged : List (Columns × Aggregate)) : rowsOf session (arranged.map read) =
    (arranged.filter fun row => row.1.sessionId.getD unknownKey = session).map read := List.filter_map

theorem exists_rowsOf (shared : Shared columns selected arranged) (session : String) (name : Columns → Option Key)
    (called : SessionRow → Option Key) (same : ∀ row, called (read row) = name row.1) (key : Key) :
    (∃ row ∈ rowsOf session (arranged.map read), called row = some key) ↔
      ∃ row ∈ eventsOf session selected, name (columns row) = some key := by
  have groups := exists_row shared fun group => group.sessionId.getD unknownKey = session ∧ name group = some key
  have spelled (row : Joined) :
      Dimension.expression row.event .session = (columns row).sessionId.getD unknownKey := rfl
  rw [rowsOf_read]
  simpa [same, eventsOf, and_assoc, spelled] using groups

variable [LinearOrder Key]

theorem lookup_counts_rowsOf (shared : Shared columns selected arranged) (session : String)
    (name : Columns → Option Key) (called : SessionRow → Option Key) (same : ∀ row, called (read row) = name row.1) (key : Key) :
    (counts called (rowsOf session (arranged.map read))).lookup key =
      if ∃ row ∈ eventsOf session selected, name (columns row) = some key then
        some (requestsOf (name <| columns ·) (eventsOf session selected) key : Int) else none := by
  have whole := requests_rows shared fun group =>
    decide (name group = some key) && decide (group.sessionId.getD unknownKey = session)
  have rows : ((rowsOf session (arranged.map read)).filter (called · = some key)).map (·.aggregate.metrics.requests) =
      (arranged.filter fun row => decide (name row.1 = some key) &&
        decide (row.1.sessionId.getD unknownKey = session)).map (·.2.metrics.requests) := by
    rw [rowsOf_read, List.filter_map, List.map_map, List.filter_filter]
    congr 1
    apply List.filter_congr
    intro row _
    simp only [Function.comp, same]
  rw [lookup_counts, rows, whole, requestsOf, List.countP_eq_length_filter, eventsOf, List.filter_filter]
  simp only [exists_rowsOf shared session name called same]
  rfl

/-- However its map is walked, a session's leader is the name most of its events are of. -/
theorem leader_leads (shared : Shared columns selected arranged) (session : String) (name : Columns → Option Key)
    (called : SessionRow → Option Key) (same : ∀ row, called (read row) = name row.1) (order : Order (Key × Int)) :
    Leads (name <| columns ·) (eventsOf session selected)
      (leader order (counts called (rowsOf session (arranged.map read)))) := by
  let walked := order.arrange (counts called (rowsOf session (arranged.map read)))
  have perm : walked.Perm (counts called (rowsOf session (arranged.map read))) := order.perm _
  have entry (key : Key) (requests : Int) : (key, requests) ∈ walked ↔
      (∃ row ∈ eventsOf session selected, name (columns row) = some key) ∧
        requests = requestsOf (name <| columns ·) (eventsOf session selected) key := by
    have found := lookup_counts_rowsOf shared session name called same key
    rw [perm.mem_iff, ← (ordered_counts _ _).lookup_eq_some_iff, found]
    split
    next held => exact ⟨fun same => ⟨held, (Option.some.inj same).symm⟩, fun both => congrArg some both.2.symm⟩
    next absent => exact ⟨fun same => (nomatch same), fun both => absurd both.1 absent⟩
  have spec := leading_spec Prod.fst Prod.snd walked
  unfold leader
  change Leads _ _ ((leading Prod.fst Prod.snd walked).map Prod.fst)
  cases leads : leading Prod.fst Prod.snd walked with
  | none =>
    rw [leads] at spec
    intro row member
    cases named : name (columns row) with
    | none => exact named
    | some key =>
      have listed := (entry key _).mpr ⟨⟨row, member, named⟩, rfl⟩
      rw [show walked = [] from spec] at listed
      cases listed
  | some found =>
    obtain ⟨key, requests⟩ := found
    rw [leads] at spec
    obtain ⟨member, first⟩ := spec
    obtain ⟨⟨row, held, named⟩, rfl⟩ := (entry key requests).mp member
    have positive : 0 < requestsOf (name <| columns ·) (eventsOf session selected) key :=
      List.countP_pos_iff.mpr ⟨row, held, decide_eq_true named⟩
    refine ⟨positive, ?_⟩
    intro other
    by_cases used : ∃ row ∈ eventsOf session selected, name (columns row) = some other
    · have before := first _ ((entry other _).mpr ⟨used, rfl⟩)
      simpa [Before] using before
    · have unused : requestsOf (name <| columns ·) (eventsOf session selected) other = 0 := by
        apply List.countP_eq_zero.mpr
        intro row member named
        exact used ⟨row, member, of_decide_eq_true named⟩
      exact .inl (unused ▸ positive)

end Rows

/-- The least and the greatest instant of some events. -/
structure Spans (events : List Joined) (first last : Timestamp) : Prop where
  begun : first ∈ events.map (·.event.occurredAt)
  least : ∀ row ∈ events, (first : Int) ≤ row.event.occurredAt
  ended : last ∈ events.map (·.event.occurredAt)
  greatest : ∀ row ∈ events, (row.event.occurredAt : Int) ≤ last

/-- A session of some events: all they add up to, when they began and ended, and who carried most. -/
structure Told (tables : Tables) (events : List Joined) (usage : SessionUsage) : Prop where
  metrics : usage.metrics = metrics events
  span : (∀ row ∈ events, Printable row.event.occurredAt) → Spans events usage.firstAt usage.lastAt
  account : Leads (some ·.event.accountId) events (some usage.account.id)
  summary : summaryOf tables usage.account.id = some usage.account
  source : Leads (some ·.event.sourceId) events (some usage.sourceId)
  harness : Leads (·.event.harness) events usage.harness
  sorted : usage.models.Pairwise (· < ·)
  models : ∀ model, model ∈ usage.models ↔ model ∈ events.map (·.event.model)

section Told
variable {selected : List Joined} {arranged : List (Columns × Aggregate)} {tables : Tables} {session : String}
  {tally : Tally}

/-- The span of an aggregate is that of its events, as far as their instants are printed in four digits. -/
theorem aggregateOf_spans {members : List Joined} {found : Aggregate} (made : aggregateOf members = .ok found)
    (printed : ∀ row ∈ members, Printable row.event.occurredAt) : Spans members found.firstAt found.lastAt := by
  unfold aggregateOf at made
  split at made
  next => cases made
  next span loaded =>
    cases made
    obtain ⟨first, last, between⟩ := Shift.load_spec loaded
    rw [List.map_map] at first last
    have shown (instant : Timestamp) (member : instant ∈ members.map (UsageEvent.occurredAt ∘ Joined.event)) :
        Printable instant := by
      obtain ⟨row, held, rfl⟩ := List.mem_map.mp member
      exact printed row held
    refine ⟨first, fun row held => ?_, last, fun row held => ?_⟩
    · have least := (between row.event (List.mem_map_of_mem held)).1
      exact (stored_le_iff (shown _ first) (printed row held)).mp least
    · have greatest := (between row.event (List.mem_map_of_mem held)).2
      exact (stored_le_iff (printed row held) (shown _ last)).mp greatest

theorem row_spans (shared : Shared columns selected arranged)
    (printed : ∀ row ∈ eventsOf session selected, Printable row.event.occurredAt) {row : Columns × Aggregate}
    (held : row ∈ arranged) (named : row.1.sessionId.getD unknownKey = session) :
    Spans ((eventsOf session selected).filter (columns · = row.1)) row.2.firstAt row.2.lastAt := by
  have group : (eventsOf session selected).filter (columns · = row.1) = selected.filter (columns · = row.1) := by
    rw [eventsOf, List.filter_filter]
    apply List.filter_congr
    intro event _
    by_cases same : columns event = row.1
    · have spelled : Dimension.expression event.event .session = session := by
        rw [← named, ← same]
        rfl
      simp [same, spelled]
    · simp [same]
  rw [group]
  apply aggregateOf_spans (shared.whole row held)
  intro event member
  rw [← group] at member
  exact printed event (List.mem_of_mem_filter member)

theorem tally_spans (shared : Shared columns selected arranged)
    (tallied : Tallied (rowsOf session (arranged.map read)) tally)
    (printed : ∀ row ∈ eventsOf session selected, Printable row.event.occurredAt) :
    Spans (eventsOf session selected) tally.aggregate.firstAt tally.aggregate.lastAt := by
  have row (found : SessionRow) (member : found ∈ rowsOf session (arranged.map read)) : ∃ group,
      Spans ((eventsOf session selected).filter (columns · = group)) found.aggregate.firstAt
        found.aggregate.lastAt := by
    rw [rowsOf_read] at member
    obtain ⟨source, held, rfl⟩ := List.mem_map.mp member
    obtain ⟨listed, named⟩ := List.mem_filter.mp held
    exact ⟨source.1, row_spans shared printed listed (of_decide_eq_true named)⟩
  -- The other way round: each event is in the group of a row.
  have event (found : Joined) (member : found ∈ eventsOf session selected) :
      ∃ row ∈ rowsOf session (arranged.map read), (row.aggregate.firstAt : Int) ≤ found.event.occurredAt ∧
        (found.event.occurredAt : Int) ≤ row.aggregate.lastAt := by
    obtain ⟨stored, named⟩ := List.mem_filter.mp member
    obtain ⟨source, held, same⟩ := List.mem_map.mp ((shared.known _).mpr (List.mem_map_of_mem stored))
    have spelled : source.1.sessionId.getD unknownKey = session := by
      rw [same]
      exact of_decide_eq_true named
    have spans := row_spans shared printed held spelled
    have inside : found ∈ (eventsOf session selected).filter (columns · = source.1) :=
      List.mem_filter.mpr ⟨member, decide_eq_true same.symm⟩
    refine ⟨read source, ?_, spans.least found inside, spans.greatest found inside⟩
    exact List.mem_filter.mpr ⟨List.mem_map_of_mem held, decide_eq_true spelled⟩
  obtain ⟨firstHeld, least⟩ := tallied.first
  obtain ⟨lastHeld, greatest⟩ := tallied.last
  refine ⟨?_, fun found member => ?_, ?_, fun found member => ?_⟩
  · obtain ⟨earliest, listed, same⟩ := List.mem_map.mp firstHeld
    obtain ⟨group, spans⟩ := row earliest listed
    obtain ⟨event, held, at_first⟩ := List.mem_map.mp spans.begun
    exact List.mem_map.mpr ⟨event, List.mem_of_mem_filter held, at_first.trans same⟩
  · obtain ⟨found, listed, before, -⟩ := event found member
    exact (least found listed).trans before
  · obtain ⟨latest, listed, same⟩ := List.mem_map.mp lastHeld
    obtain ⟨group, spans⟩ := row latest listed
    obtain ⟨event, held, at_last⟩ := List.mem_map.mp spans.ended
    exact List.mem_map.mpr ⟨event, List.mem_of_mem_filter held, at_last.trans same⟩
  · obtain ⟨found, listed, -, after⟩ := event found member
    exact after.trans (greatest found listed)

/-- The models of a session's tally are those its events used, in order. -/
theorem models_of_tally (shared : Shared columns selected arranged)
    (tallied : Tallied (rowsOf session (arranged.map read)) tally) :
    (tally.models.map Prod.fst).Pairwise (· < ·) ∧ ∀ model,
      model ∈ tally.models.map Prod.fst ↔ model ∈ (eventsOf session selected).map (·.event.model) := by
  rw [tallied.models]
  refine ⟨ordered_iff_keys.mp (ordered_collect _), ?_⟩
  intro model
  have groups := exists_rowsOf shared session (some ·.model) (some ·.model) (fun _ => rfl) model
  simp only [Option.some.injEq] at groups
  rw [keys_collect, List.mem_map, List.mem_map]
  exact groups

/-- What is chosen of a session's tally tells its events. -/
theorem report_ok (orders : Orders) (shared : Shared columns selected arranged)
    (tallied : Tallied (rowsOf session (arranged.map read)) tally) {accounts : List AccountSummary}
    (filled : eventsOf session selected ≠ [])
    (listed : ∀ id, (choose orders (session, tally)).accountId = some id → ∃ summary,
      lookup AccountSummary.id accounts id = some summary ∧ summary.id = id ∧ summaryOf tables id = some summary) :
    ∃ usage, report accounts (choose orders (session, tally)) = .ok usage ∧
      usage.sessionId = session ∧ Told tables (eventsOf session selected) usage := by
  have account := leader_leads shared session (some ·.accountId) (some ·.accountId) (fun _ => rfl)
    (orders.accounts session)
  have source := leader_leads shared session (some ·.sourceId) (some ·.sourceId) (fun _ => rfl)
    (orders.sources session)
  have harness := leader_leads shared session Columns.harness SessionRow.harness (fun _ => rfl)
    (orders.harnesses session)
  rw [← tallied.accounts] at account
  rw [← tallied.sources] at source
  rw [← tallied.harnesses] at harness
  obtain ⟨event, member⟩ := List.exists_mem_of_ne_nil _ filled
  cases accountId : leader (orders.accounts session) tally.accounts with
  | none =>
    rw [accountId] at account
    exact absurd (account event member) (Option.some_ne_none _)
  | some id =>
    cases sourceId : leader (orders.sources session) tally.sources with
    | none =>
      rw [sourceId] at source
      exact absurd (source event member) (Option.some_ne_none _)
    | some found =>
      rw [accountId] at account
      rw [sourceId] at source
      obtain ⟨summary, there, rfl, summarized⟩ := listed id accountId
      have whole := shared.sum_filter fun group => decide (group.sessionId.getD unknownKey = session)
      obtain ⟨sorted, models⟩ := models_of_tally shared tallied
      refine ⟨⟨session, found, summary, leader (orders.harnesses session) tally.harnesses,
        tally.models.map Prod.fst, tally.aggregate.firstAt, tally.aggregate.lastAt, tally.aggregate.metrics⟩, ?_, rfl,
        ?_, tally_spans shared tallied, account, summarized, source, harness, sorted, models⟩
      · unfold report choose
        simp only [accountId, sourceId, Option.bind_some, there]
        rfl
      · change tally.aggregate.metrics = _
        rw [tallied.metrics, rowsOf_read, List.map_map]
        exact whole

theorem tallied_of_mem {rows : List SessionRow} (additive : Additive (rows.map (·.aggregate.metrics)))
    {entry : String × Tally} (member : entry ∈ collect SessionRow.sessionId tallied rows) : Tallied (rowsOf entry.1 rows) entry.2 := by
  have found := (ordered_collect rows).lookup_of_mem member
  rw [lookup_collect] at found
  have filled : rowsOf entry.1 rows ≠ [] := by
    intro empty
    rw [show rows.filter (SessionRow.sessionId · = entry.1) = [] from empty] at found
    cases found
  obtain ⟨tally, folded, held⟩ := tallied_rows (additive.sublist (List.filter_sublist.map _)) filled
  obtain rfl := Option.some.inj (found.symm.trans folded)
  exact held

/-- The sessions of the tallies are those events name. -/
theorem session_of_tally (shared : Shared columns selected arranged) (session : String) :
    session ∈ (collect SessionRow.sessionId tallied (arranged.map read)).map Prod.fst ↔
      session ∈ selected.map (Dimension.expression ·.event .session) := by
  have groups := exists_row shared fun group => group.sessionId.getD unknownKey = session
  rw [keys_collect, List.map_map, List.mem_map, List.mem_map]
  exact groups

/-- However the sessions are walked, their tallies rank as the events of each do. -/
theorem ranked_tallies (shared : Shared columns selected arranged) (bounded : Bounded selected)
    (order : Order (String × Tally)) (rankBy : RankBy) :
    ((order.arrange (collect SessionRow.sessionId tallied (arranged.map read))).insertionSort (before rankBy)).map
      (fun session => (session.1, session.2.aggregate.metrics)) = ranking .session rankBy selected := by
  let sessions := collect SessionRow.sessionId tallied (arranged.map read)
  have additive : Additive ((arranged.map read).map (·.aggregate.metrics)) := by
    rw [List.map_map]
    exact shared.additive bounded
  have perm : (order.arrange sessions).Perm sessions := order.perm _
  have keys : ((order.arrange sessions).map fun session => (session.1, session.2.aggregate.metrics)).map Prod.fst =
      (order.arrange sessions).map Prod.fst := List.map_map
  have once : ((order.arrange sessions).map Prod.fst).Nodup :=
    (perm.map Prod.fst).nodup_iff.mpr ((ordered_iff_keys.mp (ordered_collect _)).imp ne_of_lt)
  rw [List.map_insertionSort (r := before rankBy)
    (s := Before Prod.fst fun group : String × UsageMetrics => rankBy.measure group.2)]
  · apply ranked_eq_of_perm
    · rwa [keys]
    · apply perm_split
      · rwa [keys]
      · intro session
        rw [keys, (perm.map Prod.fst).mem_iff]
        exact session_of_tally shared session
      · intro group member
        obtain ⟨entry, held, rfl⟩ := List.mem_map.mp member
        have held := tallied_of_mem additive (perm.mem_iff.mp held)
        have whole := shared.sum_filter fun group => decide (group.sessionId.getD unknownKey = entry.1)
        dsimp only
        rw [held.metrics, rowsOf_read, List.map_map]
        exact whole
  · intro first _ second _
    rfl

end Told

theorem lookup_accountSummaries {tables : Tables} {ids : List AccountId} {id : AccountId} (asked : id ∈ ids)
    {summary : AccountSummary} (known : summaryOf tables id = some summary) :
    lookup AccountSummary.id (accountSummaries tables ids) id = some summary ∧ summary.id = id := by
  have named (other : AccountId) (found : AccountSummary) (same : summaryOf tables other = some found) :
      found.id = other := by
    simp only [summaryOf, Option.bind_eq_bind, Option.bind_eq_some_iff, Option.pure_def, Option.some.injEq] at same
    obtain ⟨account, stored, source, -, rfl⟩ := same
    exact (lookup_mem stored).2
  refine ⟨?_, named id summary known⟩
  cases found : lookup AccountSummary.id (accountSummaries tables ids) id with
  | some other =>
    obtain ⟨member, same⟩ := lookup_mem found
    obtain ⟨account, -, summarized⟩ := List.mem_filterMap.mp member
    rw [named _ _ summarized] at same
    rw [same, known] at summarized
    exact summarized.symm
  | none =>
    have account : ∃ account ∈ tables.accounts, account.id = id := by
      simp only [summaryOf, Option.bind_eq_bind, Option.bind_eq_some_iff] at known
      obtain ⟨account, stored, -⟩ := known
      exact ⟨account, lookup_mem stored⟩
    obtain ⟨account, stored, rfl⟩ := account
    have kept : account ∈ tables.accounts.filter fun account => ids.contains account.id :=
      List.mem_filter.mpr ⟨stored, List.contains_iff_mem.mpr asked⟩
    have listed : summary ∈ accountSummaries tables ids := List.mem_filterMap.mpr ⟨account, kept, known⟩
    exact absurd (named _ _ known) (lookup_eq_none.mp found summary listed)

/-- Rows and maps in the order they are listed in. -/
def Orders.listed : Orders := ⟨.listed _, .listed _, fun _ => .listed _, fun _ => .listed _, fun _ => .listed _⟩

/-- A session of a request of the first account and two of the second. -/
def movedSession : List Joined := [1, 2, 2].map fun account =>
  ⟨{ Shift.requestAt 0 with accountId := account, sessionId := some "moved" }, none, none, none⟩

end MeteredUsage.Analytics.Sessions
