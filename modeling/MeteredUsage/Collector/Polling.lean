import MeteredUsage.Collector.LiteLlm
import MeteredUsage.Store.Commands

/-! Polls of LiteLLM's `/spend/logs/v2`. The endpoint has no cursor, only a time window and
offset pages, and a row is written when its request ends, so it can land behind a later
`startTime`. Each poll reaches back past the newest stored event. -/

namespace MeteredUsage.Collector.Polling
open MeteredUsage.Values MeteredUsage.Store.Schema MeteredUsage.Store.Events
open MeteredUsage.Store.Ingest MeteredUsage.Store.Commands MeteredUsage.Collector.LiteLlm
open MeteredUsage.Library.Transaction

def pageSize : Nat := 500
def overlap : Int := minutes 15
def firstWindow : Int := hours (30 * 24)
/-- A little past now keeps a proxy whose clock runs ahead from hiding its newest rows. -/
def clockSlack : Int := minutes 5

/-- An instant as `WINDOW_FORMAT` prints it: to the second. -/
def toSecond (time : Timestamp) : Timestamp := time - time % 1000000000

/-- A row of the endpoint, sorted by when it started. A readable one prints that instant. -/
structure LogRow (reading : Reading) where
  startTime : Timestamp
  body : Json
  printed : ∀ event, parse reading body = .record event → event.occurredAt = startTime

/-- Whether a body prints an instant, if it is readable. -/
def prints (reading : Reading) (startTime : Timestamp) (body : Json) : Bool :=
  match parse reading body with
  | .record event => event.occurredAt = startTime
  | .rejected _ _ => true

theorem printed_of_prints {reading : Reading} {startTime : Timestamp} {body : Json}
    (prints : prints reading startTime body = true) (event : NewUsageEvent)
    (read : parse reading body = .record event) : event.occurredAt = startTime := by
  rw [Polling.prints, read] at prints
  exact of_decide_eq_true prints

/-- The rows written so far. -/
structure Logs (reading : Reading) where
  rows : List (LogRow reading)
  sorted : rows.Pairwise fun first second => first.startTime ≤ second.startTime

structure Window where
  start : Timestamp
  finish : Timestamp
deriving DecidableEq, Repr

def Window.covers (window : Window) (time : Timestamp) : Bool :=
  window.start ≤ time && time ≤ window.finish

variable {reading : Reading}

/-- The rows of a window. -/
def Logs.within (logs : Logs reading) (window : Window) : List (LogRow reading) :=
  logs.rows.filter fun row => window.covers row.startTime

/-- What the endpoint answers for a page, the first of which is 1. -/
def Logs.page (logs : Logs reading) (window : Window) (page : Nat) : List (LogRow reading) :=
  ((logs.within window).drop ((page - 1) * pageSize)).take pageSize

/-- The logs with a row at this place of them. -/
def Logs.write (logs : Logs reading) (place : Nat) (row : LogRow reading) : Option (Logs reading) :=
  let rows := logs.rows.take place ++ row :: logs.rows.drop place
  if sorted : rows.Pairwise fun first second => first.startTime ≤ second.startTime then
    some ⟨rows, sorted⟩
  else none

/-- A row of `collector_state`. -/
structure CollectorState where
  connectedSince : Option Timestamp
  lastRecordAt : Option Timestamp
  recordsReceived : Nat
  consecutiveFailures : Nat
  lastError : Option String
  updatedAt : Timestamp
deriving DecidableEq, Repr

/-- A row with the defaults of the table. -/
def CollectorState.new (updatedAt : Timestamp) : CollectorState := ⟨none, none, 0, 0, none, updatedAt⟩

/-- `Progress::received`, where there is something to count. -/
def received (count : Nat) (now : Timestamp) (collector : Option CollectorState) : CollectorState :=
  let row := collector.getD (CollectorState.new now)
  { row with
    lastRecordAt := some now, recordsReceived := row.recordsReceived + count, updatedAt := now }

/-- `Progress::polled`. -/
def polled (now : Timestamp) (collector : Option CollectorState) : CollectorState :=
  let row := collector.getD (CollectorState.new now)
  { row with
    connectedSince := row.connectedSince.or (some now)
    consecutiveFailures := 0
    lastError := none
    updatedAt := now }

/-- `Progress::failed`. -/
def failed (error : String) (now : Timestamp) (collector : Option CollectorState) : CollectorState :=
  let row := collector.getD (CollectorState.new now)
  { row with
    connectedSince := none
    consecutiveFailures := row.consecutiveFailures + 1
    lastError := some error
    updatedAt := now }

/-- `last_event_at` of a source. -/
def lastEventAt (tables : Tables) (source : SourceId) : Option Timestamp :=
  if tables.sources.any (·.id = source) then
    ((tables.events.filter (·.sourceId = source)).map UsageEvent.occurredAt).max?
  else none

/-- A poll between two of its pages. -/
structure Poll where
  window : Window
  /-- The page to read next. -/
  page : Nat
  /-- Whether the last page was short, so there is no next one. -/
  short : Bool
  total : IngestReport
deriving DecidableEq, Repr

structure Collecting (reading : Reading) where
  tables : Tables
  collector : Option CollectorState
  logs : Logs reading
  now : Timestamp
  poll : Option Poll

/-- Why a poll gave up, and whether the failure could be recorded. -/
structure Failure where
  error : String
  recorded : Bool

inductive Event (reading : Reading) where
  | tick (now : Timestamp)
  /-- LiteLLM writes a row, at this place of its rows. -/
  | write (place : Nat) (row : LogRow reading)
  | begin
  /-- A page is answered and ingested, and what it brought in is counted, or a database
  failure ends the poll. -/
  | page (world : World) (counted : Bool) (failure : Failure)
  /-- The poll, or the read it begins with, fails in any other way. -/
  | fail (failure : Failure)
  | finish (noted : Bool) (failure : Failure)

/-- The poll ends with an error. -/
def Collecting.abandon (state : Collecting reading) (failure : Failure) : Collecting reading :=
  { state with
    poll := none
    collector := if failure.recorded then some (failed failure.error state.now state.collector)
      else state.collector }

/-- The window of a poll that begins now. -/
def Collecting.window (state : Collecting reading) (source : SourceId) : Window where
  start := toSecond (((lastEventAt state.tables source).map fun newest => newest - overlap).getD
    (state.now - firstWindow))
  finish := toSecond (state.now + clockSlack)

def IngestReport.add (total report : IngestReport) : IngestReport :=
  ⟨total.accepted + report.accepted, total.duplicates + report.duplicates,
    total.rejected + report.rejected⟩

/-- Counts the records a page brought in, stored or dead-lettered, not those already seen. -/
def Collecting.count (state : Collecting reading) (poll : Poll) (report : IngestReport)
    (counted : Bool) (failure : Failure) : Collecting reading :=
  let count := report.accepted + report.rejected
  let state := { state with poll := some { poll with total := IngestReport.add poll.total report } }
  if count = 0 then state
  else if counted then { state with collector := some (received count state.now state.collector) }
  else state.abandon failure

def step (source : SourceId) (state : Collecting reading) :
    Event reading → Option (Collecting reading)
  | .tick now => if state.now ≤ now then some { state with now := now } else none
  | .write place row => (state.logs.write place row).map fun logs => { state with logs := logs }
  | .begin =>
    if state.poll.isSome then none
    else some { state with poll := some ⟨state.window source, 1, false, ⟨0, 0, 0⟩⟩ }
  | .page world counted failure => state.poll.bind fun poll =>
    if poll.short then none
    else
      let rows := state.logs.page poll.window poll.page
      let poll := { poll with page := poll.page + 1, short := decide (rows.length < pageSize) }
      if rows = [] then some { state with poll := some poll }
      else
        match transact (ingest reading.runtime source (rows.map fun row => parse reading row.body))
            (world.session state.tables) with
        | (.ok (.committed progress), tables) => some
            ({ state with tables := tables }.count poll progress.report counted failure)
        | _ => some (state.abandon failure)
  | .fail failure => some (state.abandon failure)
  | .finish noted failure => state.poll.bind fun poll =>
    if poll.short then
      if noted then some
        { state with poll := none, collector := some (polled state.now state.collector) }
      else some (state.abandon failure)
    else none

/-- The records of a page. -/
def records (rows : List (LogRow reading)) : List Incoming := rows.map fun row => parse reading row.body

/-- `records_received`, 0 before there is a row. -/
def recordsReceived (collector : Option CollectorState) : Nat :=
  (collector.map CollectorState.recordsReceived).getD 0

/-- The page after the one a poll reads next. -/
def Poll.turned (poll : Poll) (rows : List (LogRow reading)) (total : IngestReport) : Poll :=
  ⟨poll.window, poll.page + 1, decide (rows.length < pageSize), total⟩

/-- What a page can do. -/
inductive Paged (source : SourceId) (state : Collecting reading) (poll : Poll)
    (rows : List (LogRow reading)) : Collecting reading → Prop
  | empty (nothing : rows = []) :
    Paged source state poll rows { state with poll := some (poll.turned rows poll.total) }
  | stored (world : World) (progress : Progress) (tables : Tables) (collector : Option CollectorState)
    (total : IngestReport)
    (committed : transact (ingest reading.runtime source (records rows)) (world.session state.tables) =
      (.ok (.committed progress), tables))
    (counted : recordsReceived collector = recordsReceived state.collector +
      (progress.report.accepted + progress.report.rejected)) :
    Paged source state poll rows
      { state with tables := tables, collector := collector, poll := some (poll.turned rows total) }
  | uncounted (world : World) (progress : Progress) (tables : Tables) (failure : Failure)
    (committed : transact (ingest reading.runtime source (records rows)) (world.session state.tables) =
      (.ok (.committed progress), tables)) :
    Paged source state poll rows ({ state with tables := tables }.abandon failure)
  | refused (failure : Failure) : Paged source state poll rows (state.abandon failure)

theorem toSecond_mono {first second : Timestamp} (before : first ≤ second) :
    toSecond first ≤ toSecond second := by
  have whole (time : Timestamp) : toSecond time = 1000000000 * (time / 1000000000) := by
    rw [toSecond, Int.emod_def, Int.sub_sub_self]
  rw [whole, whole]
  exact Int.mul_le_mul_of_nonneg_left (Int.ediv_le_ediv (by decide) before) (by decide)

variable {source : SourceId} {state next : Collecting reading}

theorem step_tick {now : Timestamp} :
    step source state (.tick now) = some next ↔ state.now ≤ now ∧ next = { state with now := now } := by
  unfold step
  rw [Option.ite_none_right_eq_some, Option.some.injEq, eq_comm (a := next)]

theorem step_write {place : Nat} {row : LogRow reading} :
    step source state (.write place row) = some next ↔
      ∃ logs, state.logs.write place row = some logs ∧ next = { state with logs := logs } := by
  unfold step
  rw [Option.map_eq_some_iff]
  exact exists_congr fun logs => and_congr_right fun _ => eq_comm

theorem step_begin :
    step source state .begin = some next ↔ state.poll = none ∧
      next = { state with poll := some ⟨state.window source, 1, false, ⟨0, 0, 0⟩⟩ } := by
  unfold step
  rw [Option.ite_none_left_eq_some, Option.some.injEq, eq_comm (a := next), Option.not_isSome_iff_eq_none]

theorem step_finish {noted : Bool} {failure : Failure} :
    step source state (.finish noted failure) = some next ↔
      ∃ poll, state.poll = some poll ∧ poll.short = true ∧
        next = if noted then { state with
            poll := none, collector := some (polled state.now state.collector) }
          else state.abandon failure := by
  simp only [step, Option.bind_eq_some_iff]
  refine exists_congr fun poll => and_congr_right fun _ => ?_
  cases poll.short <;> cases noted <;> simp [eq_comm]

theorem step_page {world : World} {counted : Bool} {failure : Failure}
    (taken : step source state (.page world counted failure) = some next) :
    ∃ poll, state.poll = some poll ∧ poll.short = false ∧
      Paged source state poll (state.logs.page poll.window poll.page) next := by
  obtain ⟨poll, running, taken⟩ := Option.bind_eq_some_iff.mp taken
  refine ⟨poll, running, ?_⟩
  split at taken
  next => cases taken
  next long =>
    refine ⟨Bool.eq_false_iff.mpr long, ?_⟩
    simp only at taken
    split at taken
    next nothing =>
      cases taken
      exact .empty nothing
    next =>
      split at taken
      next progress tables committed =>
        cases taken
        unfold Collecting.count
        by_cases nothing : progress.report.accepted + progress.report.rejected = 0
        · simp only [if_pos nothing]
          exact .stored world progress tables state.collector _ committed (by rw [nothing]; rfl)
        · simp only [if_neg nothing]
          cases counted with
          | true =>
            refine .stored world progress tables _ _ committed ?_
            cases state.collector <;> rfl
          | false => exact .uncounted world progress tables failure committed
      next =>
        cases taken
        exact .refused failure

end MeteredUsage.Collector.Polling
