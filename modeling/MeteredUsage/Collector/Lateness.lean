import MeteredUsage.Collector.Polling
import MeteredUsage.Store.Commits
import MeteredUsage.Store.Merged
import MeteredUsage.Store.Redelivery

/-! Rows written late. A window begins a while before the newest stored event, so a row that
lands behind the place a poll has reached is read by the next one, as long as no later page of
the same poll stores an event too far ahead of it. -/

namespace MeteredUsage.Collector.Lateness
open MeteredUsage.Values MeteredUsage.Store MeteredUsage.Store.Schema MeteredUsage.Store.Events
open MeteredUsage.Store.Ingest MeteredUsage.Store.Intake MeteredUsage.Store.Redelivery
open MeteredUsage.Collector.LiteLlm MeteredUsage.Collector.Polling
open MeteredUsage.Library.Execution MeteredUsage.Library.Transaction

variable {reading : Reading} {source : SourceId}

/-- The event of a record is stored. -/
def Stored (runtime : Sql.Runtime) (source : SourceId) (event : NewUsageEvent) (tables : Tables) :
    Prop := tables.events.any (holdsHash source (event.recordHash runtime)) = true

/-- The rows of a poll's window before the place it has reached. -/
def passed (state : Collecting reading) (poll : Poll) : List (LogRow reading) :=
  (state.logs.within poll.window).take ((poll.page - 1) * pageSize)

/-- The rows a poll would still reach. -/
def ahead (state : Collecting reading) (poll : Poll) : List (LogRow reading) :=
  (state.logs.within poll.window).drop ((poll.page - 1) * pageSize)

theorem passed_first {state : Collecting reading} {poll : Poll} (first : poll.page = 1) :
    passed state poll = [] := by
  rw [passed, first, Nat.sub_self, Nat.zero_mul, List.take_zero]

/-- A row is written while its request ends: not before it started, and no more than the overlap
after. -/
def Timely (state : Collecting reading) : Event reading → Prop
  | .write _ row => row.startTime ≤ state.now ∧ state.now ≤ row.startTime + overlap
  | _ => True

/-- What a step must not do to a written row that is not stored yet: begin a first window past
it, or read a page of rows too far ahead of it when the poll has passed it. -/
def Reaches (source : SourceId) (row : LogRow reading) (event : NewUsageEvent)
    (state : Collecting reading) (step : Event reading) : Prop :=
  row ∈ state.logs.rows → ¬Stored reading.runtime source event state.tables →
    match step with
    | .begin => lastEventAt state.tables source = none →
        toSecond (state.now - firstWindow) ≤ row.startTime
    | .page _ _ _ => ∀ poll ∈ state.poll, row ∈ passed state poll →
        ∀ later ∈ state.logs.page poll.window poll.page, isRejected (parse reading later.body) = false →
          toSecond (later.startTime - overlap) ≤ row.startTime
    | _ => True

/-- Nothing is of the future. -/
structure Past (source : SourceId) (state : Collecting reading) : Prop where
  rows : ∀ row ∈ state.logs.rows, row.startTime ≤ state.now
  events : ∀ event ∈ state.tables.events, event.sourceId = source → event.occurredAt ≤ state.now
  windows : ∀ poll ∈ state.poll, poll.window.start ≤ state.now - overlap

/-- A written row that is not stored yet is one that the next window and the running one have. -/
structure Reachable (source : SourceId) (row : LogRow reading) (event : NewUsageEvent)
    (state : Collecting reading) : Prop where
  past : Past source state
  written : row ∈ state.logs.rows
  next : ¬Stored reading.runtime source event state.tables → ∀ newer ∈ state.tables.events,
    newer.sourceId = source → toSecond (newer.occurredAt - overlap) ≤ row.startTime
  running : ¬Stored reading.runtime source event state.tables →
    ∀ poll ∈ state.poll, poll.window.start ≤ row.startTime

theorem toSecond_le (time : Timestamp) : toSecond time ≤ time :=
  Int.sub_le_self _ (Int.emod_nonneg _ (by decide))

theorem mem_lastEventAt {tables : Tables} {newest : Timestamp}
    (last : lastEventAt tables source = some newest) :
    ∃ event ∈ tables.events, event.sourceId = source ∧ event.occurredAt = newest := by
  unfold lastEventAt at last
  split at last
  next =>
    obtain ⟨event, member, same⟩ := List.mem_map.mp (List.max?_mem last)
    obtain ⟨stored, mine⟩ := List.mem_filter.mp member
    exact ⟨event, stored, of_decide_eq_true mine, same⟩
  next => cases last

variable {row : LogRow reading} {event : NewUsageEvent} {state next : Collecting reading}

/-- A row is inserted among the others. -/
theorem write_eq {logs written : Logs reading} {place : Nat} {row : LogRow reading}
    (taken : logs.write place row = some written) :
    written.rows = logs.rows.take place ++ row :: logs.rows.drop place := by
  unfold Logs.write at taken
  simp only at taken
  split at taken
  next => exact (congrArg Logs.rows (Option.some.inj taken)).symm
  next => cases taken

theorem write_sublist {logs written : Logs reading} {place : Nat} {row : LogRow reading}
    (taken : logs.write place row = some written) : logs.rows.Sublist written.rows := by
  rw [write_eq taken]
  conv_lhs => rw [← List.take_append_drop place logs.rows]
  exact List.Sublist.append (List.Sublist.refl _) (List.sublist_cons_self _ _)

theorem mem_write {logs written : Logs reading} {place : Nat} {row other : LogRow reading}
    (taken : logs.write place row = some written) :
    other ∈ written.rows ↔ other = row ∨ other ∈ logs.rows := by
  rw [write_eq taken, List.mem_append, List.mem_cons]
  conv_rhs => rw [← List.take_append_drop place logs.rows, List.mem_append]
  exact or_left_comm

/-- The readable rows of a page, as its records. -/
theorem mem_requestsIn_records {rows : List (LogRow reading)} {request : NewUsageEvent} :
    request ∈ requestsIn (records rows) ↔ ∃ row ∈ rows, parse reading row.body = .record request := by
  rw [mem_requestsIn, records, List.mem_map]

/-- What an ingested page did to the stored events. -/
theorem page_grown {world : Commands.World} {progress : Progress} {tables : Tables}
    {rows : List (LogRow reading)}
    (committed : transact (ingest reading.runtime source (records rows)) (world.session state.tables) =
      (.ok (.committed progress), tables)) :
    Grown reading.runtime source state.tables (records rows) tables :=
  (holds_grown (records rows)).transact rfl committed progress rfl

/-- The events after a page are no later than a bound on the stored ones and on its rows. -/
theorem newer_of_grown (bounded : Timestamp → Prop) {rows : List (LogRow reading)} {tables : Tables}
    (grown : Grown reading.runtime source state.tables (records rows) tables)
    (old : ∀ newer ∈ state.tables.events, newer.sourceId = source →
      bounded newer.occurredAt)
    (new : ∀ row ∈ rows, isRejected (parse reading row.body) = false → bounded row.startTime) :
    ∀ newer ∈ tables.events, newer.sourceId = source → bounded newer.occurredAt := by
  intro newer member mine
  rcases grown.new newer member with before | ⟨request, present, -, time, -⟩
  · exact old newer before mine
  · obtain ⟨row, inPage, read⟩ := mem_requestsIn_records.mp present
    rw [time, row.printed request read]
    exact new row inPage (by rw [read]; rfl)

theorem mem_page {poll : Poll} {later : LogRow reading}
    (member : later ∈ state.logs.page poll.window poll.page) :
    later ∈ state.logs.rows ∧ poll.window.covers later.startTime = true :=
  List.mem_filter.mp (List.mem_of_mem_drop (List.mem_of_mem_take member))

theorem Past.paged (past : Past source state) {poll : Poll} (running : state.poll = some poll)
    (paged : Paged source state poll (state.logs.page poll.window poll.page) next) :
    Past source next := by
  have windows (rows : List (LogRow reading)) (total : IngestReport) :
      ∀ other ∈ some (poll.turned rows total), other.window.start ≤ state.now - overlap := by
    rintro _ ⟨⟩
    exact past.windows poll running
  have events {world : Commands.World} {progress : Progress} {tables : Tables}
      (committed : transact (ingest reading.runtime source
        (records (state.logs.page poll.window poll.page))) (world.session state.tables) =
        (.ok (.committed progress), tables)) :
      ∀ event ∈ tables.events, event.sourceId = source → event.occurredAt ≤ state.now :=
    newer_of_grown (fun time => time ≤ state.now) (page_grown committed) past.events
      fun row member _ => past.rows row (mem_page member).1
  cases paged with
  | empty nothing => exact ⟨past.rows, past.events, windows _ _⟩
  | stored world progress tables collector total committed =>
    exact ⟨past.rows, events committed, windows _ _⟩
  | uncounted world progress tables failure committed =>
    exact ⟨past.rows, events committed, by simp [Collecting.abandon]⟩
  | refused failure => exact ⟨past.rows, past.events, by simp [Collecting.abandon]⟩

/-- The window of a poll begins a while before now. -/
theorem Past.window_start (past : Past source state) :
    (state.window source).start ≤ state.now - overlap := by
  unfold Collecting.window
  cases last : lastEventAt state.tables source with
  | none =>
    exact (toSecond_le _).trans (Int.sub_le_sub_left (by decide) _)
  | some newest =>
    obtain ⟨event, stored, mine, rfl⟩ := mem_lastEventAt last
    exact (toSecond_le _).trans (Int.sub_le_sub_right (past.events event stored mine) _)

theorem Past.step (past : Past source state) {event : Event reading} (timely : Timely state event)
    (taken : Polling.step source state event = some next) : Past source next := by
  cases event with
  | tick now =>
    obtain ⟨later, rfl⟩ := step_tick.mp taken
    exact ⟨fun row member => (past.rows row member).trans later,
      fun event stored mine => (past.events event stored mine).trans later,
      fun poll running => (past.windows poll running).trans (Int.sub_le_sub_right later _)⟩
  | write place row =>
    obtain ⟨logs, written, rfl⟩ := step_write.mp taken
    refine ⟨fun other member => ?_, past.events, past.windows⟩
    rcases (mem_write written).mp member with rfl | before
    · exact timely.1
    · exact past.rows other before
  | begin =>
    obtain ⟨-, rfl⟩ := step_begin.mp taken
    refine ⟨past.rows, past.events, ?_⟩
    rintro _ ⟨⟩
    exact past.window_start
  | page world counted failure =>
    obtain ⟨poll, running, -, paged⟩ := step_page taken
    exact past.paged running paged
  | fail failure =>
    cases taken
    exact ⟨past.rows, past.events, by simp [Collecting.abandon]⟩
  | finish noted failure =>
    obtain ⟨poll, -, -, rfl⟩ := step_finish.mp taken
    cases noted <;> exact ⟨past.rows, past.events, by simp [Collecting.abandon]⟩

theorem stands {poll : Poll} (written : row ∈ state.logs.rows) :
    row ∈ passed state poll ∨ row ∈ state.logs.page poll.window poll.page ∨
      (∀ later ∈ state.logs.page poll.window poll.page, later.startTime ≤ row.startTime) ∨
      row.startTime < poll.window.start := by
  by_cases inside : poll.window.covers row.startTime = true
  · have member : row ∈ state.logs.within poll.window := List.mem_filter.mpr ⟨written, inside⟩
    rw [← List.take_append_drop ((poll.page - 1) * pageSize) (state.logs.within poll.window)] at member
    rcases List.mem_append.mp member with behind | before
    · exact .inl behind
    · have sorted : ((state.logs.within poll.window).drop ((poll.page - 1) * pageSize)).Pairwise
          fun first second => first.startTime ≤ second.startTime :=
        (state.logs.sorted.filter _).drop
      rw [← List.take_append_drop pageSize
        ((state.logs.within poll.window).drop ((poll.page - 1) * pageSize))] at before sorted
      rcases List.mem_append.mp before with here | beyond
      · exact .inr (.inl here)
      · exact .inr (.inr (.inl fun later member =>
          (List.pairwise_append.mp sorted).2.2 later member row beyond))
  · simp only [Window.covers, Bool.and_eq_true, decide_eq_true_eq, not_and_or, Int.not_le] at inside
    rcases inside with early | late
    · exact .inr (.inr (.inr early))
    · refine .inr (.inr (.inl fun later member => ?_))
      have covered := (mem_page member).2
      simp only [Window.covers, Bool.and_eq_true, decide_eq_true_eq] at covered
      exact covered.2.trans (Int.le_of_lt late)

/-- A page that is ingested leaves a row it did not read within reach of the next window. -/
theorem Reachable.next_page (reachable : Reachable source row event state)
    (readable : parse reading row.body = .record event) {poll : Poll}
    (running : state.poll = some poll)
    (reaches : ¬Stored reading.runtime source event state.tables → row ∈ passed state poll →
      ∀ later ∈ state.logs.page poll.window poll.page, isRejected (parse reading later.body) = false →
        toSecond (later.startTime - overlap) ≤ row.startTime)
    {tables : Tables}
    (grown : Grown reading.runtime source state.tables
      (records (state.logs.page poll.window poll.page)) tables)
    (missing : ¬Stored reading.runtime source event tables) :
    ¬Stored reading.runtime source event state.tables ∧ ∀ newer ∈ tables.events,
      newer.sourceId = source → toSecond (newer.occurredAt - overlap) ≤ row.startTime := by
  have absent : ¬Stored reading.runtime source event state.tables := by
    intro stored
    obtain ⟨found, member, named⟩ := List.any_eq_true.mp stored
    exact missing (List.any_eq_true.mpr ⟨found, grown.kept found member, named⟩)
  refine ⟨absent, newer_of_grown (fun time => toSecond (time - overlap) ≤ row.startTime) grown
    (reachable.next absent) fun later member read => ?_⟩
  rcases stands reachable.written with behind | here | before | early
  · exact reaches absent behind later member read
  · exact absurd (grown.stored event (mem_requestsIn_records.mpr ⟨row, here, readable⟩)) missing
  · exact (toSecond_le _).trans
      ((Int.sub_le_self _ (by decide)).trans (before later member))
  · exact absurd (reachable.running absent poll running) (Int.not_le.mpr early)

/-- A row that is written in time is within reach. -/
theorem Past.write (past : Past source state) {place : Nat}
    (timely : Timely state (.write place row))
    (taken : Polling.step source state (.write place row) = some next) :
    Reachable source row event next := by
  have later := past.step timely taken
  obtain ⟨logs, written, rfl⟩ := step_write.mp taken
  have recent : state.now - overlap ≤ row.startTime := Int.sub_right_le_of_le_add timely.2
  exact ⟨later, (mem_write written).mpr (.inl rfl),
    fun _ newer member mine => ((toSecond_le _).trans
      (Int.sub_le_sub_right (past.events newer member mine) _)).trans recent,
    fun _ poll running => (past.windows poll running).trans recent⟩

theorem Reachable.step (reachable : Reachable source row event state)
    (readable : parse reading row.body = .record event) {action : Event reading}
    (timely : Timely state action) (reaches : Reaches source row event state action)
    (taken : Polling.step source state action = some next) : Reachable source row event next := by
  have past := reachable.past.step timely taken
  have reaches := reaches reachable.written
  cases action with
  | tick now =>
    obtain ⟨-, rfl⟩ := step_tick.mp taken
    exact ⟨past, reachable.written, reachable.next, reachable.running⟩
  | write place other =>
    obtain ⟨logs, written, rfl⟩ := step_write.mp taken
    exact ⟨past, (mem_write written).mpr (.inr reachable.written), reachable.next, reachable.running⟩
  | begin =>
    obtain ⟨-, rfl⟩ := step_begin.mp taken
    refine ⟨past, reachable.written, reachable.next, fun missing => ?_⟩
    rintro _ ⟨⟩
    cases last : lastEventAt state.tables source with
    | none =>
      rw [Collecting.window, last]
      exact reaches missing last
    | some newest =>
      obtain ⟨newer, stored, mine, rfl⟩ := mem_lastEventAt last
      rw [Collecting.window, last]
      exact reachable.next missing newer stored mine
  | page world counted failure =>
    obtain ⟨poll, running, -, paged⟩ := step_page taken
    have later {world : Commands.World} {progress : Progress} {tables : Tables}
        (committed : transact (ingest reading.runtime source
          (records (state.logs.page poll.window poll.page))) (world.session state.tables) =
          (.ok (.committed progress), tables)) :=
      reachable.next_page readable running (fun missing => reaches missing poll running)
        (page_grown committed)
    have window {missing : ¬Stored reading.runtime source event state.tables}
        (rows : List (LogRow reading)) (total : IngestReport) :
        ∀ other ∈ some (poll.turned rows total), other.window.start ≤ row.startTime := by
      rintro _ ⟨⟩
      exact reachable.running missing poll running
    cases paged with
    | empty nothing =>
      exact ⟨past, reachable.written, reachable.next, fun missing => @window missing _ _⟩
    | stored world progress tables collector total committed =>
      exact ⟨past, reachable.written, fun missing => (later committed missing).2,
        fun missing => @window (later committed missing).1 _ _⟩
    | uncounted world progress tables failure committed =>
      exact ⟨past, reachable.written, fun missing => (later committed missing).2,
        by simp [Collecting.abandon]⟩
    | refused failure =>
      exact ⟨past, reachable.written, reachable.next, by simp [Collecting.abandon]⟩
  | fail failure =>
    cases taken
    exact ⟨past, reachable.written, reachable.next, by simp [Collecting.abandon]⟩
  | finish noted failure =>
    obtain ⟨poll, -, -, rfl⟩ := step_finish.mp taken
    cases noted <;>
      exact ⟨past, reachable.written, reachable.next, by simp [Collecting.abandon]⟩

/-- A poll that began after the row was written has stored it or will still read it. -/
structure Pursued (source : SourceId) (row : LogRow reading) (event : NewUsageEvent)
    (state : Collecting reading) : Prop where
  reachable : Reachable source row event state
  running : ∀ poll ∈ state.poll, 1 ≤ poll.page ∧
    (Stored reading.runtime source event state.tables ∨ poll.short = false ∧ row ∈ ahead state poll)

theorem Stored.grown {rows : List (LogRow reading)} {tables : Tables}
    (stored : Stored reading.runtime source event state.tables)
    (grown : Grown reading.runtime source state.tables (records rows) tables) :
    Stored reading.runtime source event tables := by
  obtain ⟨found, member, named⟩ := List.any_eq_true.mp stored
  exact List.any_eq_true.mpr ⟨found, grown.kept found member, named⟩

theorem ahead_turned {poll : Poll} (first : 1 ≤ poll.page) (before : row ∈ ahead state poll)
    (total : IngestReport) :
    row ∈ state.logs.page poll.window poll.page ∨
      (state.logs.page poll.window poll.page).length = pageSize ∧
        row ∈ ahead state (poll.turned (state.logs.page poll.window poll.page) total) := by
  unfold ahead at before ⊢
  unfold Logs.page Poll.turned
  generalize pageSize = size at before ⊢
  generalize state.logs.within poll.window = rows at before ⊢
  obtain ⟨page, equal⟩ := Nat.exists_eq_add_of_le' first
  simp only [equal, Nat.add_sub_cancel] at before ⊢
  rw [Nat.succ_mul, ← List.drop_drop]
  generalize rows.drop (page * size) = rest at before ⊢
  rw [← List.take_append_drop size rest] at before
  rcases List.mem_append.mp before with here | beyond
  · exact .inl here
  · refine .inr ⟨?_, beyond⟩
    have longer := List.length_pos_of_mem beyond
    rw [List.length_drop] at longer
    rw [List.length_take]
    omega

/-- A window that begins now ends past every row there is. -/
theorem Past.le_window_finish (past : Past source state) (written : row ∈ state.logs.rows) :
    row.startTime ≤ (state.window source).finish := by
  have lower : state.now + clockSlack - 1000000000 ≤ toSecond (state.now + clockSlack) :=
    Int.sub_le_sub_left (Int.le_of_lt (Int.emod_lt_of_pos _ (by decide))) _
  calc row.startTime ≤ state.now := past.rows row written
    _ ≤ state.now + clockSlack - 1000000000 := by
      rw [Int.add_sub_assoc]
      exact Int.le_add_of_nonneg_right (by decide)
    _ ≤ toSecond (state.now + clockSlack) := lower

theorem Pursued.begins (reachable : Reachable source row event state)
    (next_reachable : Reachable source row event
      { state with poll := some ⟨state.window source, 1, false, ⟨0, 0, 0⟩⟩ }) :
    Pursued source row event
      { state with poll := some ⟨state.window source, 1, false, ⟨0, 0, 0⟩⟩ } := by
  refine ⟨next_reachable, ?_⟩
  rintro _ ⟨⟩
  refine ⟨le_refl _, ?_⟩
  by_cases stored : Stored reading.runtime source event state.tables
  · exact .inl stored
  · refine .inr ⟨rfl, ?_⟩
    have starts : (state.window source).start ≤ row.startTime := next_reachable.running stored _ rfl
    have ends := reachable.past.le_window_finish reachable.written
    unfold ahead
    rw [Nat.sub_self, Nat.zero_mul, List.drop_zero]
    refine List.mem_filter.mpr ⟨reachable.written, ?_⟩
    rw [Window.covers, decide_eq_true starts, decide_eq_true ends]
    rfl

theorem Pursued.paged (pursued : Pursued source row event state)
    (readable : parse reading row.body = .record event) {poll : Poll}
    (running : state.poll = some poll)
    (paged : Paged source state poll (state.logs.page poll.window poll.page) next) :
    ∀ other ∈ next.poll, 1 ≤ other.page ∧
      (Stored reading.runtime source event next.tables ∨
        other.short = false ∧ row ∈ ahead next other) := by
  obtain ⟨first, found⟩ := pursued.running poll running
  have before : Stored reading.runtime source event state.tables ∨ row ∈ ahead state poll :=
    found.imp_right And.right
  cases paged with
  | empty nothing =>
    rintro _ ⟨⟩
    refine ⟨Nat.le_add_left _ _, ?_⟩
    rcases before with stored | member
    · exact .inl stored
    · rcases ahead_turned first member poll.total with here | ⟨full, -⟩
      · rw [nothing] at here
        cases here
      · rw [nothing] at full
        cases full
  | stored world progress tables collector total committed =>
    rintro _ ⟨⟩
    refine ⟨Nat.le_add_left _ _, ?_⟩
    have grown := page_grown committed
    rcases before with stored | member
    · exact .inl (stored.grown grown)
    · rcases ahead_turned first member total with here | ⟨full, beyond⟩
      · exact .inl (grown.stored event (mem_requestsIn_records.mpr ⟨row, here, readable⟩))
      · refine .inr ⟨?_, beyond⟩
        change decide (_ < pageSize) = false
        rw [full]
        exact decide_eq_false (Nat.lt_irrefl _)
  | uncounted => simp [Collecting.abandon]
  | refused => simp [Collecting.abandon]

theorem Pursued.step (pursued : Pursued source row event state)
    (readable : parse reading row.body = .record event) {action : Event reading}
    (timely : Timely state action) (reaches : Reaches source row event state action)
    (taken : Polling.step source state action = some next) : Pursued source row event next := by
  have reachable := pursued.reachable.step readable timely reaches taken
  cases action with
  | tick now =>
    obtain ⟨-, rfl⟩ := step_tick.mp taken
    exact ⟨reachable, pursued.running⟩
  | write place other =>
    obtain ⟨logs, written, rfl⟩ := step_write.mp taken
    refine ⟨reachable, fun poll running => ?_⟩
    obtain ⟨first, found⟩ := pursued.running poll running
    refine ⟨first, found.imp_right fun before => ⟨before.1, ?_⟩⟩
    have longer : (state.logs.within poll.window).Sublist (logs.within poll.window) :=
      (write_sublist written).filter _
    exact (longer.drop _).subset before.2
  | begin =>
    obtain ⟨-, rfl⟩ := step_begin.mp taken
    exact Pursued.begins pursued.reachable reachable
  | page world counted failure =>
    obtain ⟨poll, running, -, paged⟩ := step_page taken
    exact ⟨reachable, pursued.paged readable running paged⟩
  | fail failure =>
    cases taken
    exact ⟨reachable, by simp [Collecting.abandon]⟩
  | finish noted failure =>
    obtain ⟨poll, -, -, rfl⟩ := step_finish.mp taken
    cases noted <;> exact ⟨reachable, by simp [Collecting.abandon]⟩

/-- The condition on the steps of a run under which it stores a row. -/
def Punctual (source : SourceId) (row : LogRow reading) (event : NewUsageEvent)
    (state : Collecting reading) (action : Event reading) : Prop :=
  Timely state action ∧ Reaches source row event state action

/-- Whatever polls fail or are retried: a readable row that is written in time is stored once a
poll completes that began after it was written, in every run that has no step past it. -/
theorem written_row_is_stored {start finish : Collecting reading}
    {before between during : List (Event reading)} {place : Nat} {failure : Failure}
    (past : Past source start) (readable : parse reading row.body = .record event)
    (punctual : Meets (Polling.step source) (Punctual source row event) start
      (before ++ .write place row :: (between ++ .begin :: (during ++ [.finish true failure]))))
    (reached : run (Polling.step source) start
      (before ++ .write place row :: (between ++ .begin :: (during ++ [.finish true failure]))) =
        some finish) :
    Stored reading.runtime source event finish.tables := by
  obtain ⟨unwritten, first, reached⟩ := (run_append _ _ _ _ _).mp reached
  obtain ⟨met, punctual⟩ := meets_append punctual first
  have past : Past source unwritten :=
    invariant_run (fun _ _ _ past guard taken => past.step guard.1 taken) past met first
  obtain ⟨written, taken, reached⟩ := (run_cons _ _ _ _ _).mp reached
  obtain ⟨guard, punctual⟩ := punctual written taken
  have reachable : Reachable source row event written := past.write guard.1 taken
  obtain ⟨idle, second, reached⟩ := (run_append _ _ _ _ _).mp reached
  obtain ⟨met, punctual⟩ := meets_append punctual second
  have reachable : Reachable source row event idle :=
    invariant_run (fun _ _ _ reachable guard taken => reachable.step readable guard.1 guard.2 taken)
      reachable met second
  obtain ⟨begun, taken, reached⟩ := (run_cons _ _ _ _ _).mp reached
  obtain ⟨guard, punctual⟩ := punctual begun taken
  have opened := reachable.step readable guard.1 guard.2 taken
  obtain ⟨-, rfl⟩ := step_begin.mp taken
  obtain ⟨last, third, reached⟩ := (run_append _ _ _ _ _).mp reached
  obtain ⟨met, punctual⟩ := meets_append punctual third
  have pursued : Pursued source row event last :=
    invariant_run (fun _ _ _ pursued guard taken => pursued.step readable guard.1 guard.2 taken)
      (Pursued.begins reachable opened) met third
  obtain ⟨done, taken, same⟩ := (run_cons _ _ _ _ _).mp reached
  obtain rfl := Option.some.inj same
  obtain ⟨poll, running, short, rfl⟩ := step_finish.mp taken
  rcases (pursued.running poll running).2 with stored | ⟨long, -⟩
  · exact stored
  · rw [short] at long
    cases long

theorem le_lastEventAt {tables : Tables} (known : ∃ stored ∈ tables.sources, stored.id = source)
    {newer : UsageEvent} (member : newer ∈ tables.events) (mine : newer.sourceId = source) :
    ∃ newest, lastEventAt tables source = some newest ∧ newer.occurredAt ≤ newest := by
  have present : tables.sources.any (·.id = source) = true := by simpa using known
  have listed : newer.occurredAt ∈
      (tables.events.filter (·.sourceId = source)).map UsageEvent.occurredAt :=
    List.mem_map_of_mem (List.mem_filter.mpr ⟨member, decide_eq_true mine⟩)
  cases last : ((tables.events.filter (·.sourceId = source)).map UsageEvent.occurredAt).max? with
  | none =>
    rw [List.max?_eq_none_iff.mp last] at listed
    cases listed
  | some newest =>
    exact ⟨newest, by rw [lastEventAt, if_pos present, last],
      (List.max?_le_iff last).mp (le_refl _) _ listed⟩

/-- Every window to come, and the running one, begins past a row that is not stored. -/
structure Lost (source : SourceId) (row : LogRow reading) (event : NewUsageEvent)
    (state : Collecting reading) : Prop where
  known : ∃ stored ∈ state.tables.sources, stored.id = source
  overtaken : ∃ newer ∈ state.tables.events, newer.sourceId = source ∧
    row.startTime < toSecond (newer.occurredAt - overlap)
  missing : ¬Stored reading.runtime source event state.tables
  others : ∀ other ∈ state.logs.rows, ∀ request, parse reading other.body = .record request →
    request.recordHash reading.runtime = event.recordHash reading.runtime →
      other.startTime ≤ row.startTime
  windows : ∀ poll ∈ state.poll, row.startTime < poll.window.start

theorem Lost.grown (lost : Lost source row event state) {poll : Poll}
    (running : state.poll = some poll) {tables : Tables}
    (grown : Grown reading.runtime source state.tables
      (records (state.logs.page poll.window poll.page)) tables) :
    ¬Stored reading.runtime source event tables := by
  intro stored
  obtain ⟨found, member, named⟩ := List.any_eq_true.mp stored
  rcases grown.new found member with before | ⟨request, present, -, -, hash⟩
  · exact lost.missing (List.any_eq_true.mpr ⟨found, before, named⟩)
  · obtain ⟨other, inPage, read⟩ := mem_requestsIn_records.mp present
    obtain ⟨written, covered⟩ := mem_page inPage
    simp only [holdsHash, Bool.and_eq_true, decide_eq_true_eq] at named
    have early := lost.others other written request read (hash.symm.trans named.2)
    simp only [Window.covers, Bool.and_eq_true, decide_eq_true_eq] at covered
    exact absurd (covered.1.trans early) (Int.not_le.mpr (lost.windows poll running))

/-- A step that writes no row brings none back. -/
theorem Lost.step (lost : Lost source row event state) {action : Event reading}
    (quiet : ∀ place other, action ≠ .write place other)
    (taken : Polling.step source state action = some next) : Lost source row event next := by
  cases action with
  | tick now =>
    obtain ⟨-, rfl⟩ := step_tick.mp taken
    exact ⟨lost.known, lost.overtaken, lost.missing, lost.others, lost.windows⟩
  | write place other => exact absurd rfl (quiet place other)
  | begin =>
    obtain ⟨-, rfl⟩ := step_begin.mp taken
    refine ⟨lost.known, lost.overtaken, lost.missing, lost.others, ?_⟩
    rintro _ ⟨⟩
    obtain ⟨newer, member, mine, past⟩ := lost.overtaken
    obtain ⟨newest, last, later⟩ := le_lastEventAt lost.known member mine
    rw [Collecting.window, last]
    refine past.trans_le ?_
    exact toSecond_mono (Int.sub_le_sub_right later _)
  | page world counted failure =>
    obtain ⟨poll, running, -, paged⟩ := step_page taken
    have window (rows : List (LogRow reading)) (total : IngestReport) :
        ∀ other ∈ some (poll.turned rows total), row.startTime < other.window.start := by
      rintro _ ⟨⟩
      exact lost.windows poll running
    have kept {tables : Tables} (grown : Grown reading.runtime source state.tables
        (records (state.logs.page poll.window poll.page)) tables) :
        (∃ stored ∈ tables.sources, stored.id = source) ∧ ∃ newer ∈ tables.events,
          newer.sourceId = source ∧ row.startTime < toSecond (newer.occurredAt - overlap) := by
      obtain ⟨newer, member, past⟩ := lost.overtaken
      exact ⟨grown.sources ▸ lost.known, newer, grown.kept newer member, past⟩
    cases paged with
    | empty nothing => exact ⟨lost.known, lost.overtaken, lost.missing, lost.others, window _ _⟩
    | stored world progress tables collector total committed =>
      have grown := page_grown committed
      exact ⟨(kept grown).1, (kept grown).2, lost.grown running grown, lost.others, window _ _⟩
    | uncounted world progress tables failure committed =>
      have grown := page_grown committed
      exact ⟨(kept grown).1, (kept grown).2, lost.grown running grown, lost.others,
        by simp [Collecting.abandon]⟩
    | refused failure =>
      exact ⟨lost.known, lost.overtaken, lost.missing, lost.others, by simp [Collecting.abandon]⟩
  | fail failure =>
    cases taken
    exact ⟨lost.known, lost.overtaken, lost.missing, lost.others, by simp [Collecting.abandon]⟩
  | finish noted failure =>
    obtain ⟨poll, -, -, rfl⟩ := step_finish.mp taken
    cases noted <;>
      exact ⟨lost.known, lost.overtaken, lost.missing, lost.others, by simp [Collecting.abandon]⟩

/-- No polls to come store a lost row. -/
theorem Lost.never (lost : Lost source row event state) {more : List (Event reading)}
    (quiet : ∀ action ∈ more, ∀ place other, action ≠ .write place other)
    (reached : run (Polling.step source) state more = some next) :
    ¬Stored reading.runtime source event next.tables := by
  induction more generalizing state with
  | nil =>
    cases reached
    exact lost.missing
  | cons action rest ih =>
    obtain ⟨middle, taken, later⟩ := (run_cons _ _ _ _ _).mp reached
    exact ih (lost.step (quiet action (by simp)) taken)
      (fun other member => quiet other (List.mem_cons_of_mem _ member)) later

/-- A runtime that reads an instant as seconds, and sums bytes for their hash. -/
def clocked : Reading where
  runtime := { Sql.Runtime.inert with
    parseTimestamp := fun text => (Response.asI64 text.toList []).map seconds
    blake3 := fun bytes => toString (bytes.map UInt8.toNat).sum }
  real := fun _ => .zero
  civil := fun _ => none
  quoted := id
  refusal := fun _ => ""

/-- A spend log of a request. -/
def spendLog (requestId startTime : String) : Json :=
  .object [("request_id", .string requestId), ("startTime", .string startTime)]

/-- A request that started twelve minutes before the poll. -/
def lateRow : LogRow clocked :=
  ⟨seconds (-720), spendLog "1" "-720", printed_of_prints (by decide)⟩

/-- One that starts while the poll runs. -/
def newRow : LogRow clocked :=
  ⟨seconds 240, spendLog "2" "240", printed_of_prints (by decide)⟩

/-- One that starts within the overlap of the late one. -/
def nearRow : LogRow clocked :=
  ⟨seconds 60, spendLog "3" "60", printed_of_prints (by decide)⟩

/-- A row that cannot be read. -/
def blankRow : LogRow clocked := ⟨0, .null, printed_of_prints (by decide)⟩

/-- A source of LiteLLM that was never polled, and the rows of its endpoint. -/
def unpolled (logs : Logs clocked) : Collecting clocked where
  tables := { Tables.empty with sources := [⟨1, "", "", .liteLlm, "", true, 0⟩] }
  collector := none
  logs := logs
  now := 0
  poll := none

theorem valid_unpolled (logs : Logs clocked) : Validity.Valid False (unpolled logs).tables := by
  constructor <;> simp [unpolled, Tables.empty, Library.Keyed.Distinct]

theorem count_counted (state : Collecting reading) (poll : Poll) (report : IngestReport)
    (failure : Failure) : ∃ collector, state.count poll report true failure = { state with
      collector := collector
      poll := some { poll with total := IngestReport.add poll.total report } } := by
  unfold Collecting.count
  by_cases nothing : report.accepted + report.rejected = 0
  · exact ⟨state.collector, by simp only [if_pos nothing]⟩
  · exact ⟨_, by simp only [if_neg nothing]; rfl⟩

/-- A page can be ingested and counted. -/
theorem exists_page {poll : Poll} (valid : Validity.Valid False state.tables)
    (known : ∃ stored ∈ state.tables.sources, stored.id = source) (running : state.poll = some poll)
    (long : poll.short = false) (failure : Failure) :
    ∃ world tables collector total, Polling.step source state (.page world true failure) =
        some { state with
          tables := tables
          collector := collector
          poll := some (poll.turned (state.logs.page poll.window poll.page) total) } ∧
      Validity.Valid False tables ∧ Grown reading.runtime source state.tables
        (records (state.logs.page poll.window poll.page)) tables := by
  by_cases nothing : state.logs.page poll.window poll.page = []
  · refine ⟨.calm 0 id, state.tables, state.collector, poll.total, ?_, valid, ?_⟩
    · simp only [Polling.step, running, Option.bind_some, long, Bool.false_eq_true, if_false,
        if_pos nothing]
      rfl
    · rw [nothing]
      exact Grown.start
  · obtain ⟨bound, below⟩ := Commits.exists_below state.tables
    obtain ⟨tables, taken⟩ := @Commits.ingest_commits reading.runtime False source _ valid known
      bound below (records (state.logs.page poll.window poll.page)) state.now
    obtain ⟨progress, committed⟩ := Commands.performed_iff.mp (Commands.step_iff.mp taken)
    obtain ⟨collector, counted⟩ := count_counted { state with tables := tables }
      { poll with
        page := poll.page + 1
        short := decide ((state.logs.page poll.window poll.page).length < pageSize) }
      progress.report failure
    have grown := page_grown committed
    refine ⟨.calm state.now fun next => bound + next, tables, collector,
      IngestReport.add poll.total progress.report, ?_, Merged.valid_step valid False.elim taken, grown⟩
    simp only [Polling.step, running, Option.bind_some, long, Bool.false_eq_true, if_false,
      if_neg nothing]
    rw [records] at committed
    rw [committed]
    exact congrArg some counted

theorem readable_of {row : LogRow reading} (read : isRejected (parse reading row.body) = false) :
    ∃ event, parse reading row.body = .record event := by
  cases parsed : parse reading row.body with
  | record event => exact ⟨event, rfl⟩
  | rejected error payload =>
    rw [parsed] at read
    cases read

/-- The hash a body is stored under, if it can be read. -/
def hashOf (reading : Reading) (body : Json) : Option String :=
  match parse reading body with
  | .record event => some (event.recordHash reading.runtime)
  | .rejected _ _ => none

theorem hashOf_eq {body : Json} (read : parse reading body = .record event) :
    hashOf reading body = some (event.recordHash reading.runtime) := by
  rw [hashOf, read]

/-- A full page of rows that cannot be read, between these. -/
def around (early late : List (LogRow clocked)) : List (LogRow clocked) :=
  early ++ (List.replicate pageSize blankRow ++ late)

theorem mem_around {early late : List (LogRow clocked)} {row : LogRow clocked}
    (member : row ∈ around early late) : row ∈ early ++ blankRow :: late := by
  rw [around, List.mem_append, List.mem_append, List.mem_replicate] at member
  rw [List.mem_append, List.mem_cons]
  exact member.imp_right (Or.imp_left And.right)

/-- The logs with such rows. -/
def logsAround (early late : List (LogRow clocked))
    (sorted : (early ++ blankRow :: late).Pairwise fun first second =>
      first.startTime ≤ second.startTime) : Logs clocked where
  rows := around early late
  sorted := by
    obtain ⟨first, rest, across⟩ := List.pairwise_append.mp sorted
    obtain ⟨after, last⟩ := List.pairwise_cons.mp rest
    refine List.pairwise_append.mpr ⟨first, List.pairwise_append.mpr
      ⟨List.pairwise_replicate.mpr (.inr (le_refl _)), last, ?_⟩, ?_⟩
    · intro blank member row later
      rw [List.eq_of_mem_replicate member]
      exact after row later
    · intro row early other member
      rcases List.mem_append.mp member with blank | later
      · rw [List.eq_of_mem_replicate blank]
        exact across row early blankRow (by simp)
      · exact across row early other (by simp [later])

theorem around_write {early late : List (LogRow clocked)} {place : Nat} {row : LogRow clocked}
    {early' late' : List (LogRow clocked)} {sorted : _} {sorted' : _}
    (inserted : (around early late).take place ++ row :: (around early late).drop place =
      around early' late') :
    (logsAround early late sorted).write place row = some (logsAround early' late' sorted') := by
  unfold Logs.write
  have same : (logsAround early late sorted).rows.take place ++ row ::
      (logsAround early late sorted).rows.drop place = (logsAround early' late' sorted').rows := inserted
  simp only [same, dif_pos (logsAround early' late' sorted').sorted]

/-- The window of the first poll, from thirty days before the epoch to five minutes after it. -/
def firstPoll : Window := ⟨-seconds 2592000, seconds 300⟩

/-- The window of a poll at four minutes, where the newest stored request started after one. -/
def nextPoll : Window := ⟨seconds (-840), seconds 540⟩

theorem within_around {window : Window} {early late : List (LogRow clocked)} {sorted : _}
    (covered : ∀ row ∈ early ++ blankRow :: late, window.covers row.startTime = true) :
    (logsAround early late sorted).within window = around early late :=
  List.filter_eq_self.mpr fun row member => covered row (mem_around member)

theorem blank_unread (request : NewUsageEvent) : parse clocked blankRow.body ≠ .record request := by
  intro read
  have none : hashOf clocked blankRow.body = none := by decide
  rw [hashOf_eq read] at none
  cases none

section Between

/-- A row that starts while the first poll runs, which is for four minutes. -/
structure During (row : LogRow clocked) : Prop where
  begun : 0 ≤ row.startTime
  ended : row.startTime ≤ seconds 240

variable {other : LogRow clocked}

theorem sorted_between (during : During other) : ([lateRow] ++ blankRow :: [other]).Pairwise
    fun first second => first.startTime ≤ second.startTime := by
  have late : lateRow.startTime ≤ 0 := by decide
  refine List.pairwise_cons.mpr ⟨fun row member => ?_, List.pairwise_pair.mpr during.begun⟩
  rcases List.mem_pair.mp member with rfl | rfl
  · exact late
  · exact late.trans during.begun

/-- The rows when the poll begins, and after each of two more is written. -/
def blanks : Logs clocked := logsAround [] [] (by decide)
def blanksAfterLate : Logs clocked := logsAround [lateRow] [] (by decide)
def blanksBetween (during : During other) : Logs clocked := logsAround [lateRow] [other] (sorted_between during)

theorem covers_between (during : During other) {window : Window} (starts : window.start ≤ seconds (-720))
    (ends : seconds 240 ≤ window.finish) :
    ∀ row ∈ [lateRow] ++ blankRow :: [other], window.covers row.startTime = true := by
  have covers (row : LogRow clocked) (least : seconds (-720) ≤ row.startTime)
      (most : row.startTime ≤ seconds 240) : window.covers row.startTime = true := by
    rw [Window.covers, decide_eq_true (starts.trans least), decide_eq_true (most.trans ends)]
    rfl
  have late : seconds (-720) ≤ 0 := by decide
  intro row member
  rcases List.mem_cons.mp member with rfl | member
  · exact covers _ (le_refl _) (by decide)
  rcases List.mem_pair.mp member with rfl | rfl
  · exact covers _ (by decide) (by decide)
  · exact covers _ (late.trans during.begun) during.ended

theorem first_page : blanks.page firstPoll 1 = List.replicate pageSize blankRow := by
  rw [Logs.page, blanks, within_around (by decide), Nat.sub_self, Nat.zero_mul, List.drop_zero, around,
    List.append_nil, List.nil_append]
  exact List.take_of_length_le (List.length_replicate ▸ le_refl _)

/-- A row before them moves the last of them to the second page. -/
theorem pages_between (during : During other) {window : Window} (starts : window.start ≤ seconds (-720))
    (ends : seconds 240 ≤ window.finish) :
    (blanksBetween during).page window 1 = [lateRow] ++ List.replicate 499 blankRow ∧
      (blanksBetween during).page window 2 = [blankRow, other] := by
  have split : around [lateRow] [other] =
      ([lateRow] ++ List.replicate 499 blankRow) ++ [blankRow, other] := by
    rw [around, pageSize, List.replicate_succ' (n := 499), List.append_assoc, List.append_assoc]
    rfl
  have read : ([lateRow] ++ List.replicate 499 blankRow).length = (2 - 1) * pageSize := by
    rw [List.length_append, List.length_replicate]
    rfl
  have within := @within_around window _ _ (sorted_between during) (covers_between during starts ends)
  constructor
  · rw [Logs.page, blanksBetween, within, split, Nat.sub_self, Nat.zero_mul, List.drop_zero]
    exact List.take_left' read
  · rw [Logs.page, blanksBetween, within, split, List.drop_left' read]
    exact List.take_of_length_le (by simp [pageSize])

theorem write_late : blanks.write 0 lateRow = some blanksAfterLate :=
  around_write (by simp [around])

theorem write_other (during : During other) :
    blanksAfterLate.write (pageSize + 1) other = some (blanksBetween during) :=
  around_write (by simp [around, List.take_of_length_le, List.drop_of_length_le])

/-- The other row is no further ahead of the late one than the overlap. -/
def Near (other : LogRow clocked) : Prop := toSecond (other.startTime - overlap) ≤ lateRow.startTime

theorem near_page (near : Near other) : ∀ later ∈ [blankRow, other],
    isRejected (parse clocked later.body) = false → toSecond (later.startTime - overlap) ≤ lateRow.startTime := by
  intro later member read
  rcases List.mem_pair.mp member with rfl | rfl
  · obtain ⟨request, parsed⟩ := readable_of read
    exact absurd parsed (blank_unread request)
  · exact near

/-- A step that is in time, and goes past the late row only where the other one is not near. -/
def Takes (other : LogRow clocked) (event : NewUsageEvent) (state : Collecting clocked) (step : Event clocked) : Prop :=
  Timely state step ∧ (Near other → Reaches 1 lateRow event state step)

/-- The steps of a poll, during which two rows are written between its pages. -/
def pagesRead (first : Commands.World) (failure : Failure) : List (Event clocked) :=
  [.begin, .page first true failure, .tick (seconds 60)]

def pagesLeft (other : LogRow clocked) (second : Commands.World) (failure : Failure) : List (Event clocked) :=
  [.tick (seconds 240), .write (pageSize + 1) other, .page second true failure] ++ [.finish true failure]

/-- A poll at four minutes, over the rows there are. -/
structure Between (during : During other) (state : Collecting clocked) : Prop where
  idle : state.poll = none
  now : state.now = seconds 240
  logs : state.logs = blanksBetween during
  valid : Validity.Valid False state.tables
  grown : ∃ middle, Grown clocked.runtime 1 (unpolled blanks).tables
      (records (List.replicate pageSize blankRow)) middle ∧
    Grown clocked.runtime 1 middle (records [blankRow, other]) state.tables

/-- Such a poll completes, and ingests the blank rows and the other one. -/
theorem exists_latePoll (during : During other) (event : NewUsageEvent) (failure : Failure) :
    ∃ first second finish,
      run (Polling.step 1) (unpolled blanks)
        (pagesRead first failure ++ .write 0 lateRow :: pagesLeft other second failure) = some finish ∧
      Meets (Polling.step 1) (Takes other event) (unpolled blanks)
        (pagesRead first failure ++ .write 0 lateRow :: pagesLeft other second failure) ∧
      Between during finish := by
  let start := unpolled blanks
  let begun := { start with poll := some ⟨firstPoll, 1, false, ⟨0, 0, 0⟩⟩ }
  have opened : Polling.step 1 start .begin = some begun := step_begin.mpr ⟨rfl, rfl⟩
  obtain ⟨first, middle, collector, total, paged, valid, grown⟩ :=
    @exists_page clocked 1 begun _ (valid_unpolled blanks) ⟨_, List.mem_singleton_self _, rfl⟩ rfl rfl failure
  have firstRows : begun.logs.page firstPoll 1 = List.replicate pageSize blankRow := first_page
  rw [firstRows] at paged grown
  have turned : Poll.turned ⟨firstPoll, 1, false, ⟨0, 0, 0⟩⟩ (List.replicate pageSize blankRow) total =
      ⟨firstPoll, 2, false, total⟩ := by
    rw [Poll.turned, List.length_replicate, decide_eq_false (Nat.lt_irrefl _)]
  rw [turned] at paged
  let read := { begun with
    tables := middle, collector := collector, poll := some ⟨firstPoll, 2, false, total⟩ }
  let waited := { read with now := seconds 60 }
  have ticked : Polling.step 1 read (.tick (seconds 60)) = some waited :=
    step_tick.mpr ⟨show (0 : Int) ≤ seconds 60 by decide, rfl⟩
  let behind := { waited with logs := blanksAfterLate }
  have wrote : Polling.step 1 waited (.write 0 lateRow) = some behind :=
    step_write.mpr ⟨_, write_late, rfl⟩
  let later := { behind with now := seconds 240 }
  have ticked' : Polling.step 1 behind (.tick (seconds 240)) = some later :=
    step_tick.mpr ⟨show seconds 60 ≤ seconds 240 by decide, rfl⟩
  let grew := { later with logs := blanksBetween during }
  have wrote' : Polling.step 1 later (.write (pageSize + 1) other) = some grew :=
    step_write.mpr ⟨_, write_other during, rfl⟩
  have known : ∃ stored ∈ middle.sources, stored.id = 1 :=
    grown.sources ▸ ⟨_, List.mem_singleton_self _, rfl⟩
  obtain ⟨second, tables, collector', total', paged', valid', grown'⟩ :=
    @exists_page clocked 1 grew _ valid known rfl rfl failure
  have secondRows : grew.logs.page firstPoll 2 = [blankRow, other] :=
    (pages_between during (by decide) (by decide)).2
  rw [secondRows] at paged' grown'
  let ended := { grew with
    tables := tables
    collector := collector'
    poll := some (Poll.turned ⟨firstPoll, 2, false, total⟩ [blankRow, other] total') }
  let last := { ended with poll := none, collector := some (polled ended.now collector') }
  have finished : Polling.step 1 ended (.finish true failure) = some last :=
    step_finish.mpr ⟨_, rfl, rfl, rfl⟩
  refine ⟨first, second, last, ?_, ?_, rfl, rfl, rfl, valid', middle, grown, grown'⟩
  · refine (run_cons _ _ _ _ _).mpr ⟨begun, opened, (run_cons _ _ _ _ _).mpr ⟨read, paged, ?_⟩⟩
    refine (run_cons _ _ _ _ _).mpr ⟨waited, ticked, (run_cons _ _ _ _ _).mpr ⟨behind, wrote, ?_⟩⟩
    refine (run_cons _ _ _ _ _).mpr ⟨later, ticked', (run_cons _ _ _ _ _).mpr ⟨grew, wrote', ?_⟩⟩
    exact (run_cons _ _ _ _ _).mpr ⟨ended, paged', (run_cons _ _ _ _ _).mpr ⟨last, finished, rfl⟩⟩
  -- Only what is read after the late row is written can leave it behind.
  have none : lateRow ∉ blanks.rows := fun member =>
    absurd (congrArg LogRow.startTime (List.mem_singleton.mp (mem_around member))) (by decide)
  refine meets_cons opened ⟨trivial, fun _ member => absurd member none⟩
    (meets_cons paged ⟨trivial, fun _ member => absurd member none⟩
      (meets_cons ticked ⟨trivial, fun _ _ _ => trivial⟩ ?_))
  refine meets_cons wrote ⟨⟨?_, ?_⟩, fun _ _ _ => trivial⟩
    (meets_cons ticked' ⟨trivial, fun _ _ _ => trivial⟩
      (meets_cons wrote' ⟨⟨?_, ?_⟩, fun _ _ _ => trivial⟩
        (meets_cons paged' ⟨trivial, ?_⟩ (meets_cons finished ⟨trivial, fun _ _ _ => trivial⟩ trivial))))
  · change seconds (-720) ≤ seconds 60
    decide
  · change seconds 60 ≤ seconds (-720) + overlap
    decide
  · exact during.ended
  · change seconds 240 ≤ other.startTime + overlap
    have least : seconds 240 ≤ overlap := by decide
    exact least.trans (Int.le_add_of_nonneg_left during.begun)
  · rintro near - - _ ⟨⟩ -
    rw [secondRows]
    exact near_page near

variable {state : Collecting clocked} {during : During other} {newer : NewUsageEvent}

/-- Nothing but the event of the other row is stored. -/
theorem Between.only (between : Between during state) (newest : parse clocked other.body = .record newer) :
    ∀ stored ∈ state.tables.events, stored.sourceId = 1 ∧ stored.occurredAt = other.startTime ∧
      stored.recordHash = newer.recordHash clocked.runtime := by
  obtain ⟨middle, grown, grown'⟩ := between.grown
  have nothing : middle.events = [] := by
    refine List.eq_nil_iff_forall_not_mem.mpr fun stored member => ?_
    rcases grown.new stored member with before | ⟨request, present, -⟩
    · cases before
    · obtain ⟨row, inPage, parsed⟩ := mem_requestsIn_records.mp present
      rw [List.eq_of_mem_replicate inPage] at parsed
      exact absurd parsed (blank_unread request)
  intro stored member
  rcases grown'.new stored member with before | ⟨request, present, mine, time, hash⟩
  · rw [nothing] at before
    cases before
  · obtain ⟨row, inPage, parsed⟩ := mem_requestsIn_records.mp present
    rcases List.mem_pair.mp inPage with rfl | rfl
    · exact absurd parsed (blank_unread request)
    · obtain rfl := Incoming.record.inj (newest.symm.trans parsed)
      exact ⟨mine, time.trans (row.printed newer parsed), hash⟩

theorem Between.known (between : Between during state) : ∃ stored ∈ state.tables.sources, stored.id = 1 := by
  obtain ⟨middle, grown, grown'⟩ := between.grown
  exact grown'.sources ▸ grown.sources ▸ ⟨_, List.mem_singleton_self _, rfl⟩

/-- The other row's event is stored. -/
theorem Between.newest (between : Between during state) (newest : parse clocked other.body = .record newer) :
    ∃ stored ∈ state.tables.events, stored.sourceId = 1 ∧ stored.occurredAt = other.startTime := by
  obtain ⟨middle, grown, grown'⟩ := between.grown
  obtain ⟨stored, member, -⟩ := List.any_eq_true.mp
    (grown'.stored newer (mem_requestsIn_records.mpr ⟨other, by simp, newest⟩))
  obtain ⟨mine, time, -⟩ := between.only newest stored member
  exact ⟨stored, member, mine, time⟩

theorem Between.last (between : Between during state) (newest : parse clocked other.body = .record newer) :
    lastEventAt state.tables 1 = some other.startTime := by
  obtain ⟨stored, member, mine, -⟩ := between.newest newest
  obtain ⟨time, last, -⟩ := le_lastEventAt between.known member mine
  obtain ⟨found, present, -, rfl⟩ := mem_lastEventAt last
  rw [last, (between.only newest found present).2.1]

end Between

theorem past_blanks : Past 1 (unpolled blanks) := by
  refine ⟨fun row member => ?_, by simp [unpolled, Tables.empty], by simp [unpolled]⟩
  obtain rfl := List.mem_singleton.mp (mem_around member)
  exact le_refl _

/-- A row written behind the page a poll has read, from which the next page is too far ahead, is
stored by no poll to come. -/
theorem a_late_row_is_never_stored :
    ¬∀ (start finish : Collecting clocked) (before after : List (Event clocked)) (place : Nat)
      (row : LogRow clocked) (event : NewUsageEvent) (failure : Failure), Past 1 start →
      start.poll = none → parse clocked row.body = .record event →
      Meets (Polling.step 1) Timely start
        (.begin :: (before ++ .write place row :: (after ++ [.finish true failure]))) →
      run (Polling.step 1) start
        (.begin :: (before ++ .write place row :: (after ++ [.finish true failure]))) = some finish →
      ∃ more last, (∀ action ∈ more, ∀ place other, action ≠ .write place other) ∧
        run (Polling.step 1) finish more = some last ∧ Stored clocked.runtime 1 event last.tables := by
  intro stored
  obtain ⟨event, read⟩ := @readable_of clocked lateRow (by decide)
  obtain ⟨newer, newest⟩ := @readable_of clocked newRow (by decide +kernel)
  have during : During newRow := ⟨by decide, by decide⟩
  obtain ⟨first, second, finish, reached, met, between⟩ := exists_latePoll during event ⟨"", true⟩
  have timely := meets_mono (fun _ _ takes => takes.1) met
  obtain ⟨more, last, quiet, later, found⟩ :=
    stored _ _ _ _ _ _ _ _ past_blanks rfl read timely reached
  have hashes : newer.recordHash clocked.runtime ≠ event.recordHash clocked.runtime := by
    intro same
    have equal : hashOf clocked newRow.body = hashOf clocked lateRow.body := by
      rw [hashOf_eq read, hashOf_eq newest, same]
    exact absurd equal (by decide +kernel)
  have lost : Lost 1 lateRow event finish := by
    constructor
    · exact between.known
    · obtain ⟨other, member, mine, time⟩ := between.newest newest
      refine ⟨other, member, mine, ?_⟩
      rw [time]
      decide
    · intro found
      obtain ⟨other, member, named⟩ := List.any_eq_true.mp found
      simp only [holdsHash, Bool.and_eq_true, decide_eq_true_eq] at named
      exact hashes ((between.only newest other member).2.2.symm.trans named.2)
    · intro other member request parsed same
      rw [between.logs] at member
      have listed := mem_around member
      simp only [List.cons_append, List.nil_append, List.mem_cons, List.not_mem_nil, or_false] at listed
      rcases listed with rfl | rfl | rfl
      · exact le_refl _
      · exact absurd parsed (blank_unread request)
      · obtain rfl := Incoming.record.inj (newest.symm.trans parsed)
        exact absurd same hashes
    · rw [between.idle]
      simp
  exact lost.never quiet later found

theorem near_nearRow : Near nearRow := by
  unfold Near
  decide

/-- A poll at four minutes reads both pages again, the late row on the first. -/
theorem exists_nextPoll {state : Collecting clocked} {during : During nearRow} (between : Between during state)
    {newer : NewUsageEvent} (newest : parse clocked nearRow.body = .record newer) (event : NewUsageEvent)
    (failure : Failure) : ∃ first second finish,
      run (Polling.step 1) state
        (.begin :: ([.page first true failure, .page second true failure] ++ [.finish true failure])) = some finish ∧
      Meets (Polling.step 1) (Punctual 1 lateRow event) state
        (.begin :: ([.page first true failure, .page second true failure] ++ [.finish true failure])) := by
  let begun := { state with poll := some ⟨nextPoll, 1, false, ⟨0, 0, 0⟩⟩ }
  have newestAt := between.last newest
  have window : state.window 1 = nextPoll := by
    rw [Collecting.window, newestAt, between.now]
    decide
  have opened : Polling.step 1 state .begin = some begun := step_begin.mpr ⟨between.idle, by rw [window]⟩
  obtain ⟨firstRows, secondRows⟩ := @pages_between nearRow during nextPoll (by decide) (by decide)
  rw [← between.logs] at firstRows secondRows
  obtain ⟨first, middle, collector, total, paged, valid, grown⟩ :=
    @exists_page clocked 1 begun _ between.valid between.known rfl rfl failure
  have firstRead : begun.logs.page nextPoll 1 = [lateRow] ++ List.replicate 499 blankRow := firstRows
  rw [firstRead] at paged grown
  have turned : Poll.turned ⟨nextPoll, 1, false, ⟨0, 0, 0⟩⟩ ([lateRow] ++ List.replicate 499 blankRow) total =
      ⟨nextPoll, 2, false, total⟩ := by
    rw [Poll.turned, List.length_append, List.length_replicate]
    rfl
  rw [turned] at paged
  let read := { begun with
    tables := middle, collector := collector, poll := some ⟨nextPoll, 2, false, total⟩ }
  obtain ⟨second, tables, collector', total', paged', -, -⟩ :=
    @exists_page clocked 1 read _ valid (grown.sources ▸ between.known) rfl rfl failure
  have secondRead : read.logs.page nextPoll 2 = [blankRow, nearRow] := secondRows
  rw [secondRead] at paged'
  let ended := { read with
    tables := tables
    collector := collector'
    poll := some (Poll.turned ⟨nextPoll, 2, false, total⟩ [blankRow, nearRow] total') }
  let last := { ended with poll := none, collector := some (polled ended.now collector') }
  have finished : Polling.step 1 ended (.finish true failure) = some last :=
    step_finish.mpr ⟨_, rfl, rfl, rfl⟩
  refine ⟨first, second, last, ?_, ?_⟩
  · refine (run_cons _ _ _ _ _).mpr ⟨begun, opened, (run_cons _ _ _ _ _).mpr ⟨read, paged, ?_⟩⟩
    exact (run_cons _ _ _ _ _).mpr ⟨ended, paged', (run_cons _ _ _ _ _).mpr ⟨last, finished, rfl⟩⟩
  refine meets_cons opened ⟨trivial, fun _ _ absent => ?_⟩ (meets_cons paged ⟨trivial, ?_⟩
    (meets_cons paged' ⟨trivial, ?_⟩ (meets_cons finished ⟨trivial, fun _ _ => trivial⟩ trivial)))
  · rw [newestAt] at absent
    cases absent
  · rintro - - poll ⟨⟩ member
    rw [passed_first rfl] at member
    cases member
  · rintro - - poll ⟨⟩ -
    rw [secondRead]
    exact near_page near_nearRow

/-- A row written behind a page already read, from which the next page is not too far ahead, is stored by
the next poll. -/
theorem a_written_row_is_stored : ∃ event first second third fourth finish,
    parse clocked lateRow.body = .record event ∧
      run (Polling.step 1) (unpolled blanks) (pagesRead first ⟨"", true⟩ ++ .write 0 lateRow ::
        (pagesLeft nearRow second ⟨"", true⟩ ++ .begin ::
          ([.page third true ⟨"", true⟩, .page fourth true ⟨"", true⟩] ++ [.finish true ⟨"", true⟩]))) =
        some finish ∧
      Stored clocked.runtime 1 event finish.tables := by
  obtain ⟨event, read⟩ := @readable_of clocked lateRow (by decide)
  obtain ⟨newer, newest⟩ := @readable_of clocked nearRow (by decide)
  have during : During nearRow := ⟨by decide, by decide⟩
  obtain ⟨first, second, between, reached, met, stands⟩ := exists_latePoll during event ⟨"", true⟩
  obtain ⟨third, fourth, finish, later, punctual⟩ := exists_nextPoll stands newest event ⟨"", true⟩
  have before : Meets (Polling.step 1) (Punctual 1 lateRow event) (unpolled blanks)
      (pagesRead first ⟨"", true⟩ ++ .write 0 lateRow :: pagesLeft nearRow second ⟨"", true⟩) :=
    meets_mono (fun _ _ takes => ⟨takes.1, takes.2 near_nearRow⟩) met
  have whole := (run_append _ _ _ _ _).mpr ⟨between, reached, later⟩
  rw [List.append_assoc] at whole
  refine ⟨event, first, second, third, fourth, finish, read, whole, written_row_is_stored past_blanks read ?_ whole⟩
  rw [← List.cons_append, ← List.append_assoc]
  exact meets_join reached before punctual

end MeteredUsage.Collector.Lateness
