import MeteredUsage.Collector.Polling
import MeteredUsage.Store.Redelivery

/-! A poll over rows that are stored already. Every poll reaches back over rows of the last one,
and the record hash drops the readable ones among them; nothing drops the others. -/

namespace MeteredUsage.Collector.Repolling
open MeteredUsage.Values MeteredUsage.Store MeteredUsage.Store.Schema MeteredUsage.Store.Events
open MeteredUsage.Store.Ingest MeteredUsage.Store.Validity
open MeteredUsage.Store.Commands (World)
open MeteredUsage.Store.Redelivery MeteredUsage.Collector.LiteLlm MeteredUsage.Collector.Polling
open MeteredUsage.Library.Execution MeteredUsage.Library.Transaction

variable {reading : Reading} {source : SourceId}

/-- Time passes or a page is read. -/
def IsReading : Event reading → Prop
  | .tick _ | .page _ _ _ => True
  | _ => False

/-- A poll of this window completes between two states, perhaps after waiting, and no row is
written meanwhile. -/
structure Completed (source : SourceId) (before : Collecting reading) (window : Window)
    (after : Collecting reading) : Prop where
  runs : ∃ (waits : List Timestamp) (opened : Collecting reading) (pages : List (Event reading))
    (failure : Failure), run (step source) before (waits.map .tick) = some opened ∧
    opened.window source = window ∧ (∀ event ∈ pages, IsReading event) ∧
    run (step source) opened (.begin :: (pages ++ [.finish true failure])) = some after

/-- What a poll of unchanged rows keeps of the tables and of `records_received`, by the records
it has read so far. -/
structure Under (logs : Logs reading) (window : Window)
    (keeps : List Incoming → Tables → Nat → Prop) (state : Collecting reading) : Prop where
  same : state.logs = logs
  running : ∀ poll ∈ state.poll, poll.window = window ∧ 1 ≤ poll.page ∧
    keeps (records ((logs.within window).take ((poll.page - 1) * pageSize))) state.tables
      (recordsReceived state.collector) ∧
    (poll.short = true → (logs.within window).length ≤ (poll.page - 1) * pageSize)

variable {logs : Logs reading} {window : Window} {keeps : List Incoming → Tables → Nat → Prop}
  {state next : Collecting reading}

/-- A page and all pages before it are the beginning of the rows. -/
theorem take_page (logs : Logs reading) (window : Window) {page : Nat} (first : 1 ≤ page) :
    (logs.within window).take ((page - 1) * pageSize) ++ logs.page window page =
      (logs.within window).take (page * pageSize) := by
  unfold Logs.page
  generalize pageSize = size
  obtain ⟨before, rfl⟩ := Nat.exists_eq_add_of_le' first
  rw [← List.take_add, Nat.add_sub_cancel, Nat.succ_mul]

theorem length_of_short (logs : Logs reading) (window : Window) {page : Nat} (first : 1 ≤ page)
    (short : (logs.page window page).length < pageSize) :
    (logs.within window).length ≤ page * pageSize := by
  unfold Logs.page at short
  generalize pageSize = size at short ⊢
  obtain ⟨before, rfl⟩ := Nat.exists_eq_add_of_le' first
  rw [List.length_take, List.length_drop, Nat.add_sub_cancel] at short
  rw [Nat.succ_mul]
  omega

theorem Under.reads (under : Under logs window keeps state)
    (kept : ∀ done batch tables received progress after world,
      done ++ batch <+: records (logs.within window) → keeps done tables received →
      transact (ingest reading.runtime source batch) (World.session world tables) =
        (.ok (.committed progress), after) →
      keeps (done ++ batch) after (received + (progress.report.accepted + progress.report.rejected)))
    {event : Event reading} (reads : IsReading event) (taken : step source state event = some next) :
    Under logs window keeps next := by
  cases event with
  | tick now =>
    obtain ⟨-, rfl⟩ := step_tick.mp taken
    exact ⟨under.same, under.running⟩
  | page world counted failure =>
    obtain ⟨poll, running, long, paged⟩ := step_page taken
    obtain ⟨rfl, first, kept', -⟩ := under.running poll running
    rw [under.same] at paged
    have joined : records ((logs.within poll.window).take ((poll.page - 1) * pageSize)) ++
        records (logs.page poll.window poll.page) =
        records ((logs.within poll.window).take (poll.page * pageSize)) := by
      rw [← take_page logs poll.window first, records, records, records, List.map_append]
    have last (short : decide ((logs.page poll.window poll.page).length < pageSize) = true) :=
      length_of_short logs poll.window first (of_decide_eq_true short)
    have turned (total : IngestReport) :
        (poll.turned (logs.page poll.window poll.page) total).page - 1 = poll.page :=
      Nat.add_sub_cancel _ _
    cases paged with
    | empty nothing =>
      refine ⟨under.same, ?_⟩
      rintro _ ⟨⟩
      rw [nothing, records, records, List.map_nil, List.append_nil] at joined
      refine ⟨rfl, Nat.le_add_left _ _, ?_, ?_⟩ <;> rw [turned]
      · exact joined ▸ kept'
      · exact last
    | stored world progress tables collector total committed counted =>
      refine ⟨under.same, ?_⟩
      rintro _ ⟨⟩
      have begins : records ((logs.within poll.window).take (poll.page * pageSize)) <+:
          records (logs.within poll.window) := (List.take_prefix _ _).map _
      rw [← joined] at begins
      have after := kept _ _ _ _ _ _ _ begins kept' committed
      rw [joined, ← counted] at after
      refine ⟨rfl, Nat.le_add_left _ _, ?_, ?_⟩ <;> rw [turned]
      · exact after
      · exact last
    | uncounted => exact ⟨under.same, by simp [Collecting.abandon]⟩
    | refused => exact ⟨under.same, by simp [Collecting.abandon]⟩
  | write | begin | fail | finish => cases reads

theorem reads_now {event : Event reading} (reads : IsReading event)
    (taken : step source state event = some next) : state.now ≤ next.now := by
  cases event with
  | tick now =>
    obtain ⟨later, rfl⟩ := step_tick.mp taken
    exact later
  | page world counted failure =>
    obtain ⟨poll, -, -, paged⟩ := step_page taken
    cases paged <;> exact le_refl _
  | write | begin | fail | finish => cases reads

theorem run_ticks {waits : List Timestamp}
    (reached : run (step source) state (waits.map .tick) = some next) :
    state.now ≤ next.now ∧ next = { state with now := next.now } := by
  induction waits generalizing state with
  | nil =>
    cases reached
    exact ⟨le_refl _, rfl⟩
  | cons now rest ih =>
    obtain ⟨middle, taken, later⟩ := (run_cons _ _ _ _ _).mp reached
    obtain ⟨passed, rfl⟩ := step_tick.mp taken
    obtain ⟨passed', same⟩ := ih later
    exact ⟨passed.trans passed', same⟩

theorem run_reads {inv : Collecting reading → Prop}
    (kept : ∀ state event next, IsReading event → inv state → step source state event = some next →
      inv next) {events : List (Event reading)} (reads : ∀ event ∈ events, IsReading event)
    (initial : inv state) (reached : run (step source) state events = some next) : inv next := by
  induction events generalizing state with
  | nil =>
    cases reached
    exact initial
  | cons event rest ih =>
    obtain ⟨middle, taken, later⟩ := (run_cons _ _ _ _ _).mp reached
    exact ih (fun other member => reads other (List.mem_cons_of_mem _ member))
      (kept _ _ _ (reads event (by simp)) initial taken) later

/-- The end of a poll's window is that of the time it began. -/
theorem Completed.finish_bounds {before after : Collecting reading}
    (completed : Completed source before window after) :
    toSecond (before.now + clockSlack) ≤ window.finish ∧
      window.finish ≤ toSecond (after.now + clockSlack) := by
  obtain ⟨waits, opened, pages, failure, waited, rfl, reads, reached⟩ := completed.runs
  obtain ⟨begun, started, reached⟩ := (run_cons _ _ _ _ _).mp reached
  obtain ⟨read, turned, finished⟩ := (run_append _ _ _ _ _).mp reached
  obtain ⟨last, ended, same⟩ := (run_cons _ _ _ _ _).mp finished
  obtain rfl := Option.some.inj same
  obtain ⟨poll, -, -, rfl⟩ := step_finish.mp ended
  obtain ⟨-, begins⟩ := step_begin.mp started
  have open_now : opened.now ≤ begun.now := by rw [begins]
  have later : opened.now ≤ read.now := by
    apply @run_reads reading source begun read (fun state => opened.now ≤ state.now) _ pages reads
      open_now turned
    intro state event next reads passed taken
    exact passed.trans (reads_now reads taken)
  exact ⟨toSecond_mono (Int.add_le_add_right (run_ticks waited).1 _),
    toSecond_mono (Int.add_le_add_right later _)⟩

/-- What every page keeps holds of all the rows of a completed poll. -/
theorem Completed.finds {before after : Collecting reading}
    (completed : Completed source before window after)
    (kept : ∀ done batch tables received progress after world,
      done ++ batch <+: records (before.logs.within window) → keeps done tables received →
      transact (ingest reading.runtime source batch) (World.session world tables) =
        (.ok (.committed progress), after) →
      keeps (done ++ batch) after (received + (progress.report.accepted + progress.report.rejected)))
    (initial : keeps [] before.tables (recordsReceived before.collector)) :
    keeps (records (before.logs.within window)) after.tables (recordsReceived after.collector) ∧
      after.logs = before.logs := by
  obtain ⟨waits, opened, pages, failure, waited, rfl, reads, reached⟩ := completed.runs
  obtain ⟨-, same⟩ := run_ticks waited
  obtain ⟨begun, started, reached⟩ := (run_cons _ _ _ _ _).mp reached
  obtain ⟨read, turned, finished⟩ := (run_append _ _ _ _ _).mp reached
  obtain ⟨last, ended, done⟩ := (run_cons _ _ _ _ _).mp finished
  obtain rfl := Option.some.inj done
  obtain ⟨-, begins⟩ := step_begin.mp started
  have start : Under before.logs (opened.window source) keeps begun := by
    rw [begins]
    refine ⟨by rw [same], ?_⟩
    rintro _ ⟨⟩
    refine ⟨rfl, le_refl _, ?_, fun short => by cases short⟩
    rw [Nat.sub_self, Nat.zero_mul, List.take_zero]
    rw [same]
    exact initial
  have final := run_reads (fun state event next reads under taken => under.reads kept reads taken)
    reads start turned
  obtain ⟨poll, running, short, rfl⟩ := step_finish.mp ended
  obtain ⟨-, -, all, whole⟩ := final.running poll running
  rw [List.take_of_length_le (whole short)] at all
  refine ⟨?_, final.same⟩
  have received : recordsReceived (some (polled read.now read.collector)) =
      recordsReceived read.collector := by
    cases read.collector <;> rfl
  simpa [received] using all

theorem filter_suffix {rows : List (LogRow reading)}
    (sorted : rows.Pairwise fun first second => first.startTime ≤ second.startTime)
    (time : Timestamp) : rows.filter (fun row => decide (time ≤ row.startTime)) <:+ rows := by
  induction sorted with
  | nil => exact List.nil_suffix
  | @cons row rest after later ih =>
    by_cases here : time ≤ row.startTime
    · have all : ∀ other ∈ row :: rest, decide (time ≤ other.startTime) = true := by
        intro other member
        rcases List.mem_cons.mp member with rfl | behind
        · exact decide_eq_true here
        · exact decide_eq_true (here.trans (after other behind))
      rewrite [List.filter_eq_self.mpr all]
      exact List.suffix_rfl
    · rw [List.filter_cons_of_neg (by simpa using here)]
      exact ih.trans (List.suffix_cons row rest)

/-- Rows that an earlier window has, up to a time not past its own end, are the last of its
rows. -/
theorem within_suffix {earlier later : Window} (ends : earlier.finish ≤ later.finish)
    (same : ∀ row ∈ logs.within later, row ∈ logs.within earlier) :
    logs.within later <:+ logs.within earlier := by
  have tail : logs.within later =
      (logs.within earlier).filter fun row => decide (later.start ≤ row.startTime) := by
    rw [Logs.within, Logs.within, List.filter_filter]
    apply List.filter_congr
    intro row member
    have covered (inside : later.covers row.startTime = true) :
        earlier.covers row.startTime = true :=
      (List.mem_filter.mp (same row (List.mem_filter.mpr ⟨member, inside⟩))).2
    by_cases inside : later.covers row.startTime = true
    · rw [inside, covered inside]
      simp only [Window.covers, Bool.and_eq_true, decide_eq_true_eq] at inside
      simp [inside.1]
    · by_cases inside' : earlier.covers row.startTime = true
      · simp only [Window.covers, Bool.and_eq_true, decide_eq_true_eq] at inside inside'
        have before : ¬later.start ≤ row.startTime := fun starts =>
          inside ⟨starts, inside'.2.trans ends⟩
        simp [Window.covers, before]
      · rw [Bool.eq_false_iff.mpr inside, Bool.eq_false_iff.mpr inside', Bool.and_false]
  rw [tail]
  exact filter_suffix (logs.sorted.filter _) later.start

theorem isRejected_eq_false {record : Incoming} :
    isRejected record = false ↔ ∃ event, record = .record event := by
  cases record <;> simp [isRejected]

variable {start middle finish : Collecting reading} {earlier later : Window}

/-- A second complete poll over rows of the first leaves the stored events, the dead letters and
the accounts as they are, and counts nothing as received, exactly when every row it reads is
readable. -/
theorem second_poll_changes_nothing_iff (valid : Valid False start.tables)
    (first : Completed source start earlier middle) (second : Completed source middle later finish)
    (same : ∀ row ∈ middle.logs.within later, row ∈ start.logs.within earlier) :
    (finish.tables.events = middle.tables.events ∧
      finish.tables.deadLetters = middle.tables.deadLetters ∧
      finish.tables.accounts = middle.tables.accounts ∧
      recordsReceived finish.collector = recordsReceived middle.collector) ↔
    ∀ row ∈ middle.logs.within later, ∃ event, parse reading row.body = .record event := by
  have stored := @Completed.finds _ _ _
    (fun done tables _ => Settled reading.runtime source done tables) _ _ first
    (fun done batch tables _ progress after world _ settled committed =>
      (holds_settled batch).transact settled committed progress rfl) (Settled.start valid)
  obtain ⟨settled, unchanged⟩ := stored
  rw [← unchanged] at same settled
  have ends : earlier.finish ≤ later.finish := first.finish_bounds.2.trans second.finish_bounds.1
  obtain ⟨before, split⟩ := within_suffix ends same
  have whole : records (middle.logs.within earlier) =
      records before ++ records (middle.logs.within later) := by
    rw [← split, records, records, records, List.map_append]
  rw [whole] at settled
  have repeated := @Completed.finds _ _ _
    (fun done tables received => Again source middle.tables done tables ∧
      received = recordsReceived middle.collector + done.countP isRejected) _ _ second
    (fun done batch tables received progress after world part again committed => by
      have among : ∀ record ∈ batch, record ∈ records before ++ records (middle.logs.within later) :=
        fun record member => List.mem_append_right _
          (part.subset (List.mem_append_right done member))
      obtain ⟨final, reported⟩ :=
        (holds_again settled among).transact again.1 committed progress rfl
      refine ⟨final, ?_⟩
      rw [again.2, reported.accepted, reported.rejected, List.countP_append]
      omega) ⟨Again.start, rfl⟩
  obtain ⟨⟨again, received⟩, -⟩ := repeated
  obtain ⟨letters, appended, count⟩ := again.letters
  have readable : (records (middle.logs.within later)).countP isRejected = 0 ↔
      ∀ row ∈ middle.logs.within later, ∃ event, parse reading row.body = .record event := by
    simp only [List.countP_eq_zero, records, List.forall_mem_map, Bool.not_eq_true,
      isRejected_eq_false]
  rw [← readable]
  constructor
  · rintro ⟨-, -, -, same⟩
    omega
  · intro none
    have nothing : letters = [] := List.length_eq_zero_iff.mp (count.trans none)
    refine ⟨again.events, ?_, again.unchanged settled, by rw [received, none, Nat.add_zero]⟩
    rw [appended, nothing, List.append_nil]

theorem Completed.same_logs {before after : Collecting reading}
    (completed : Completed source before window after) : after.logs = before.logs := by
  have found := @Completed.finds _ _ _ (fun _ _ _ => True) _ _ completed
    (fun _ _ _ _ _ _ _ _ kept _ => kept) trivial
  exact found.2

/-- A runtime that reads every instant as the epoch, and sums bytes for their hash. -/
def epoch : Reading where
  runtime := { Sql.Runtime.inert with
    parseTimestamp := fun _ => some 0
    blake3 := fun bytes => toString (bytes.map UInt8.toNat).sum }
  real := fun _ => .zero
  civil := fun _ => none
  quoted := id
  refusal := fun _ => ""

/-- A row of the epoch, readable or not. -/
def epochRow (readable : Bool) : LogRow epoch where
  startTime := 0
  body := if readable then .object [("request_id", .string "1"), ("startTime", .string "0")] else .null
  printed := printed_of_prints (by cases readable <;> decide)

/-- A source whose endpoint holds one row. -/
def holding (readable : Bool) : Collecting epoch where
  tables := { Tables.empty with sources := [⟨1, "", "", .liteLlm, "", true, 0⟩] }
  collector := none
  logs := ⟨[epochRow readable], by simp⟩
  now := 0
  poll := none

/-- One poll, handing out ids from here on. -/
def onePoll (ids : Nat) : List (Event epoch) :=
  [.begin, .page (.calm 0 fun next => ids + next) true ⟨"", true⟩, .finish true ⟨"", true⟩]

theorem completed_onePoll {before after : Collecting epoch} {ids : Nat}
    (reached : run (step 1) before (onePoll ids) = some after) :
    Completed 1 before (before.window 1) after :=
  ⟨[], before, [.page (.calm 0 fun next => ids + next) true ⟨"", true⟩], ⟨"", true⟩, rfl, rfl,
    by simp [IsReading], reached⟩

/-- Two polls of one row, and the dead letters after each. -/
theorem exists_polls (readable : Bool) : ∃ middle finish : Collecting epoch,
    Completed 1 (holding readable) ((holding readable).window 1) middle ∧
      Completed 1 middle (middle.window 1) finish ∧
      middle.tables.deadLetters.length = (if readable then 0 else 1) ∧
      finish.tables.deadLetters.length = (if readable then 0 else 2) := by
  have polled : ((run (step 1) (holding readable) (onePoll 10)).any fun middle =>
      (run (step 1) middle (onePoll 100)).any fun finish =>
        decide (middle.tables.deadLetters.length = (if readable then 0 else 1) ∧
          finish.tables.deadLetters.length = (if readable then 0 else 2))) = true := by
    cases readable <;> decide +kernel
  obtain ⟨middle, first, polled⟩ := (Option.any_eq_true _ _).mp polled
  obtain ⟨finish, second, facts⟩ := (Option.any_eq_true _ _).mp polled
  exact ⟨middle, finish, completed_onePoll first, completed_onePoll second, of_decide_eq_true facts⟩

theorem valid_holding (readable : Bool) : Valid False (holding readable).tables := by
  constructor <;> simp [holding, Tables.empty, Library.Keyed.Distinct]

theorem holding_within (readable : Bool) (window : Window)
    (row : LogRow epoch) (member : row ∈ (holding readable).logs.within window) :
    row ∈ (holding readable).logs.within ((holding readable).window 1) := by
  have covered : ((holding readable).window 1).covers (epochRow readable).startTime = true := by
    cases readable <;> decide
  obtain rfl := List.mem_singleton.mp (List.mem_filter.mp member).1
  exact List.mem_filter.mpr ⟨List.mem_singleton_self _, covered⟩

/-- A readable row that is polled again changes nothing. -/
theorem a_readable_row_is_stored_once : ∃ middle finish : Collecting epoch,
    Completed 1 (holding true) ((holding true).window 1) middle ∧
      Completed 1 middle (middle.window 1) finish ∧
      finish.tables.events = middle.tables.events ∧
      finish.tables.deadLetters = middle.tables.deadLetters ∧
      finish.tables.accounts = middle.tables.accounts ∧
      recordsReceived finish.collector = recordsReceived middle.collector := by
  obtain ⟨middle, finish, first, second, -⟩ := exists_polls true
  have logs := first.same_logs
  have same : ∀ row ∈ middle.logs.within (middle.window 1),
      row ∈ (holding true).logs.within ((holding true).window 1) := by
    rw [logs]
    exact holding_within true _
  have readable : ∀ row ∈ middle.logs.within (middle.window 1),
      ∃ event, parse epoch row.body = .record event := by
    rw [logs]
    intro row member
    obtain rfl := List.mem_singleton.mp (List.mem_filter.mp member).1
    exact isRejected_eq_false.mp (by decide)
  exact ⟨middle, finish, first, second,
    (second_poll_changes_nothing_iff (valid_holding true) first second same).mpr readable⟩

/-- An unreadable row that is polled again is stored as a dead letter again. -/
theorem an_unreadable_row_is_stored_again :
    ¬∀ start middle finish : Collecting epoch, ∀ earlier later, Valid False start.tables →
      Completed 1 start earlier middle → Completed 1 middle later finish →
      (∀ row ∈ middle.logs.within later, row ∈ start.logs.within earlier) →
      finish.tables.events = middle.tables.events ∧
        finish.tables.deadLetters = middle.tables.deadLetters ∧
        finish.tables.accounts = middle.tables.accounts ∧
        recordsReceived finish.collector = recordsReceived middle.collector := by
  intro unchanged
  obtain ⟨middle, finish, first, second, once, twice⟩ := exists_polls false
  have same : ∀ row ∈ middle.logs.within (middle.window 1),
      row ∈ (holding false).logs.within ((holding false).window 1) := by
    rw [first.same_logs]
    exact holding_within false _
  have kept := (unchanged _ _ _ _ _ (valid_holding false) first second same).2.1
  rw [kept] at twice
  exact absurd (once.symm.trans twice) (by decide)

end MeteredUsage.Collector.Repolling
