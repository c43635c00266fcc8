import MeteredUsage.Store.Arrivals
import MeteredUsage.Store.Provenance

/-! What a source's deliveries leave, however they are cut into batches, ordered and repeated: one
event for each record hash, which is the first record of it, on the account its credential resolves to. -/

namespace MeteredUsage.Store.Deliveries
open MeteredUsage.Values MeteredUsage.Store.Schema MeteredUsage.Store.Events
open MeteredUsage.Store.Ingest MeteredUsage.Store.Validity MeteredUsage.Store.Statements
open MeteredUsage.Store.Landing MeteredUsage.Store.Intake MeteredUsage.Store.Commands
open MeteredUsage.Store.Exhaustion MeteredUsage.Store.Provenance MeteredUsage.Library.Keyed
open MeteredUsage.Library.Transaction
open MeteredUsage.Store.Arrivals (settle settled valid_settle unused valid_unused)

variable {runtime : Sql.Runtime} {source : SourceId} {base : Tables}

/-- What a batch adds, and what its report says of it. -/
structure Counts (base after : Tables) (records : List Incoming) (report : IngestReport) : Prop where
  total : report.accepted + report.duplicates + report.rejected = records.length
  accepted : ∃ added, after.events = base.events ++ added ∧ added.length = report.accepted
  rejected : ∃ letters, after.deadLetters = base.deadLetters ++ letters ∧
    letters.length = report.rejected

theorem counts_start (base : Tables) : Counts base base [] Progress.start.report :=
  ⟨rfl, ⟨[], (List.append_nil _).symm, rfl⟩, ⟨[], (List.append_nil _).symm, rfl⟩⟩

theorem counts_ignores {records : List Incoming} {report : IngestReport} :
    IgnoresFeed fun tables => Counts base tables records report :=
  fun _ _ counts => ⟨counts.total, counts.accepted, counts.rejected⟩

theorem Counts.taken {done : List Incoming} {record : Incoming} {progress next : Progress}
    {tables after : Tables} {receivedAt : Timestamp} (counts : Counts base tables done progress.report)
    (taken : Taken runtime source receivedAt tables progress record next after) :
    Counts base after (done ++ [record]) next.report := by
  have total := counts.total
  obtain ⟨added, grown, length⟩ := counts.accepted
  obtain ⟨letters, kept, count⟩ := counts.rejected
  cases taken with
  | rejected error payload id =>
    refine ⟨?_, ⟨added, grown, length⟩, letters ++ [⟨id, source, receivedAt, error, payload⟩], ?_, ?_⟩
    · rw [List.length_append, List.length_singleton]
      change progress.report.accepted + progress.report.duplicates + (progress.report.rejected + 1) = _
      omega
    · rw [← List.append_assoc, ← kept]
    · rw [List.length_append, count]
      rfl
  | duplicate =>
    refine ⟨?_, ⟨added, grown, length⟩, letters, kept, count⟩
    rw [List.length_append, List.length_singleton]
    change progress.report.accepted + (progress.report.duplicates + 1) + progress.report.rejected = _
    omega
  | accepted event candidate owner isNewCredential accounts id arrival stored charged owned unknown
      fresh appended =>
    subst appended
    refine ⟨?_, ⟨added ++ [event.row runtime id source owner], ?_, ?_⟩, letters, kept, count⟩
    · rw [List.length_append, List.length_singleton]
      change progress.report.accepted + 1 + progress.report.duplicates + progress.report.rejected = _
      omega
    · rw [← List.append_assoc, ← grown]
    · rw [List.length_append, length]
      rfl

/-- The report of a batch that commits counts what it did. -/
theorem holds_ingest_counts (records : List Incoming) :
    Holds (fun tables => tables = base) (ingest runtime source records) fun ending tables =>
      ∀ progress, ending = .committed progress → Counts base tables records progress.report := by
  rw [ingest_eq]
  apply Holds.reading_then
  intro receivedAt
  apply Holds.reading_then
  intro now
  have counted : Holds (fun tables => Counts base tables [] Progress.start.report)
      (ingesting runtime source records receivedAt now) fun ending tables =>
        ∀ progress, ending = .committed progress → Counts base tables records progress.report := by
    apply @holds_ingesting_taken runtime source fun done progress tables =>
      Counts base tables done progress.report
    · exact fun _ _ => counts_ignores
    · exact fun done record rest _ progress tables next after counts taken => counts.taken taken
  apply counted.weaken
  · intro tables same
    subst same
    exact counts_start tables
  · exact fun _ _ counts => counts

/-- What a run delivers: the records of its ingests that commit, in order. -/
def deliveredAlong (runtime : Sql.Runtime) : Tables → List (Command × World) → List Record
  | _, [] => []
  | tables, action :: rest =>
    (if (perform runtime tables action.2 action.1).1 then deliveredBy action.1 else []) ++
      deliveredAlong runtime (settle runtime tables action) rest

/-- What tells two stored events apart. -/
def eventKey (event : UsageEvent) : SourceId × String := (event.sourceId, event.recordHash)

/-- The events are one for each hash among the records of a source, with what the first record of the
hash says, on the account its credential resolves to, which is merged into no other. -/
structure StoresEach (runtime : Sql.Runtime) (delivered : List Record) (tables : Tables) : Prop where
  stored : ∀ record ∈ delivered, ∃ event ∈ tables.events, eventKey event = recordKey runtime record
  once : Distinct eventKey tables.events
  first : ∀ event ∈ tables.events, ∃ record, recordOf runtime delivered event = some record ∧
    Stores runtime tables.accounts record event
  unmerged : ∀ event ∈ tables.events, Unmerged tables.accounts event.accountId

theorem StoresEach.of_traced {delivered : List Record} {tables : Tables} (valid : Valid False tables)
    (traced : Traced runtime delivered tables) : StoresEach runtime delivered tables where
  stored record member := by
    obtain ⟨event, stored, held⟩ := List.any_eq_true.mp (traced.known record member)
    simp only [holdsHash, Bool.and_eq_true, decide_eq_true_eq] at held
    exact ⟨event, stored, Prod.ext held.1 held.2⟩
  once := valid.eventHashes
  first := traced.records
  unmerged event stored := (valid.eventAccounts event stored).unmerged

theorem traced_settle {delivered : List Record} (valid : Valid False base)
    (traced : Traced runtime delivered base) (action : Command × World) :
    Traced runtime (delivered ++ if (perform runtime base action.2 action.1).1 then
      deliveredBy action.1 else []) (settle runtime base action) := by
  cases committed : (perform runtime base action.2 action.1).1 with
  | false =>
    rw [settle, perform_unchanged committed, if_neg Bool.false_ne_true, List.append_nil]
    exact traced
  | true =>
    rw [if_pos rfl]
    exact traced_step valid traced (step_iff.mpr (Prod.ext committed rfl))

theorem traced_settled {delivered : List Record} (valid : Valid False base)
    (traced : Traced runtime delivered base) (actions : List (Command × World)) :
    Valid False (settled runtime base actions) ∧
      Traced runtime (delivered ++ deliveredAlong runtime base actions) (settled runtime base actions) := by
  induction actions generalizing base delivered with
  | nil => exact ⟨valid, (List.append_nil delivered).symm ▸ traced⟩
  | cons action rest ih =>
    have later := ih (valid_settle valid action) (traced_settle valid traced action)
    rw [List.append_assoc] at later
    exact later

/-- From no events on, whatever is written beside them, every committed delivery is stored once, under
its first record and its own account; a report counts what its batch did; and what does not commit
changes nothing. -/
theorem ingest_has_set_semantics (valid : Valid False base) (empty : base.events = [])
    (actions : List (Command × World)) :
    StoresEach runtime (deliveredAlong runtime base actions) (settled runtime base actions) ∧
    (∀ done source records world rest progress next,
      actions = done ++ (.ingest source records, world) :: rest →
      transact (ingest runtime source records) (world.session (settled runtime base done)) =
        (.ok (.committed progress), next) →
      Counts (settled runtime base done) next records progress.report) ∧
    ∀ done action rest, actions = done ++ action :: rest →
      (perform runtime (settled runtime base done) action.2 action.1).1 = false →
      settle runtime (settled runtime base done) action = settled runtime base done := by
  refine ⟨?_, ?_, ?_⟩
  · obtain ⟨stays, traced⟩ := traced_settled valid (traced_start empty) actions
    exact .of_traced stays traced
  · intro done source records world rest progress next _ committed
    exact (holds_ingest_counts records).transact rfl committed progress rfl
  · intro done action rest _ failed
    exact perform_unchanged failed

/-- A request twice and a record that was refused, another request, the merge of their accounts, and
both requests again. -/
def replayed : List (Command × World) :=
  let first := Incoming.record (.idle "old" 0)
  let second := Incoming.record (.idle "new" 0)
  [(.ingest 1 [first, first, .rejected "" .null], .calm 0 (· + 1)), (.ingest 1 [second], .calm 1 (· + 20)),
    (.merge 1 20 false, .calm 2 id), (.ingest 1 [second, first], .calm 3 (· + 40))]

theorem a_replay_stores_nothing :
    StoresEach exhaustedRuntime (deliveredAlong exhaustedRuntime unused replayed)
      (settled exhaustedRuntime unused replayed) ∧
    (settled exhaustedRuntime unused replayed).events.map eventKey =
      [(1, (NewUsageEvent.idle "old" 0).recordHash exhaustedRuntime),
        (1, (NewUsageEvent.idle "new" 0).recordHash exhaustedRuntime)] :=
  ⟨(ingest_has_set_semantics valid_unused rfl replayed).1, by decide +kernel⟩

end MeteredUsage.Store.Deliveries
