import Mathlib.Logic.Relation
import MeteredUsage.Library.Minting
import MeteredUsage.Store.Arrivals

/-! The events an ingest stores are added at the end of the table, under ids it was handed while it
held the write lock; the stored ones stay as they are. -/

namespace MeteredUsage.Store.Minted
open MeteredUsage.Values MeteredUsage.Store.Schema MeteredUsage.Store.Commands
open MeteredUsage.Library.Keyed MeteredUsage.Library.Minting MeteredUsage.Library.Transaction
open MeteredUsage.Store.Arrivals (settle valid_settle)
open MeteredUsage.Store.Validity (Valid)
open MeteredUsage.Changes.Table (Subject)

variable {runtime : Sql.Runtime} {kind : EventId → Prop} {base : List UsageEvent}

/-- The events are those of before and more, each under an id of its own. -/
structure Extended (kind : EventId → Prop) (base : List UsageEvent) (tables : Tables) : Prop where
  events : ∃ added, tables.events = base ++ added ∧ ∀ event ∈ added, kind event.id
  ids : Distinct UsageEvent.id tables.events

/-- A write under ids of a kind that keeps the events so. -/
abbrev Extends {Value : Type} (kind : EventId → Prop) (base : List UsageEvent) (body : Write Value) :
    Prop := Keeps kind (Extended kind base) body

theorem Extended.of_events {tables next : Tables} (extended : Extended kind base tables)
    (same : next.events = tables.events) : Extended kind base next :=
  ⟨same ▸ extended.events, same ▸ extended.ids⟩

theorem extends_execute {change : Tables → Tables}
    (same : ∀ tables, (change tables).events = tables.events) :
    Extends kind base (execute change) :=
  .update fun tables extended => extended.of_events (same tables)

theorem extends_attempt {Value : Type} {effect : Tables → Option (Value × Tables)}
    (kept : ∀ tables value next, Extended kind base tables → effect tables = some (value, next) →
      Extended kind base next) : Extends kind base (attempt effect) := by
  apply Keeps.statement
  intro tables value next extended taken
  cases answered : effect tables with
  | none =>
    rw [answered] at taken
    cases taken
  | some answer =>
    rw [answered] at taken
    cases taken
    exact kept _ _ _ extended answered

theorem extends_record (subject : Subject) : Extends kind base (record subject) :=
  Keeps.reading.bind fun _ => extends_execute fun _ => rfl

theorem extends_read (scope : Snapshots.Scope) (parts : Snapshots.Parts) (now : Timestamp) :
    Extends kind base (Snapshots.read runtime scope parts now) := by
  apply (Keeps.query _).bind
  intro filter
  apply (Keeps.query _).bind
  intro accounts
  apply (Keeps.query _).bind
  intro plans
  have quota : Extends kind base (Snapshots.readQuota runtime filter now parts) := by
    cases parts with
    | accounts => exact .pure _
    | quota => exact (Keeps.query _).bind fun _ => (Keeps.query _).bind fun _ => .pure _
  exact quota.bind fun _ => .pure _

theorem extends_resolve (candidate : AccountId) (source : SourceId) (provider : String)
    (account : Accounts.NewAccount) (seenAt : Timestamp) :
    Extends kind base (Accounts.resolve candidate source provider account seenAt) := by
  have stored : Extends kind base (attempt (Accounts.upsert
      (account.row candidate source provider seenAt) (Accounts.seen account seenAt))) := by
    apply extends_attempt
    intro tables value next extended taken
    obtain ⟨_, ⟨_, _, _, same⟩ | ⟨_, _, same⟩⟩ := Intake.upsert_eq taken
    · exact extended.of_events (by rw [same])
    · exact extended.of_events (by rw [same])
  apply stored.bind
  intro row
  split
  next => exact .pure _
  next => exact Keeps.bind (extends_execute fun _ => rfl) fun _ => .pure _

theorem extends_observe (accountId : AccountId) (event : Events.NewUsageEvent) (now : Timestamp) :
    Extends kind base (Response.observe runtime accountId event now) := by
  apply Keeps.onlyIf
  apply (Keeps.query _).bind
  intro newer
  apply Keeps.onlyIf
  split
  next reset _ =>
    apply extends_attempt
    intro tables value next extended taken
    exact extended.of_events (by rw [Intake.upsertMarker_eq taken])
  next => exact extends_execute fun _ => rfl

theorem extends_insertEvent {row : UsageEvent} (minted : kind row.id) :
    Extends kind base (attempt (Ingest.insertEvent row)) := by
  apply extends_attempt
  intro tables isNew next extended taken
  rcases Intake.insertEvent_eq taken with ⟨_, _, same⟩ | ⟨_, _, free, same⟩
  · exact extended.of_events (by rw [same])
  · subst same
    obtain ⟨added, grown, kinds⟩ := extended.events
    constructor
    · refine ⟨added ++ [row], ?_, ?_⟩
      · rw [← List.append_assoc, ← grown]
      · intro event member
        rcases List.mem_append.mp member with earlier | last
        · exact kinds event earlier
        · rw [List.mem_singleton.mp last]
          exact minted
    · exact extended.ids.append_singleton free

theorem extends_ingestNext (source : SourceId) (receivedAt : Timestamp) (progress : Ingest.Progress)
    (record : Events.Incoming) :
    Extends kind base (Ingest.ingestNext runtime source receivedAt progress record) := by
  cases record with
  | rejected error payload =>
    apply Keeps.nextId_then
    intro id _
    have kept : Extends kind base
        (attempt (Ingest.insertDeadLetter ⟨id, source, receivedAt, error, payload⟩)) := by
      apply extends_attempt
      intro tables value next extended taken
      exact extended.of_events (by rw [Intake.insertDeadLetter_eq taken])
    exact kept.bind fun _ => .pure _
  | record event =>
    apply Keeps.nextId_then
    intro candidate _
    apply (extends_resolve _ _ _ _ _).bind
    intro accountId
    apply Keeps.nextId_then
    intro id minted
    apply (extends_insertEvent minted).bind
    intro isNew
    split
    next => exact (extends_observe _ _ _).bind fun _ => .pure _
    next => exact .pure _

theorem extends_snapshotBefore (source : SourceId) (records : List Events.Incoming) :
    Extends kind base (Ingest.snapshotBefore runtime source records) := by
  unfold Ingest.snapshotBefore
  split
  · exact Keeps.reading.bind fun now => extends_read _ _ now
  · exact Keeps.reading.bind fun now => extends_read _ _ now

theorem extends_ingest (source : SourceId) (records : List Events.Incoming) :
    Extends kind base (Ingest.ingest runtime source records) := by
  apply Keeps.reading.bind
  intro receivedAt
  apply (extends_snapshotBefore source records).bind
  intro snapshot
  apply (Keeps.foldlM (extends_ingestNext source receivedAt) _).bind
  intro progress
  have compared : Extends kind base (Snapshots.recordChanges runtime snapshot) :=
    (extends_read _ _ _).bind fun _ => .forM extends_record
  apply compared.bind
  intro _
  apply (Keeps.forM fun arrival => extends_record _).bind
  intro _
  exact (Keeps.onlyIf (extends_record .usage)).bind fun _ => .commit _ _

/-- What the schema asks of the stored events: accounts and sources that are stored, and ids of their
own in an `i64` column. -/
structure Sound (tables : Tables) : Prop where
  valid : Valid False tables
  ids : Distinct UsageEvent.id tables.events
  fits : ∀ event ∈ tables.events, event.id < 2 ^ 63

/-- The ids an ingest is handed while it holds the write lock. -/
structure Mints (tables : Tables) (world : World) : Prop where
  later : ∀ event ∈ tables.events, ∀ next, event.id < world.ids next
  fits : ∀ next, world.ids next < 2 ^ 63

/-- An ingest, whether it commits or not. -/
def Ingests (runtime : Sql.Runtime) (tables next : Tables) : Prop :=
  ∃ source records world, Mints tables world ∧ next = settle runtime tables (.ingest source records, world)

/-- New events, each under a larger id than every one from before. -/
structure Grown (before after : Tables) : Prop where
  sound : Sound after
  events : ∃ added, after.events = before.events ++ added ∧
    ∀ event ∈ before.events, ∀ other ∈ added, event.id < other.id

theorem Grown.refl {tables : Tables} (sound : Sound tables) : Grown tables tables :=
  ⟨sound, [], (List.append_nil _).symm, fun _ _ _ absent => absurd absent List.not_mem_nil⟩

theorem Grown.trans {before middle after : Tables} (first : Grown before middle)
    (second : Grown middle after) : Grown before after := by
  obtain ⟨early, grown, above⟩ := first.events
  obtain ⟨late, more, beyond⟩ := second.events
  refine ⟨second.sound, early ++ late, ?_, ?_⟩
  · rw [more, grown, List.append_assoc]
  · intro event member other new
    rcases List.mem_append.mp new with here | later
    · exact above event member other here
    · exact beyond event (grown ▸ List.mem_append_left _ member) other later

theorem grown_of_ingests {tables next : Tables} (sound : Sound tables)
    (ingests : Ingests runtime tables next) : Grown tables next := by
  obtain ⟨source, records, world, mints, rfl⟩ := ingests
  have valid := @valid_settle runtime _ sound.valid (.ingest source records, world)
  cases committed : (perform runtime tables world (.ingest source records)).1 with
  | false =>
    rw [settle, perform_unchanged committed]
    exact .refl sound
  | true =>
    have ended : perform runtime tables world (.ingest source records) =
        (true, settle runtime tables (.ingest source records, world)) := Prod.ext committed rfl
    obtain ⟨value, landed⟩ := performed_iff.mp ended
    -- Every id handed out is above all that were stored, and fits the column.
    have supplied : Supplied (fun id => (∀ event ∈ tables.events, event.id < id) ∧ id < 2 ^ 63)
        (Extended (fun id => (∀ event ∈ tables.events, event.id < id) ∧ id < 2 ^ 63) tables.events)
        (world.session tables) := by
      refine ⟨fun next => ⟨fun event member => mints.later event member next, mints.fits next⟩, ?_⟩
      exact ⟨⟨[], (List.append_nil _).symm, fun _ absent => absurd absent List.not_mem_nil⟩, sound.ids⟩
    obtain ⟨finish, same, extended⟩ :=
      (@extends_ingest runtime _ _ source records).transact supplied landed
    obtain ⟨added, grown, kinds⟩ := extended.data.events
    have ids := extended.data.ids
    rw [same] at grown ids
    refine ⟨⟨valid, ids, ?_⟩, added, grown, fun event member other new => (kinds other new).1 event member⟩
    intro event member
    rw [grown] at member
    rcases List.mem_append.mp member with earlier | new
    · exact sound.fits event earlier
    · exact (kinds event new).2

/-- What any number of ingests leaves. -/
theorem grown_of_run {tables next : Tables} (sound : Sound tables)
    (run : Relation.ReflTransGen (Ingests runtime) tables next) : Grown tables next := by
  induction run with
  | refl => exact .refl sound
  | tail _ ingests ih => exact ih.trans (grown_of_ingests ih.sound ingests)

end MeteredUsage.Store.Minted
