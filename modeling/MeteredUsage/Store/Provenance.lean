import MeteredUsage.Store.Exhaustion
import MeteredUsage.Store.Sparing

/-! Where the stored events come from: whatever was written since, each is the row of the first
record delivered with its key, on the account that key is charged to, but for what it cost. -/

namespace MeteredUsage.Store.Provenance
open MeteredUsage.Values MeteredUsage.Store.Schema MeteredUsage.Store.Accounts
open MeteredUsage.Store.Events MeteredUsage.Store.Ingest MeteredUsage.Store.Validity
open MeteredUsage.Store.Statements MeteredUsage.Store.Landing MeteredUsage.Store.Links
open MeteredUsage.Store.Upkeep MeteredUsage.Store.Commands MeteredUsage.Store.Intake
open MeteredUsage.Store.Merged MeteredUsage.Store.Exhaustion MeteredUsage.Store.Sparing
open MeteredUsage.Library.Keyed MeteredUsage.Library.Transaction

variable {runtime : Sql.Runtime} {source : SourceId} {delivered : List Record}
  {tables next : Tables}

/-- The record an event was stored for. -/
def recordOf (runtime : Sql.Runtime) (delivered : List Record) (event : UsageEvent) : Option Record :=
  delivered.find? fun record => recordKey runtime record = (event.sourceId, event.recordHash)

theorem recordKey_of_recordOf {event : UsageEvent} {record : Record}
    (first : recordOf runtime delivered event = some record) :
    recordKey runtime record = (event.sourceId, event.recordHash) := by
  unfold recordOf at first
  simpa using List.find?_some first

/-- The event is what the record is stored as, on the account it is charged to. -/
structure Stores (runtime : Sql.Runtime) (accounts : List Account) (record : Record)
    (event : UsageEvent) : Prop where
  owned : chargedTo accounts record = some event.accountId
  row : uncosted event = uncosted (record.2.row runtime event.id record.1 event.accountId)

structure Traced (runtime : Sql.Runtime) (delivered : List Record) (tables : Tables) : Prop where
  known : ∀ record ∈ delivered,
    tables.events.any (holdsHash record.1 (record.2.recordHash runtime)) = true
  records : ∀ event ∈ tables.events, ∃ record, recordOf runtime delivered event = some record ∧
    Stores runtime tables.accounts record event

theorem traced_start (none_stored : tables.events = []) : Traced runtime [] tables :=
  ⟨by simp, by simp [none_stored]⟩

theorem traced_ignores : IgnoresFeed (Traced runtime delivered) := fun _ _ traced =>
  ⟨traced.known, traced.records⟩

theorem Traced.spares (traced : Traced runtime delivered tables) (spares : Spares tables next) :
    Traced runtime delivered next where
  known record member := spares.events ▸ traced.known record member
  records event member := by
    obtain ⟨record, first, stores⟩ := traced.records event (spares.events ▸ member)
    exact ⟨record, first, spares.owners _ _ _ stores.owned, stores.row⟩

theorem Traced.moves (traced : Traced runtime delivered tables) {id into : AccountId}
    (moves : Moves id into tables next) : Traced runtime delivered next where
  known record member := by
    rw [moves.events, List.any_map]
    exact traced.known record member
  records event member := by
    rw [moves.events] at member
    obtain ⟨stored, kept, rfl⟩ := List.mem_map.mp member
    obtain ⟨record, first, stores⟩ := traced.records stored kept
    refine ⟨record, first, ?_, ?_⟩
    · exact (moves.owners _ _).trans (congrArg (Option.map (moved id into)) stores.owned)
    · have same := congrArg (movedEvent id into) stores.row
      exact same

/-- Events that only cost something else are stored for the same records. -/
theorem Traced.recosted (traced : Traced runtime delivered tables) {events : List UsageEvent}
    (same : events.map uncosted = tables.events.map uncosted) :
    Traced runtime delivered { tables with events := events } where
  known record member := by
    have unpriced (events : List UsageEvent) :
        (events.map uncosted).any (holdsHash record.1 (record.2.recordHash runtime)) =
          events.any (holdsHash record.1 (record.2.recordHash runtime)) := List.any_map
    rw [← unpriced, same, unpriced]
    exact traced.known record member
  records event member := by
    obtain ⟨stored, kept, equal⟩ := List.mem_map.mp (same ▸ List.mem_map_of_mem member)
    obtain ⟨record, first, stores⟩ := traced.records stored kept
    have ids : stored.id = event.id := (congrArg UsageEvent.id equal :)
    have owner : stored.accountId = event.accountId := (congrArg UsageEvent.accountId equal :)
    have sources : stored.sourceId = event.sourceId := (congrArg UsageEvent.sourceId equal :)
    have hashes : stored.recordHash = event.recordHash := (congrArg UsageEvent.recordHash equal :)
    refine ⟨record, ?_, owner ▸ stores.owned, ?_⟩
    · unfold recordOf at first ⊢
      rw [← sources, ← hashes]
      exact first
    · rw [← ids, ← owner, ← equal]
      exact stores.row

theorem Traced.priced (traced : Traced runtime delivered tables) (priced : Priced tables next) :
    Traced runtime delivered next := by
  obtain ⟨events, _, same, _, entries, rfl, _⟩ := priced
  exact traced_ignores _ _ (traced.recosted same)

theorem recordOf_append {event : UsageEvent} {record : Record}
    (first : recordOf runtime delivered event = some record) (later : List Record) :
    recordOf runtime (delivered ++ later) event = some record := by
  unfold recordOf at first ⊢
  rw [List.find?_append, first]
  rfl

/-- A request gives its key an owner, and takes none. -/
theorem spares_attributed (row : Account) (new : NewAccount) (seenAt : Timestamp) :
    Spares tables { tables with accounts := attributed row new seenAt tables.accounts } := by
  refine ⟨rfl, fun source key owner owned => ?_⟩
  rw [ownerOf_attributed, owned]
  rfl

theorem Traced.taken (traced : Traced runtime delivered tables) {record : Incoming}
    {receivedAt : Timestamp} {progress after : Progress}
    (taken : Taken runtime source receivedAt tables progress record after next) :
    Traced runtime (delivered ++ recordsOf source [record]) next := by
  cases taken with
  | rejected error payload id =>
    rw [show recordsOf source [.rejected error payload] = [] from rfl, List.append_nil]
    exact traced.spares ((Spares.refl tables).beside rfl rfl)
  | duplicate event candidate owner isNewCredential accounts charged owned known =>
    subst charged
    have spared := traced.spares (spares_attributed (event.account.row candidate source
      event.provider event.occurredAt) event.account event.occurredAt)
    refine ⟨fun other member => ?_, fun stored member => ?_⟩
    · rcases List.mem_append.mp member with earlier | here
      · exact spared.known other earlier
      · rw [List.mem_singleton.mp here]
        exact known
    · obtain ⟨first, found, stores⟩ := spared.records stored member
      exact ⟨first, recordOf_append found _, stores⟩
  | accepted event candidate owner isNewCredential accounts id arrival stored charged owned unknown
      fresh appended =>
    subst charged appended
    have spared := traced.spares (spares_attributed (event.account.row candidate source
      event.provider event.occurredAt) event.account event.occurredAt)
    refine ⟨fun other member => ?_, fun row member => ?_⟩
    · change (tables.events ++ _).any _ = true
      rw [List.any_append, Bool.or_eq_true]
      rcases List.mem_append.mp member with earlier | here
      · exact .inl (spared.known other earlier)
      · rw [List.mem_singleton.mp here]
        simp [holdsHash, NewUsageEvent.row]
    · rcases List.mem_append.mp member with earlier | here
      · obtain ⟨first, found, stores⟩ := spared.records row earlier
        exact ⟨first, recordOf_append found _, stores⟩
      · rw [List.mem_singleton.mp here]
        have unseen : delivered.find? (fun record => recordKey runtime record =
            (source, event.recordHash runtime)) = none := by
          rw [List.find?_eq_none]
          intro other earlier same
          have stored := spared.known other earlier
          obtain ⟨sameSource, sameHash⟩ := Prod.mk.inj (of_decide_eq_true same)
          rw [sameSource, sameHash] at stored
          exact Bool.eq_false_iff.mp unknown stored
        refine ⟨(source, event), ?_, owned, rfl⟩
        change (delivered ++ [(source, event)]).find? _ = _
        rw [List.find?_append]
        refine (congrArg (fun first => Option.or first _) unseen).trans ?_
        simp [recordKey, NewUsageEvent.row]

/-- What a write delivers, where it is an ingest. -/
def deliveredBy : Command → List Record
  | .ingest sourceId records => recordsOf sourceId records
  | _ => []

theorem traced_ingest (traced : Traced runtime delivered tables) (records : List Incoming) :
    Holds (fun data => data = tables) (ingest runtime source records)
      (OnCommit (Traced runtime (delivered ++ recordsOf source records))) := by
  rw [ingest_eq]
  apply Holds.reading_then
  intro receivedAt
  apply Holds.reading_then
  intro now
  have kept : Holds (Traced runtime (delivered ++ recordsOf source []))
      (ingesting runtime source records receivedAt now)
      fun ending tables => ∀ progress, ending = .committed progress →
        Traced runtime (delivered ++ recordsOf source records) tables := by
    apply @holds_ingesting_taken runtime source
      fun done _ => Traced runtime (delivered ++ recordsOf source done)
    · exact fun _ _ => traced_ignores
    · intro done record rest whole progress tables next after traced taken
      rw [recordsOf_append, ← List.append_assoc]
      exact traced.taken taken
  apply kept.weaken
  · rintro data rfl
    rw [show recordsOf source [] = [] from rfl, List.append_nil]
    exact traced
  · intro ending tables final
    cases ending with
    | committed progress => exact final progress rfl
    | dropped _ => trivial

/-- Every write keeps each event with its record. -/
theorem traced_step {charged : Prop} {action : Command × World} (valid : Valid charged tables)
    (traced : Traced runtime delivered tables) (taken : step runtime tables action = some next) :
    Traced runtime (delivered ++ deliveredBy action.1) next := by
  obtain ⟨command, world⟩ := action
  have performed := step_iff.mp taken
  have silent (traced : Traced runtime delivered next) : Traced runtime (delivered ++ []) next := by
    rw [List.append_nil]
    exact traced
  have spared (spares : Spares tables next) : Traced runtime (delivered ++ []) next :=
    silent (traced.spares spares)
  have announced {subjects : List Changes.Table.Subject} {middle : Tables}
      (announced : Announced tables subjects middle next) (events : middle.events = tables.events)
      (accounts : middle.accounts = tables.accounts) : Traced runtime (delivered ++ []) next :=
    spared (beside_spares.recorded ((Spares.refl tables).beside events accounts) announced)
  cases command with
  | rename id displayName =>
    obtain ⟨_, spares⟩ := performed_holds (Sparing.holds_rename id displayName) rfl performed
    exact spared spares
  | merge id into requires =>
    obtain ⟨_, moves⟩ := performed_holds (Sparing.holds_merge valid id into requires) rfl performed
    exact silent (traced.moves moves)
  | dismissContinuation previous replacement =>
    obtain ⟨_, rfl | ⟨middle, inserted, dismissed⟩⟩ :=
      performed_holds (holds_dismissContinuation previous replacement) rfl performed
    · exact spared (Spares.refl _)
    · unfold AccountWrites.insertDismissal at inserted
      split at inserted
      next => cases inserted
      next =>
        cases inserted
        exact announced dismissed rfl rfl
  | ingest sourceId records =>
    obtain ⟨_, final⟩ := performed_holds (traced_ingest traced records) rfl performed
    exact final
  | store sourceId listing =>
    obtain ⟨_, spares⟩ := performed_holds (registering_spares.holds_store (.refl tables) listing) rfl performed
    exact spared spares
  | recordRefresh accountId result refreshedAt =>
    obtain ⟨_, spares⟩ :=
      performed_holds (beside_spares.holds_recordRefresh (.refl tables) result refreshedAt) rfl performed
    exact spared spares
  | clear accountId =>
    obtain ⟨_, spares⟩ := performed_holds (beside_spares.holds_clear (.refl tables)) rfl performed
    exact spared spares
  | expire now =>
    obtain ⟨_, expired⟩ := performed_holds (holds_expire valid now) rfl performed
    have without : Spares tables (without (expiredIds now tables) tables) :=
      (Spares.refl tables).beside rfl rfl
    exact spared (beside_spares.recorded without expired)
  | sync configs =>
    obtain ⟨_, _, sources, _, synced⟩ := performed_holds (holds_sync valid configs) rfl performed
    have followed : Spares tables { tables with sources := sources } :=
      (Spares.refl tables).beside rfl rfl
    exact spared (beside_spares.recorded followed synced)
  | createPlan plan =>
    obtain ⟨id, created⟩ := exists_created performed
    exact announced created.announced rfl rfl
  | updatePlan id change =>
    obtain ⟨_, current, edited⟩ := performed_holds (holds_update id change) rfl performed
    exact announced edited.announced rfl rfl
  | deletePlan id =>
    obtain ⟨_, deleted⟩ := performed_holds (holds_delete id) rfl performed
    exact announced deleted.announced rfl rfl
  | fill pricedAs =>
    obtain ⟨_, priced⟩ := performed_holds (holds_fill pricedAs) rfl performed
    exact silent (traced.priced priced)
  | reprice pricedAs start finish =>
    obtain ⟨_, priced⟩ := performed_holds (holds_reprice pricedAs start finish) rfl performed
    exact silent (traced.priced priced)

end MeteredUsage.Store.Provenance
