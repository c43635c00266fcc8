import MeteredUsage.Store.Response

/-! How a batch of normalized records from any gateway becomes stored events: one transaction,
so a batch lands whole or not at all. -/

namespace MeteredUsage.Store.Ingest
open MeteredUsage.Values MeteredUsage.Store.Schema MeteredUsage.Store.Accounts
open MeteredUsage.Store.Events MeteredUsage.Store.Snapshots MeteredUsage.Library.Transaction

/-- How old a request may be and still record a `request.arrived`. -/
def arrivalWindow : Int := minutes 1440

/-- What a batch did. -/
structure IngestReport where
  accepted : Nat
  duplicates : Nat
  rejected : Nat
deriving DecidableEq, Repr

/-- What the loop over a batch carries. -/
structure Progress where
  report : IngestReport
  stored : List EventId
  /-- The account and outcome of each request that records an arrival. -/
  arrivals : List (AccountId × Bool)
  isNewCredential : Bool
deriving DecidableEq, Repr

def Progress.start : Progress := ⟨⟨0, 0, 0⟩, [], [], false⟩

def Progress.reject (progress : Progress) : Progress :=
  { progress with report := { progress.report with rejected := progress.report.rejected + 1 } }

def Progress.duplicate (progress : Progress) : Progress :=
  { progress with report := { progress.report with duplicates := progress.report.duplicates + 1 } }

/-- `DeadLetter::insert`. -/
def insertDeadLetter (row : DeadLetter) (tables : Tables) : Option (Unit × Tables) :=
  if tables.deadLetters.any (·.id = row.id) then none
  else if tables.sources.any (·.id = row.sourceId) then
    some ((), { tables with deadLetters := tables.deadLetters ++ [row] })
  else none

/-- The row of a source's record hash. -/
def holdsHash (sourceId : SourceId) (recordHash : String) (event : UsageEvent) : Bool :=
  event.sourceId = sourceId && event.recordHash = recordHash

/-- `INSERT INTO usage_event … ON CONFLICT (source_id, record_hash) DO NOTHING`, answering
whether the event was new rather than a duplicate. -/
def insertEvent (row : UsageEvent) (tables : Tables) : Option (Bool × Tables) :=
  if tables.events.any (holdsHash row.sourceId row.recordHash) then some (false, tables)
  else if tables.events.any (·.id = row.id) then none
  else if tables.sources.any (·.id = row.sourceId) ∧ tables.accounts.any (·.id = row.accountId) then
    some (true, { tables with events := tables.events ++ [row] })
  else none

/-- The progress after a new event. -/
def Progress.accept (progress : Progress) (id : EventId) (arrival : Option (AccountId × Bool)) :
    Progress :=
  { progress with
    report := { progress.report with accepted := progress.report.accepted + 1 }
    stored := progress.stored ++ [id]
    arrivals := progress.arrivals ++ arrival.toList }

def ingestEvent (runtime : Sql.Runtime) (sourceId : SourceId) (receivedAt : Timestamp)
    (progress : Progress) (event : NewUsageEvent) : Write Progress := do
  let candidate ← nextId
  let accountId ← resolve candidate sourceId event.provider event.account event.occurredAt
  let progress := { progress with isNewCredential := progress.isNewCredential ||
    (accountId = candidate && event.account.upstreamKey ≠ "") }
  let id ← nextId
  let isNew ← attempt (insertEvent (event.row runtime id sourceId accountId))
  if isNew then
    Response.observe runtime accountId event receivedAt
    return progress.accept id (if receivedAt - arrivalWindow ≤ event.occurredAt then
      some (accountId, event.failed) else none)
  else return progress.duplicate

def ingestNext (runtime : Sql.Runtime) (sourceId : SourceId) (receivedAt : Timestamp)
    (progress : Progress) : Incoming → Write Progress
  | .rejected error payload => do
    let id ← nextId
    attempt (insertDeadLetter ⟨id, sourceId, receivedAt, error, payload⟩)
    return progress.reject
  | .record event => ingestEvent runtime sourceId receivedAt progress event

def namesMeta : Incoming → Bool
  | .record event => event.provider = "meta"
  | .rejected _ _ => false

/-- What the batch may change of the source's accounts: only records of Meta's leave evidence
of exhausted quota. -/
def snapshotBefore (runtime : Sql.Runtime) (sourceId : SourceId) (records : List Incoming) :
    Write Snapshot :=
  if records.any namesMeta then quota runtime (.source sourceId)
  else accounts runtime (.source sourceId)

/-- Stores a batch in one transaction. A record the source already delivered is a duplicate,
and a rejected one is kept as a dead letter. Reading the credential list for a new credential
and publishing follow the commit. -/
def ingest (runtime : Sql.Runtime) (sourceId : SourceId) (records : List Incoming) :
    Write (Ending Progress) := do
  let receivedAt ← reading
  let snapshot ← snapshotBefore runtime sourceId records
  let progress ← records.foldlM (ingestNext runtime sourceId receivedAt) .start
  -- After the account changes, so a new account's change comes before the first arrival that
  -- names it.
  recordChanges runtime snapshot
  forM progress.arrivals fun arrival => record (.arrival arrival.1 arrival.2)
  onlyIf (0 < progress.report.accepted) (record .usage)
  commit (.database .query) progress

end MeteredUsage.Store.Ingest
