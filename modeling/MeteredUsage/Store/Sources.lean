import MeteredUsage.Store.Snapshots

/-! A gateway whose accounting records the service stores. Sources come from the config file
alone. -/

namespace MeteredUsage.Store.Sources
open MeteredUsage.Values MeteredUsage.Store.Schema MeteredUsage.Store.Snapshots
open MeteredUsage.Library.Transaction

/-- A source as the config declares it. -/
structure SourceConfig where
  key : String
  name : String
  kind : SourceKind
  baseUrl : String
deriving DecidableEq, Repr

def configured (config : SourceConfig) (source : Source) : Source :=
  { source with
    name := config.name
    kind := config.kind
    baseUrl := config.baseUrl
    enabled := true }

/-- `INSERT INTO source … ON CONFLICT (key) DO UPDATE SET …`. -/
def upsertSource (id : SourceId) (createdAt : Timestamp) (config : SourceConfig)
    (tables : Tables) : Option (Unit × Tables) :=
  if tables.sources.any (·.id = id) then none
  else if tables.sources.any (·.key = config.key) then
    some ((), { tables with
      sources := tables.sources.map fun source =>
        if source.key = config.key then configured config source else source })
  else some ((), { tables with
    sources := tables.sources ++
      [⟨id, config.key, config.name, config.kind, config.baseUrl, true, createdAt⟩] })

def disableOthers (configs : List SourceConfig) (tables : Tables) : Tables :=
  { tables with
    sources := tables.sources.map fun source =>
      if source.enabled ∧ source.key ∉ configs.map SourceConfig.key then
        { source with enabled := false }
      else source }

/-- Makes the stored sources match the config: every configured one exists and is enabled
with the config's name, kind and URL, and every other one is disabled. -/
def sync (runtime : Sql.Runtime) (configs : List SourceConfig) : Write (Ending Unit) := do
  -- An account shows its source's name, so renaming a source changes its accounts.
  let snapshot ← accounts runtime .all
  let createdAt ← reading
  forM configs fun config => do
    let id ← nextId
    attempt (upsertSource id createdAt config)
  execute (disableOthers configs)
  recordChanges runtime snapshot
  commit (.database .query) ()

end MeteredUsage.Store.Sources
