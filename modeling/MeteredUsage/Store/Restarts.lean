import Mathlib.Data.List.DropRight
import MeteredUsage.Library.Outcome
import MeteredUsage.Store.Merged

/-! What a restart does to the sources. The config file alone says which gateways are collected from; a
key it names keeps its row through every restart and rename, and while a process runs, the enabled rows
are those of its file, each read by one collector at most. -/

namespace MeteredUsage.Store.Restarts
open MeteredUsage.Values MeteredUsage.Store.Schema MeteredUsage.Store.Validity
open MeteredUsage.Store.Statements MeteredUsage.Store.Landing MeteredUsage.Store.Upkeep
open MeteredUsage.Store.Links MeteredUsage.Store.Commands
open MeteredUsage.Library.Keyed MeteredUsage.Library.Transaction MeteredUsage.Library.Execution
open MeteredUsage.Library.Outcome

/-- The price map LiteLLM itself defaults to. -/
def publicPriceMapUrl : String :=
  "https://raw.githubusercontent.com/BerriAI/litellm/main/model_prices_and_context_window.json"

def defaultPriceRefreshHours : Nat := 24

/-- A source as the file writes it. -/
structure SourceFile where
  key : String
  name : Option String
  kind : SourceKind
  baseUrl : String
  /-- The variable that holds the source's key. -/
  keyEnv : String

structure PricingFile where
  litellmSource : Option String
  publicMapUrl : Option String
  refreshHours : Option Nat
  pricedAs : Cost.PricedAs

structure ConfigFile where
  source : List SourceFile
  pricing : Option PricingFile

/-- A source with its key, which is read from the environment once. -/
structure SourceConfig extends Sources.SourceConfig where
  secret : String

structure PricingConfig where
  /-- A LiteLLM source whose live price map outranks the public one. -/
  litellmSource : Option String
  publicMapUrl : String
  refreshHours : Nat
  pricedAs : Cost.PricedAs

structure Config where
  sources : List SourceConfig
  pricing : PricingConfig

/-- `Config::default`. -/
def Config.initial : Config := ⟨[], none, publicPriceMapUrl, defaultPriceRefreshHours, []⟩

inductive ConfigError where
  | missingSecret (key keyEnv : String)
  | emptySecret (key keyEnv : String)
  | duplicateKey (key : String)
  | unknownPriceSource (key : String)

/-- `trim_end_matches('/')`. -/
def withoutSlashes (url : String) : String := String.ofList (url.toList.rdropWhile (· = '/'))

variable (environment : String → Option String)

/-- One source of the file, after those before it. -/
def readSource (sources : List SourceConfig) (source : SourceFile) : Except ConfigError (List SourceConfig) :=
  if sources.any (·.key = source.key) then .error (.duplicateKey source.key)
  else match environment source.keyEnv with
    | none => .error (.missingSecret source.key source.keyEnv)
    | some secret =>
      if Sql.strTrim secret = "" then .error (.emptySecret source.key source.keyEnv)
      else .ok (sources ++
        [⟨⟨source.key, source.name.getD source.key, source.kind, withoutSlashes source.baseUrl⟩, secret⟩])

/-- Whether prices may come from a source. -/
def isPriceSource (sources : List SourceConfig) (key : String) : Bool :=
  sources.any fun source => source.key = key && source.kind = .liteLlm

/-- `Config::parse` of a file that is TOML. -/
def parse (file : ConfigFile) : Except ConfigError Config := do
  let sources ← file.source.foldlM (readSource environment) []
  let pricing := file.pricing.getD ⟨none, none, none, []⟩
  let config : Config := ⟨sources, pricing.litellmSource, pricing.publicMapUrl.getD publicPriceMapUrl,
    pricing.refreshHours.getD defaultPriceRefreshHours, pricing.pricedAs⟩
  match pricing.litellmSource with
  | some key => if isPriceSource sources key then .ok config else .error (.unknownPriceSource key)
  | none => .ok config

/-- The config of a process, which may be given no file. -/
def load (file : Option ConfigFile) : Except ConfigError Config :=
  file.elim (.ok .initial) (parse environment)

/-- A collector that runs, for a source of the file by its place. -/
structure Collector where
  index : Nat
  sourceId : SourceId
  config : SourceConfig

structure Service where
  tables : Tables
  /-- What the running process loaded, if one runs. -/
  config : Option Config
  /-- The places whose collector is spawned and has not looked its source up yet. -/
  spawned : List Nat
  collectors : List Collector

inductive Event where
  /-- The process ends, if one ran, and the next one starts. -/
  | boot (environment : String → Option String) (file : Option ConfigFile) (world : World)
  /-- A spawned collector looks its source up, which may fail. -/
  | look (index : Nat) (fails : Bool)
  /-- A write of the running process. -/
  | write (command : Command) (world : World)

/-- `Source::by_key`. -/
def byKey (tables : Tables) (key : String) : Option Source := tables.sources.find? (·.key = key)

/-- `start`: what a collector runs for, if it does. -/
def begin (tables : Tables) (config : Config) (index : Nat) : Option Collector := do
  let source ← config.sources[index]?
  let row ← (byKey tables source.key).filter (·.enabled)
  some ⟨index, row.id, source⟩

/-- The sources alone, as `Source::sync` is told them. -/
def Config.declared (config : Config) : List Sources.SourceConfig := config.sources.map (·.toSourceConfig)

def isSync : Command → Bool
  | .sync _ => true
  | _ => false

variable (runtime : Sql.Runtime)

/-- `main`: the file is loaded, then the sources follow it, then the collectors are spawned. A process
that fails on the way is none. -/
def boot (service : Service) (environment : String → Option String) (file : Option ConfigFile)
    (world : World) : Service :=
  match load environment file with
  | .error _ => ⟨service.tables, none, [], []⟩
  | .ok config =>
    match performed (Sources.sync runtime config.declared) (world.session service.tables) with
    | (true, tables) => ⟨tables, some config, List.range config.sources.length, []⟩
    | (false, tables) => ⟨tables, none, [], []⟩

def step (service : Service) : Event → Option Service
  | .boot environment file world => some (boot runtime service environment file world)
  | .look index fails => do
    let config ← service.config
    if index ∈ service.spawned then
      some { service with
        spawned := service.spawned.erase index
        collectors := service.collectors ++
          (if fails then none else begin service.tables config index).toList }
    else none
  | .write command world =>
    if service.config.isSome ∧ isSync command = false then
      (Commands.step runtime service.tables (command, world)).map ({ service with tables := · })
    else none

/-- Before the first process. -/
def Service.new : Service := ⟨Tables.empty, none, [], []⟩

/-- What the sources of a file keep: keys of their own, and a secret each. -/
structure Kept (sources : List SourceConfig) : Prop where
  keys : Distinct (fun source : SourceConfig => source.key) sources
  secrets : ∀ source ∈ sources, Sql.strTrim source.secret ≠ ""

/-- What every loaded config keeps. -/
structure WellFormed (config : Config) : Prop extends Kept config.sources where
  prices : ∀ key, config.pricing.litellmSource = some key → isPriceSource config.sources key = true

section Loading
variable {environment}

theorem kept_nil : Kept [] := ⟨List.Pairwise.nil, nofun⟩

theorem kept_readSource {sources after : List SourceConfig} {source : SourceFile}
    (read : readSource environment sources source = .ok after) (kept : Kept sources) : Kept after := by
  unfold readSource at read
  split at read
  next => cases read
  next fresh =>
    split at read
    next => cases read
    next secret _ =>
      split at read
      next => cases read
      next filled =>
        cases read
        refine ⟨kept.keys.append_singleton (by simpa using fresh), ?_⟩
        intro other member
        rcases List.mem_append.mp member with earlier | last
        · exact kept.secrets other earlier
        · rw [List.mem_singleton.mp last]
          exact filled

def Keeps (before after : List SourceConfig) : Prop := Kept before → Kept after

theorem kept_sources {files : List SourceFile} {sources : List SourceConfig}
    (read : files.foldlM (readSource environment) [] = .ok sources) : Kept sources := by
  have refl : ∀ sources, Keeps sources sources := fun _ => id
  have trans : ∀ first second third, Keeps first second → Keeps second third → Keeps first third :=
    fun _ _ _ early late => late ∘ early
  have stepped : ∀ before source after, readSource environment before source = .ok after →
      Keeps before after := fun _ _ _ => kept_readSource
  exact foldlM_keeps refl trans stepped read kept_nil

theorem wellFormed_parse {file : ConfigFile} {config : Config} (parsed : parse environment file = .ok config) :
    WellFormed config := by
  obtain ⟨sources, read, rest⟩ := bind_ok.mp parsed
  have kept := kept_sources read
  dsimp only at rest
  split at rest
  next key named =>
    split at rest
    next priced =>
      cases rest
      refine ⟨kept, ?_⟩
      intro other same
      cases named.symm.trans same
      exact priced
    next => cases rest
  next unnamed =>
    cases rest
    refine ⟨kept, ?_⟩
    intro other same
    cases unnamed.symm.trans same

theorem wellFormed_load {file : Option ConfigFile} {config : Config} (loaded : load environment file = .ok config) :
    WellFormed config := by
  cases file with
  | none =>
    cases loaded
    exact ⟨kept_nil, nofun⟩
  | some file => exact wellFormed_parse loaded

end Loading

section Following
variable {runtime : Sql.Runtime} {base tables next : Tables} {config : Config}

/-- A row is still there under its id and its key. -/
def Stays (base sources : List Source) : Prop :=
  ∀ row ∈ base, ∃ later ∈ sources, later.id = row.id ∧ later.key = row.key ∧ later.createdAt = row.createdAt

theorem Stays.refl (sources : List Source) : Stays sources sources := fun row member =>
  ⟨row, member, rfl, rfl, rfl⟩

theorem Stays.trans {first second third : List Source} (early : Stays first second)
    (late : Stays second third) : Stays first third := by
  intro row member
  obtain ⟨middle, held, ids, keys, made⟩ := early row member
  obtain ⟨last, kept, ids', keys', made'⟩ := late middle held
  exact ⟨last, kept, ids'.trans ids, keys'.trans keys, made'.trans made⟩

/-- A change that keeps a row's id, key and birth. -/
theorem Stays.map {sources : List Source} (stays : Stays base.sources sources) {change : Source → Source}
    (same : ∀ source, (change source).id = source.id ∧ (change source).key = source.key ∧
      (change source).createdAt = source.createdAt) : Stays base.sources (sources.map change) := by
  intro row member
  obtain ⟨later, held, ids, keys, made⟩ := stays row member
  obtain ⟨ids', keys', made'⟩ := same later
  exact ⟨change later, List.mem_map_of_mem held, ids'.trans ids, keys'.trans keys, made'.trans made⟩

/-- A source has a row that reads as it. -/
def Tells (sources : List Source) (source : Sources.SourceConfig) : Prop :=
  ∃ row ∈ sources, row.key = source.key ∧ Sources.configured source row = row

/-- The sources while the file is followed, as far as it is. -/
structure Following (base : Tables) (done : List Sources.SourceConfig) (tables : Tables) : Prop where
  stays : Stays base.sources tables.sources
  keys : Distinct Source.key tables.sources
  told : ∀ source ∈ done, Tells tables.sources source

/-- One more source of the file. -/
theorem Following.upsert {done : List Sources.SourceConfig} (following : Following base done tables)
    {id : SourceId} {createdAt : Timestamp} {source : Sources.SourceConfig}
    (fresh : ∀ other ∈ done, other.key ≠ source.key) {value : Unit}
    (taken : Sources.upsertSource id createdAt source tables = some (value, next)) :
    Following base (done ++ [source]) next := by
  unfold Sources.upsertSource at taken
  split at taken
  next => cases taken
  next =>
    split at taken
    next known =>
      cases taken
      obtain ⟨row, stored, named⟩ := List.any_eq_true.mp known
      have same : ∀ row : Source,
          (if row.key = source.key then Sources.configured source row else row).id = row.id ∧
          (if row.key = source.key then Sources.configured source row else row).key = row.key ∧
          (if row.key = source.key then Sources.configured source row else row).createdAt = row.createdAt := by
        intro row
        split
        next => exact ⟨rfl, rfl, rfl⟩
        next => exact ⟨rfl, rfl, rfl⟩
      refine ⟨following.stays.map same, following.keys.map fun row => (same row).2.1, ?_⟩
      intro other member
      rcases List.mem_append.mp member with earlier | last
      · obtain ⟨held, inside, keyed, told⟩ := following.told other earlier
        refine ⟨held, ?_, keyed, told⟩
        have apart : held.key ≠ source.key := fun equal => fresh other earlier (keyed.symm.trans equal)
        exact List.mem_map.mpr ⟨held, inside, if_neg apart⟩
      · rw [List.mem_singleton.mp last]
        have equal : row.key = source.key := of_decide_eq_true named
        exact ⟨_, List.mem_map.mpr ⟨row, stored, if_pos equal⟩, equal, rfl⟩
    next unknown =>
      cases taken
      refine ⟨?_, ?_, ?_⟩
      · intro row member
        obtain ⟨later, held, same⟩ := following.stays row member
        exact ⟨later, List.mem_append_left _ held, same⟩
      · exact following.keys.append_singleton (by simpa using unknown)
      · intro other member
        rcases List.mem_append.mp member with earlier | last
        · obtain ⟨held, inside, told⟩ := following.told other earlier
          exact ⟨held, List.mem_append_left _ inside, told⟩
        · rw [List.mem_singleton.mp last]
          exact ⟨_, List.mem_append_right _ (List.mem_singleton_self _), rfl, rfl⟩

/-- The enabled rows are those of the declared sources, and read as they do. -/
structure Follows (declared : List Sources.SourceConfig) (sources : List Source) : Prop where
  told : ∀ source ∈ declared, Tells sources source
  enabled : ∀ row ∈ sources, row.enabled = true ↔ ∃ source ∈ declared, source.key = row.key

/-- What following the file leaves. -/
structure Followed (base : Tables) (declared : List Sources.SourceConfig) (tables : Tables) : Prop where
  stays : Stays base.sources tables.sources
  keys : Distinct Source.key tables.sources
  follows : Follows declared tables.sources

theorem followed_ignores {declared : List Sources.SourceConfig} : IgnoresFeed (Followed base declared) :=
  fun _ _ followed => ⟨followed.stays, followed.keys, followed.follows⟩

theorem Following.disable {declared : List Sources.SourceConfig} (following : Following base declared tables) :
    Followed base declared (Sources.disableOthers declared tables) := by
  let off (source : Source) : Source :=
    if source.enabled ∧ source.key ∉ declared.map Sources.SourceConfig.key then { source with enabled := false }
    else source
  have same : ∀ row : Source, (off row).id = row.id ∧ (off row).key = row.key ∧
      (off row).createdAt = row.createdAt := by
    intro row
    unfold off
    split
    next => exact ⟨rfl, rfl, rfl⟩
    next => exact ⟨rfl, rfl, rfl⟩
  have kept {row : Source} (named : row.key ∈ declared.map Sources.SourceConfig.key) : off row = row :=
    if_neg fun dropped => dropped.2 named
  have told : ∀ source ∈ declared, ∃ row ∈ tables.sources, row.key = source.key ∧
      Sources.configured source row = row ∧ off row = row := by
    intro source member
    obtain ⟨row, held, keyed, told⟩ := following.told source member
    exact ⟨row, held, keyed, told, kept (List.mem_map.mpr ⟨source, member, keyed.symm⟩)⟩
  refine ⟨following.stays.map same, following.keys.map fun row => (same row).2.1, ?_, ?_⟩
  · intro source member
    obtain ⟨row, held, keyed, told, unmoved⟩ := told source member
    exact ⟨row, List.mem_map.mpr ⟨row, held, unmoved⟩, keyed, told⟩
  · intro row member
    obtain ⟨old, held, rfl⟩ := List.mem_map.mp member
    change (off old).enabled = true ↔ ∃ source ∈ declared, source.key = (off old).key
    rw [(same old).2.1]
    constructor
    · intro enabled
      by_contra unnamed
      have dropped : old.key ∉ declared.map Sources.SourceConfig.key := by
        intro named
        obtain ⟨source, declared, keyed⟩ := List.mem_map.mp named
        exact unnamed ⟨source, declared, keyed⟩
      unfold off at enabled
      split at enabled
      next => cases enabled
      next kept => exact kept ⟨enabled, dropped⟩
    · rintro ⟨source, declared, keyed⟩
      obtain ⟨row, stored, named, told, unmoved⟩ := told source declared
      -- The row of the key is the configured one.
      obtain rfl := following.keys.eq_of_key held stored (keyed.symm.trans named.symm)
      rw [unmoved, ← told]
      rfl

theorem distinct_declared (kept : Kept config.sources) : Distinct Sources.SourceConfig.key config.declared :=
  List.pairwise_map.mpr kept.keys

theorem holds_sync (declared : List Sources.SourceConfig) (distinct : Distinct Sources.SourceConfig.key declared)
    (keys : Distinct Source.key base.sources) :
    Holds (fun tables => tables = base) (Sources.sync runtime declared) (OnCommit (Followed base declared)) := by
  apply read_then
  intro now
  apply Holds.reading_then
  intro createdAt
  have upserted : ∀ done rest, done ++ rest = declared → Holds (Following base done)
      (forM rest fun config => do
        let id ← nextId
        attempt (Sources.upsertSource id createdAt config)) fun _ => Following base declared := by
    intro done rest
    induction rest generalizing done with
    | nil =>
      rintro rfl
      exact Holds.pure fun _ following => (List.append_nil done).symm ▸ following
    | cons source rest ih =>
      intro whole
      rw [List.forM_cons]
      have one : Holds (Following base done) (do
          let id ← nextId
          attempt (Sources.upsertSource id createdAt source)) fun _ => Following base (done ++ [source]) := by
        apply Holds.nextId_then
        intro id
        apply holds_attempt
        intro tables value next following taken
        refine following.upsert ?_ taken
        intro other member
        rw [← whole] at distinct
        exact (List.pairwise_append.mp distinct).2.2 other member source List.mem_cons_self
      have later : done ++ [source] ++ rest = declared := by rw [List.append_assoc, List.singleton_append, whole]
      exact one.bind fun _ => ih (done ++ [source]) later
  have started : ∀ tables, tables = base → Following base [] tables := by
    rintro _ rfl
    exact ⟨Stays.refl _, keys, nofun⟩
  apply ((upserted [] declared rfl).weaken started fun _ _ following => following).bind
  intro _
  have disabled : Holds (Following base declared) (execute (Sources.disableOthers declared))
      fun _ => Followed base declared := holds_execute fun _ following => following.disable
  apply disabled.bind
  intro _
  apply (holds_recordChanges followed_ignores _).bind
  exact fun _ => holds_commit _

/-- A write other than a sync leaves the sources as they are. -/
theorem sources_step {command : Command} {world : World} (valid : Valid False base)
    (other : isSync command = false) (taken : Commands.step runtime base (command, world) = some next) :
    next.sources = base.sources := by
  have landed {parts : Snapshots.Parts} {source : SourceId}
      (landed : Landed runtime False parts source base next) : next.sources = base.sources := by
    obtain ⟨_, middle, _, frame, _, entries, rfl, _⟩ := landed
    exact frame.sources
  have idle (idle : Idle base next) : next.sources = base.sources := by
    obtain ⟨recoveries, entries, rfl, _⟩ := idle
    rfl
  have performed := step_iff.mp taken
  cases command with
  | rename id displayName =>
    obtain ⟨_, source, found⟩ := performed_holds (holds_rename valid id displayName) rfl performed
    exact landed found
  | merge id into requires =>
    obtain ⟨_, source, found, _⟩ := performed_holds (holds_merge valid id into requires) rfl performed
    exact landed found
  | dismissContinuation previous replacement =>
    obtain ⟨_, rfl | dismissed⟩ :=
      performed_holds (holds_dismissContinuation previous replacement) rfl performed
    · rfl
    · obtain ⟨middle, inserted, entries, rfl, _⟩ := dismissed
      unfold AccountWrites.insertDismissal at inserted
      split at inserted
      next => cases inserted
      next =>
        cases inserted
        rfl
  | ingest sourceId records =>
    obtain ⟨_, found⟩ := performed_holds (holds_ingest valid records) rfl performed
    exact landed found
  | store sourceId listing =>
    obtain ⟨_, found⟩ := performed_holds (holds_store valid listing) rfl performed
    exact landed found
  | recordRefresh accountId result refreshedAt =>
    rcases Merged.inside_or_absent base accountId with ⟨source, inside⟩ | absent
    · obtain ⟨_, found⟩ := performed_holds (holds_recordRefresh valid inside result refreshedAt) rfl performed
      exact landed found
    · obtain ⟨_, found⟩ :=
        performed_holds (holds_recordRefresh_absent valid absent result refreshedAt) rfl performed
      exact idle found
  | clear accountId =>
    rcases Merged.inside_or_absent base accountId with ⟨source, inside⟩ | absent
    · obtain ⟨_, found⟩ := performed_holds (holds_clear valid inside) rfl performed
      exact landed found
    · obtain ⟨_, found⟩ := performed_holds (holds_clear_absent valid absent) rfl performed
      exact idle found
  | expire now =>
    obtain ⟨_, entries, rfl, _⟩ := performed_holds (holds_expire valid now) rfl performed
    rfl
  | sync configs => cases other
  | createPlan plan =>
    obtain ⟨id, created⟩ := exists_created performed
    obtain ⟨entries, rfl, _⟩ := created.announced
    rfl
  | updatePlan id change =>
    obtain ⟨_, current, edited⟩ := performed_holds (holds_update id change) rfl performed
    obtain ⟨entries, rfl, _⟩ := edited.announced
    rfl
  | deletePlan id =>
    obtain ⟨_, deleted⟩ := performed_holds (holds_delete id) rfl performed
    obtain ⟨entries, rfl, _⟩ := deleted.announced
    rfl
  | fill pricedAs =>
    obtain ⟨_, events, subjects, _, _, entries, rfl, _⟩ := performed_holds (holds_fill pricedAs) rfl performed
    rfl
  | reprice pricedAs start finish =>
    obtain ⟨_, events, subjects, _, _, entries, rfl, _⟩ :=
      performed_holds (holds_reprice pricedAs start finish) rfl performed
    rfl

end Following

section Runs
variable {runtime : Sql.Runtime} {service next : Service} {config : Config}

/-- The collectors of a process: one at most for each place of its file, and each for its source's row. -/
structure Collects (config : Config) (service : Service) : Prop where
  places : (service.collectors.map Collector.index ++ service.spawned).Nodup
  rows : ∀ collector ∈ service.collectors, config.sources[collector.index]? = some collector.config ∧
    ∃ row ∈ service.tables.sources, row.id = collector.sourceId ∧ row.key = collector.config.key

/-- What a run keeps. -/
structure Invariant (service : Service) : Prop where
  valid : Valid False service.tables
  keys : Distinct Source.key service.tables.sources
  idle : service.config = none → service.collectors = []
  loaded : ∀ config, service.config = some config → WellFormed config ∧
    Follows config.declared service.tables.sources ∧ Collects config service

theorem invariant_new : Invariant .new where
  valid := valid_empty False
  keys := List.Pairwise.nil
  idle := fun _ => rfl
  loaded := nofun

/-- A process that did not come to run leaves the rows that the last one stored. -/
theorem invariant_down (invariant : Invariant service) : Invariant ⟨service.tables, none, [], []⟩ where
  valid := invariant.valid
  keys := invariant.keys
  idle := fun _ => rfl
  loaded := nofun

theorem invariant_boot (invariant : Invariant service) (environment : String → Option String)
    (file : Option ConfigFile) (world : World) :
    Invariant (boot runtime service environment file world) ∧
      Stays service.tables.sources (boot runtime service environment file world).tables.sources := by
  unfold boot
  split
  next => exact ⟨invariant_down invariant, Stays.refl _⟩
  next config loaded =>
    have formed := wellFormed_load loaded
    split
    next tables performed =>
      obtain ⟨_, followed⟩ := performed_holds
        (holds_sync config.declared (distinct_declared formed.toKept) invariant.keys) rfl performed
      obtain ⟨_, synced⟩ := performed_holds (Upkeep.holds_sync invariant.valid config.declared) rfl performed
      refine ⟨⟨valid_synced invariant.valid synced, followed.keys, nofun, ?_⟩, followed.stays⟩
      rintro _ ⟨⟩
      exact ⟨formed, followed.follows, List.nodup_range, nofun⟩
    next tables failed =>
      have unchanged : tables = service.tables := by
        have same := performed_unchanged (congrArg Prod.fst failed)
        rwa [failed] at same
      subst unchanged
      exact ⟨invariant_down invariant, Stays.refl _⟩

theorem begin_eq {tables : Tables} {index : Nat} {collector : Collector}
    (begun : begin tables config index = some collector) :
    collector.index = index ∧ config.sources[index]? = some collector.config ∧
      ∃ row ∈ tables.sources, row.id = collector.sourceId ∧ row.key = collector.config.key := by
  obtain ⟨source, placed, rest⟩ := Option.bind_eq_some_iff.mp begun
  obtain ⟨row, enabled, last⟩ := Option.bind_eq_some_iff.mp rest
  obtain ⟨found, -⟩ := Option.filter_eq_some_iff.mp enabled
  cases last
  unfold byKey at found
  have keyed : row.key = source.key := by simpa using List.find?_some found
  exact ⟨rfl, placed, row, List.mem_of_find?_eq_some found, rfl, keyed⟩

/-- A spawned collector that looked its source up, or failed to. -/
theorem Collects.look (collects : Collects config service) {index : Nat} (spawned : index ∈ service.spawned)
    {begun : Option Collector} (taken : ∀ collector, begun = some collector →
      begin service.tables config index = some collector) :
    Collects config { service with
      spawned := service.spawned.erase index, collectors := service.collectors ++ begun.toList } := by
  have moved : (service.collectors.map Collector.index ++ index :: service.spawned.erase index).Nodup :=
    ((List.perm_cons_erase spawned).append_left _).nodup_iff.mp collects.places
  cases begun with
  | none =>
    refine ⟨?_, ?_⟩
    · rw [Option.toList_none, List.append_nil]
      exact moved.sublist ((List.sublist_cons_self _ _).append_left _)
    · rw [Option.toList_none, List.append_nil]
      exact collects.rows
  | some collector =>
    obtain ⟨placed, read, row⟩ := begin_eq (taken collector rfl)
    refine ⟨?_, ?_⟩
    · rw [Option.toList_some, List.map_append, List.map_singleton, placed, List.append_assoc, List.singleton_append]
      exact moved
    · intro other member
      rcases List.mem_append.mp member with earlier | last
      · exact collects.rows other earlier
      · obtain rfl := List.mem_singleton.mp last
        rw [placed]
        exact ⟨read, row⟩

theorem invariant_step {event : Event} (invariant : Invariant service)
    (taken : step runtime service event = some next) :
    Invariant next ∧ Stays service.tables.sources next.tables.sources := by
  cases event with
  | boot environment file world =>
    cases taken
    exact invariant_boot invariant environment file world
  | look index fails =>
    obtain ⟨config, running, rest⟩ := Option.bind_eq_some_iff.mp taken
    split at rest
    next spawned =>
      cases rest
      refine ⟨⟨invariant.valid, invariant.keys, ?_, ?_⟩, Stays.refl _⟩
      · intro down
        cases running.symm.trans down
      · intro other same
        cases running.symm.trans same
        obtain ⟨formed, follows, collects⟩ := invariant.loaded config running
        refine ⟨formed, follows, collects.look spawned ?_⟩
        intro collector begun
        split at begun
        next => cases begun
        next => exact begun
    next => cases rest
  | write command world =>
    change (if service.config.isSome ∧ isSync command = false then _ else none) = some next at taken
    split at taken
    next running =>
      obtain ⟨tables, performed, rfl⟩ := Option.map_eq_some_iff.mp taken
      have same := sources_step invariant.valid running.2 performed
      refine ⟨⟨Merged.valid_step invariant.valid False.elim performed, ?_, invariant.idle, ?_⟩, ?_⟩
      · exact same.symm ▸ invariant.keys
      · intro config loaded
        obtain ⟨formed, follows, collects⟩ := invariant.loaded config loaded
        exact ⟨formed, same.symm ▸ follows, collects.places, same.symm ▸ collects.rows⟩
      · exact same.symm ▸ Stays.refl _
    next => cases taken

theorem invariant_run {events : List Event} (invariant : Invariant service)
    (ran : run (step runtime) service events = some next) :
    Invariant next ∧ Stays service.tables.sources next.tables.sources := by
  induction events generalizing service with
  | nil =>
    cases ran
    exact ⟨invariant, Stays.refl _⟩
  | cons event rest ih =>
    obtain ⟨middle, taken, later⟩ := (run_cons _ _ _ _ _).mp ran
    obtain ⟨held, early⟩ := invariant_step invariant taken
    obtain ⟨final, late⟩ := ih held later
    exact ⟨final, early.trans late⟩

/-- The collectors of a process are for enabled rows of its file, and no row is read by two. -/
structure Attended (config : Config) (service : Service) : Prop where
  follows : Follows config.declared service.tables.sources
  secrets : ∀ source ∈ config.sources, Sql.strTrim source.secret ≠ ""
  prices : ∀ key, config.pricing.litellmSource = some key → isPriceSource config.sources key = true
  collected : ∀ collector ∈ service.collectors, collector.config ∈ config.sources ∧
    ∃ row ∈ service.tables.sources, row.enabled = true ∧ row.id = collector.sourceId ∧
      row.key = collector.config.key
  alone : (service.collectors.map Collector.sourceId).Nodup

/-- Two collectors of one row would be for one place of the file. -/
theorem collects_alone (invariant : Invariant service) (formed : WellFormed config)
    (collects : Collects config service) : (service.collectors.map Collector.sourceId).Nodup := by
  have places : (service.collectors.map Collector.index).Nodup := (List.nodup_append.mp collects.places).1
  refine (List.nodup_map_iff_inj_on places.of_map).mpr ?_
  intro first member second also same
  obtain ⟨placed, row, stored, ids, keys⟩ := collects.rows first member
  obtain ⟨placed', row', stored', ids', keys'⟩ := collects.rows second also
  obtain rfl := invariant.valid.sourceIds.eq_of_key stored stored' (ids.trans (same.trans ids'.symm))
  have sources := formed.keys.eq_of_key (List.mem_of_getElem? placed) (List.mem_of_getElem? placed')
    (keys.symm.trans keys')
  have apart : config.sources.Nodup := by
    refine List.Pairwise.imp ?_ formed.keys
    intro source other differs equal
    exact differs (congrArg (fun source : SourceConfig => source.key) equal)
  have index : first.index = second.index := by
    obtain ⟨inside, there⟩ := List.getElem?_eq_some_iff.mp placed
    obtain ⟨inside', there'⟩ := List.getElem?_eq_some_iff.mp placed'
    exact (apart.getElem_inj_iff).mp (there.trans (sources.trans there'.symm))
  exact (List.nodup_map_iff_inj_on places.of_map).mp places first member second also index

/-- However the service is restarted and with whatever files, a row of a source keeps its id and its key,
and while a process runs, the enabled rows are those of its file, each read by one collector at most. -/
theorem sources_outlive_restarts {earlier later : List Event} {middle : Service}
    (before : run (step runtime) .new earlier = some middle)
    (after : run (step runtime) middle later = some service) :
    Stays middle.tables.sources service.tables.sources ∧ Distinct Source.key service.tables.sources ∧
      (service.config = none → service.collectors = []) ∧
      ∀ config, service.config = some config → Attended config service := by
  obtain ⟨held, -⟩ := invariant_run invariant_new before
  obtain ⟨invariant, stays⟩ := invariant_run held after
  refine ⟨stays, invariant.keys, invariant.idle, ?_⟩
  intro config loaded
  obtain ⟨formed, follows, collects⟩ := invariant.loaded config loaded
  refine ⟨follows, formed.secrets, formed.prices, ?_, collects_alone invariant formed collects⟩
  intro collector member
  obtain ⟨placed, row, stored, ids, keys⟩ := collects.rows collector member
  have source := List.mem_of_getElem? placed
  have declared : collector.config.toSourceConfig ∈ config.declared := List.mem_map_of_mem source
  exact ⟨source, row, stored, (follows.enabled row stored).mpr ⟨_, declared, keys.symm⟩, ids, keys⟩

/-- Every variable is set. -/
def allSet (_ : String) : Option String := some "secret"

def watch (name : String) : SourceFile := ⟨"watch", some name, .cliProxy, "http://watch:8317/", "WATCH_KEY"⟩
def home : SourceFile := ⟨"home", none, .liteLlm, "http://home:4000", "HOME_KEY"⟩

def firstProcess : List Event :=
  [.boot allSet (some ⟨[home, watch "watch"], none⟩) (.calm 1 (· + 1)), .look 1 false]

/-- The gateway is renamed, and the other one is gone from the file. -/
def secondProcess : List Event :=
  [.boot allSet (some ⟨[watch "porch"], none⟩) (.calm 2 (· + 3)), .look 0 false]

theorem a_renamed_source_keeps_its_row : ∃ middle service,
    run (step .inert) .new firstProcess = some middle ∧ run (step .inert) middle secondProcess = some service ∧
      Stays middle.tables.sources service.tables.sources ∧
      service.tables.sources = [⟨1, "home", "home", .liteLlm, "http://home:4000", false, 1⟩,
        ⟨2, "watch", "porch", .cliProxy, "http://watch:8317", true, 1⟩] ∧
      service.collectors.map Collector.sourceId = [2] := by
  have ran : (run (step .inert) .new firstProcess).any (fun middle =>
      (run (step .inert) middle secondProcess).any fun service =>
        service.tables.sources = [⟨1, "home", "home", .liteLlm, "http://home:4000", false, 1⟩,
          ⟨2, "watch", "porch", .cliProxy, "http://watch:8317", true, 1⟩] &&
        service.collectors.map Collector.sourceId = [2]) = true := by decide +kernel
  obtain ⟨middle, before, rest⟩ := (Option.any_eq_true _ _).mp ran
  obtain ⟨service, after, shown⟩ := (Option.any_eq_true _ _).mp rest
  rw [Bool.and_eq_true, decide_eq_true_eq, decide_eq_true_eq] at shown
  exact ⟨middle, service, before, after, (sources_outlive_restarts before after).1, shown⟩

end Runs

end MeteredUsage.Store.Restarts
