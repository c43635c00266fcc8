import Mathlib.Data.List.Perm.Basic
import MeteredUsage.Store.Registered

/-! Hard refreshes and spends, one at a time under their lock, beside the writes that register and
merge accounts. Provider answers are whatever they are, and arrive in any order. -/

namespace MeteredUsage.Gateway.Spending
open MeteredUsage.Values MeteredUsage.Store MeteredUsage.Store.Schema MeteredUsage.Store.Credentials
open MeteredUsage.Store.Quota MeteredUsage.Store.Validity MeteredUsage.Store.Commands
open MeteredUsage.Store.Intake (root ownerOf)
open MeteredUsage.Store.Listings (OneCredential isRefreshable)
open MeteredUsage.Store.Registered (Stays Listing reports)
open MeteredUsage.Library.Keyed MeteredUsage.Library.Transaction MeteredUsage.Library.Execution

/-- The configured CLIProxy sources. No key appears twice in the config. -/
structure Config where
  keys : List String
  distinct : keys.Nodup

/-- The enabled CLIProxy sources that are configured. -/
def sources (config : Config) (tables : Tables) (only : Option SourceId) : List SourceId :=
  ((config.keys.filterMap fun key => tables.sources.find? (·.key = key)).filter fun source =>
    source.enabled && only.all (· = source.id)).map Source.id

/-- The key a listed credential is registered under. -/
def keyOf (file : AuthFile) : String := (authIndexOf file).getD ""

/-- The index every call of a listed credential carries. -/
def indexOf (file : AuthFile) : String := file.entry.authIndex.getD ""

/-- A listed credential with the provider that is asked through it. -/
structure Target where
  source : SourceId
  accountId : AccountId
  file : AuthFile
  provider : Provider

/-- What a hard refresh of a source asks for, where nobody else has asked just before. -/
def targets (source : SourceId) (only : Option AccountId) (automatic : Bool)
    (shared : AccountId → Bool) (stored : List Stored) : List Target :=
  let named := stored.filter fun entry => only.all (· = entry.accountId)
  let refreshable := named.filterMap fun entry =>
    entry.provider.map fun provider => (⟨source, entry.accountId, entry.file, provider⟩ : Target)
  (refreshable.filter fun target => !automatic || target.provider.allowsAutomaticRecovery).filter
    fun target => !shared target.accountId

/-- A hard refresh: the sources it has still to list, the fetches under way and the accounts it
stored an observation for. -/
structure Refresh where
  only : Option AccountId
  automatic : Bool
  rest : List SourceId
  pending : List Target
  observed : List AccountId

/-- What holds `manual_reset_lock`. -/
inductive Work where
  | idle
  | refreshing (refresh : Refresh)
  /-- A spend has chosen the credential it will go through. -/
  | chosen (target : Target)
  /-- The account has an unexpired grant. -/
  | counted (target : Target)
  /-- The consume call is sent. -/
  | spent (target : Target)

/-- A consume call, with the index the account's stored grants were read through when it was sent. -/
structure Spend where
  accountId : AccountId
  authIndex : String
  grantsFrom : Option String
deriving DecidableEq

/-- The service, with its history: the index each stored grant list was read through, every
credential one was read from, and the consume calls. -/
structure Service where
  tables : Tables
  work : Work
  grantsFrom : AccountId → Option String
  read : List Target
  sent : List Spend

def Service.start (tables : Tables) : Service := ⟨tables, .idle, fun _ => none, [], []⟩

/-- `Credit::unexpired_count`. -/
def unexpiredCount (tables : Tables) (accountId : AccountId) (now : Timestamp) : Int :=
  ((tables.credits.filter fun credit => credit.accountId = accountId &&
    credit.grant.expiresAt.all fun expiresAt => decide (now < expiresAt)).map (·.grant.remaining)).sum

/-- `store`: the credentials it answers, and the database once it is committed. -/
def listed (runtime : Sql.Runtime) (source : SourceId) (listing : AuthFiles) (world : World)
    (tables : Tables) : Option (List Stored × Tables) :=
  match transact (Quota.store runtime source listing) (world.session tables) with
  | (.ok (.committed stored), next) => some (stored, next)
  | _ => none

/-- The credential a spend goes through: the first the list names for the account, where it is
enabled and its provider's resets can be spent. -/
def choose (source : SourceId) (accountId : AccountId) (stored : List Stored) : Work :=
  match stored.find? (·.accountId = accountId) with
  | none => .idle
  | some entry =>
    if entry.file.entry.disabled then .idle
    else match entry.provider.filter (·.canReset entry.file) with
      | none => .idle
      | some provider => .chosen ⟨source, accountId, entry.file, provider⟩

inductive Event where
  /-- A write that does not wait for the lock. -/
  | write (command : Command) (world : World)
  | refresh (only : Option AccountId) (automatic : Bool)
  /-- The next source of a refresh answers its credential list. -/
  | list (listing : AuthFiles) (shared : AccountId → Bool) (world : World)
  | unreachable
  /-- A fetch under way ends. -/
  | observe (index : Nat) (result : Except RefreshError Observation) (refreshedAt : Timestamp)
    (world : World)
  | spend (accountId : AccountId) (listing : AuthFiles) (world : World)
  | count (now : Timestamp)
  | consume (world : World)
  | follow (result : Except RefreshError Observation) (refreshedAt : Timestamp) (world : World)
  /-- The lock is let go of, at the end or on an error. -/
  | release

/-- The writes that register accounts, list credentials or merge accounts. -/
def isOpen : Command → Bool
  | .ingest _ _ | .merge _ _ _ | .store _ _ => true
  | _ => false

/-- `record`, through one credential. -/
def record (runtime : Sql.Runtime) (service : Service) (target : Target)
    (result : Except RefreshError Observation) (refreshedAt : Timestamp) (world : World) :
    Option Service := do
  let next ← Commands.step runtime service.tables
    (.recordRefresh target.accountId result refreshedAt, world)
  return { service with
    tables := next
    grantsFrom := if reports result then
        Function.update service.grantsFrom target.accountId (some (indexOf target.file))
      else service.grantsFrom
    read := if reports result then target :: service.read else service.read }

/-- The accounts with one more observation, where the fetch of it succeeded. -/
def Refresh.observe (refresh : Refresh) (index : Nat) (target : Target)
    (result : Except RefreshError Observation) : Refresh :=
  { refresh with
    pending := refresh.pending.eraseIdx index
    observed := match result with
      | .ok _ => refresh.observed ++ [target.accountId]
      | .error _ => refresh.observed }

/-- The one source a refresh of one account lists; an account that is not stored has none. -/
def sourceOf (tables : Tables) : Option AccountId → Option (Option SourceId)
  | none => some none
  | some accountId =>
    (Snapshots.accountOf tables accountId).map fun account => some account.sourceId

def step (config : Config) (runtime : Sql.Runtime) (service : Service) : Event → Option Service
  | .write command world =>
    if isOpen command then
      (Commands.step runtime service.tables (command, world)).map fun next => { service with tables := next }
    else none
  | .refresh only automatic =>
    match service.work with
    | .idle =>
      (sourceOf service.tables only).map fun source => { service with
        work := .refreshing ⟨only, automatic, sources config service.tables source, [], []⟩ }
    | _ => none
  | .list listing shared world =>
    match service.work with
    | .refreshing ⟨only, automatic, source :: rest, [], observed⟩ =>
      (listed runtime source listing world service.tables).map fun answer =>
        { service with
          tables := answer.2
          work := .refreshing
            ⟨only, automatic, rest, targets source only automatic shared answer.1, observed⟩ }
    | _ => none
  | .unreachable =>
    match service.work with
    | .refreshing ⟨none, automatic, _ :: rest, [], observed⟩ =>
      some { service with work := .refreshing ⟨none, automatic, rest, [], observed⟩ }
    | _ => none
  | .observe index result refreshedAt world =>
    match service.work with
    | .refreshing refresh => do
      let target ← refresh.pending[index]?
      let after ← record runtime service target result refreshedAt world
      return { after with work := .refreshing (refresh.observe index target result) }
    | _ => none
  | .spend accountId listing world =>
    match service.work with
    | .idle => do
      let account ← Snapshots.accountOf service.tables accountId
      let source ← (sources config service.tables (some account.sourceId)).head?
      let answer ← listed runtime source listing world service.tables
      return { service with tables := answer.2, work := choose source accountId answer.1 }
    | _ => none
  | .count now =>
    match service.work with
    | .chosen target => some { service with
        work := if unexpiredCount service.tables target.accountId now = 0 then .idle else .counted target }
    | _ => none
  | .consume world =>
    match service.work with
    | .counted target =>
      (Commands.step runtime service.tables (.clear target.accountId, world)).map fun next =>
        { service with
          tables := next
          work := .spent target
          grantsFrom := Function.update service.grantsFrom target.accountId none
          sent := ⟨target.accountId, indexOf target.file, service.grantsFrom target.accountId⟩ ::
            service.sent }
    | _ => none
  | .follow result refreshedAt world =>
    match service.work with
    | .spent target => (record runtime service target result refreshedAt world).map fun after =>
        { after with work := .idle }
    | _ => none
  | .release => some { service with work := .idle }

/-- What is promised of a state: the refresh under way stored no two observations of an account,
and every consume call went through the credential whose grants were stored. -/
structure Apart (service : Service) : Prop where
  once : ∀ refresh, service.work = .refreshing refresh → refresh.observed.Nodup
  own : ∀ spend ∈ service.sent, spend.grantsFrom = some spend.authIndex

/-- The listed credentials a provider can hard refresh. -/
def refreshable (runtime : Sql.Runtime) (listing : AuthFiles) : List AuthFile :=
  (listing.files.filter fun file => (authIndexOf file).isSome).filter (isRefreshable runtime)

/-- A list that a refresh reads names no two refreshable credentials of one account it asks for,
and one that a spend reads names no refreshable credential of the account but that whose grants
were stored for it before. -/
def Single (runtime : Sql.Runtime) (service : Service) : Event → Prop
  | .list listing _ _ => ∀ refresh source rest, service.work = .refreshing refresh →
      refresh.rest = source :: rest → (refreshable runtime listing).Pairwise fun first second =>
        refresh.only.all (fun id => ownerOf service.tables.accounts source (keyOf first) = some id) = true →
          ¬OneCredential service.tables source (keyOf first) (keyOf second)
  | .spend accountId listing _ => ∀ account, Snapshots.accountOf service.tables accountId = some account →
      ∀ file ∈ refreshable runtime listing,
        ownerOf service.tables.accounts account.sourceId (keyOf file) = some accountId →
        ∀ before ∈ service.read, before.source = account.sourceId →
          ownerOf service.tables.accounts account.sourceId (keyOf before.file) = some accountId →
          indexOf before.file = indexOf file
  | _ => True

variable {config : Config} {runtime : Sql.Runtime} {service after : Service} {tables next : Tables}
  {source : SourceId} {accountId : AccountId}

/-- The configured sources are listed once each. -/
theorem nodup_sources (valid : Valid False tables) (config : Config) (only : Option SourceId) :
    (sources config tables only).Nodup := by
  have rows : (config.keys.filterMap fun key => tables.sources.find? (·.key = key)).Nodup := by
    refine List.Nodup.filterMap ?_ config.distinct
    intro first second row left right
    have firstKey : row.key = first := by simpa using List.find?_some left
    have secondKey : row.key = second := by simpa using List.find?_some right
    exact firstKey.symm.trans secondKey
  refine List.Nodup.map_on ?_ (rows.filter _)
  intro first left second right same
  have stored {row : Source} (member : row ∈ (config.keys.filterMap fun key =>
      tables.sources.find? (·.key = key)).filter fun source =>
        source.enabled && only.all (· = source.id)) : row ∈ tables.sources := by
    obtain ⟨key, _, found⟩ := List.mem_filterMap.mp (List.mem_filter.mp member).1
    exact List.mem_of_find?_eq_some found
  exact valid.sourceIds.eq_of_key (stored left) (stored right) same

/-- The key of a target resolves where its account does, which is one of its source. -/
structure Resolves (tables : Tables) (target : Target) : Prop where
  inside : Inside tables.accounts target.source target.accountId
  owner : ∃ account ∈ tables.accounts, account.id = target.accountId ∧
    ownerOf tables.accounts target.source (keyOf target.file) = some (root account)

theorem Resolves.stays {target : Target} (resolves : Resolves tables target) {move : AccountId → AccountId}
    (stays : Stays False move tables next) : Resolves next target where
  inside := by
    obtain ⟨account, member, same, inSource⟩ := resolves.inside
    exact same ▸ inSource ▸ stays.inside account member
  owner := by
    obtain ⟨account, member, same, owned⟩ := resolves.owner
    obtain ⟨later, remains, named, moved⟩ := stays.carried account member
    exact ⟨later, remains, named.trans same, (stays.owners _ _ _ owned).trans (congrArg some moved.symm)⟩

/-- A target whose account owns some key has its own key charged to that account. -/
theorem Resolves.owned {target : Target} (valid : Valid False tables) (resolves : Resolves tables target)
    {key : String} (owned : ownerOf tables.accounts source key = some target.accountId) :
    target.source = source ∧ ownerOf tables.accounts source (keyOf target.file) = some target.accountId := by
  obtain ⟨absorber, stored, same, inSource, unmerged⟩ := Listings.absorbs_owner valid owned
  obtain ⟨account, member, named, kept⟩ := resolves.owner
  obtain ⟨other, inside, itsId, itsSource⟩ := resolves.inside
  have one : account = absorber := valid.sameAccount member stored (named.trans same.symm)
  have sources : target.source = source := by
    rw [← itsSource, valid.sameAccount inside stored (itsId.trans same.symm), inSource]
  have roots : root account = target.accountId := by
    rw [one, root, unmerged, Option.getD_none, same]
  rw [sources, roots] at kept
  exact ⟨sources, kept⟩

/-- An answered entry as the target of a fetch. -/
theorem resolves_answered {listing : AuthFiles} {stored : List Stored} {entry : Stored}
    (answered : Listing False runtime source tables listing.files stored next) (member : entry ∈ stored)
    (provider : Provider) : Resolves next ⟨source, entry.accountId, entry.file, provider⟩ ∧
      ownerOf next.accounts source (keyOf entry.file) = some entry.accountId := by
  obtain ⟨key, named, owned⟩ := (answered.answers entry member).key
  have keyed : keyOf entry.file = key := by rw [keyOf, named, Option.getD_some]
  obtain ⟨account, present, same, inSource, unmerged⟩ := Listings.absorbs_owner answered.grown.valid owned
  have roots : root account = entry.accountId := by rw [root, unmerged, Option.getD_none, same]
  refine ⟨⟨⟨account, present, same, inSource⟩, account, present, same, ?_⟩, keyed ▸ owned⟩
  rw [roots, keyed]
  exact owned

theorem mem_targets {only : Option AccountId} {automatic : Bool} {shared : AccountId → Bool}
    {stored : List Stored} {target : Target} (member : target ∈ targets source only automatic shared stored) :
    ∃ entry ∈ stored, target = ⟨source, entry.accountId, entry.file, target.provider⟩ ∧
      only.all (· = entry.accountId) = true := by
  have listed := (List.mem_filter.mp (List.mem_filter.mp member).1).1
  obtain ⟨entry, kept, asked⟩ := List.mem_filterMap.mp listed
  obtain ⟨provider, _, rfl⟩ := Option.map_eq_some_iff.mp asked
  obtain ⟨inside, admitted⟩ := List.mem_filter.mp kept
  exact ⟨entry, inside, rfl, admitted⟩

/-- What a refresh asks for is apart where the refreshable credentials of the list are. -/
theorem pairwise_targets {apart : AuthFile → AuthFile → Prop} {only : Option AccountId}
    {automatic : Bool} {shared : AccountId → Bool} {listing : AuthFiles} {stored : List Stored}
    (answered : Listing False runtime source tables listing.files stored next)
    (separate : (refreshable runtime listing).Pairwise apart) :
    (targets source only automatic shared stored).Pairwise fun first second => apart first.file second.file := by
  have files : (stored.filter fun entry => isRefreshable runtime entry.file).map Stored.file =
      refreshable runtime listing := by
    rw [refreshable, ← answered.files, List.filter_map]
    rfl
  rw [← files, List.pairwise_map, List.pairwise_filter] at separate
  have entries : stored.Pairwise fun first second => first.provider.isSome = true →
      second.provider.isSome = true → apart first.file second.file := by
    refine separate.imp_of_mem fun {first second} left right held => ?_
    rw [(answered.answers first left).provider, (answered.answers second right).provider]
    exact held
  refine List.Pairwise.filter _ (List.Pairwise.filter _ (List.Pairwise.filterMap _ ?_ (entries.filter _)))
  intro first second held left leftAsked right rightAsked
  obtain ⟨provider, known, rfl⟩ := Option.map_eq_some_iff.mp leftAsked
  obtain ⟨other, otherKnown, rfl⟩ := Option.map_eq_some_iff.mp rightAsked
  exact held (by rw [known]; rfl) (by rw [otherKnown]; rfl)

theorem Resolves.same {target : Target} (resolves : Resolves tables target)
    (accounts : next.accounts = tables.accounts) : Resolves next target :=
  ⟨accounts ▸ resolves.inside, accounts ▸ resolves.owner⟩

/-- What holds of the stored grants and of the history, whatever is under way. -/
structure Books (service : Service) : Prop where
  valid : Valid False service.tables
  grants : ∀ credit ∈ service.tables.credits, (service.grantsFrom credit.accountId).isSome = true
  read : ∀ accountId index, service.grantsFrom accountId = some index → ∃ before ∈ service.read,
    before.accountId = accountId ∧ indexOf before.file = index ∧ Resolves service.tables before
  own : ∀ spend ∈ service.sent, spend.grantsFrom = some spend.authIndex

/-- What holds of a refresh: its fetches are of one account each, of sources it is done with. -/
structure Fetching (tables : Tables) (refresh : Refresh) : Prop where
  sources : refresh.rest.Nodup
  pending : ∀ target ∈ refresh.pending, Resolves tables target
  once : (refresh.observed ++ refresh.pending.map Target.accountId).Nodup
  listed : ∀ id ∈ refresh.observed ++ refresh.pending.map Target.accountId,
    ∃ source, source ∉ refresh.rest ∧ Inside tables.accounts source id
  only : ∀ id ∈ refresh.only, HasAccount tables.accounts id

/-- A spend's credential is the one the grants of its account were read through, once they were
counted, and none of another before. -/
def Working (service : Service) : Prop :=
  match service.work with
  | .idle => True
  | .refreshing refresh => Fetching service.tables refresh
  | .chosen target => Resolves service.tables target ∧
      ∀ index, service.grantsFrom target.accountId = some index → index = indexOf target.file
  | .counted target => Resolves service.tables target ∧
      service.grantsFrom target.accountId = some (indexOf target.file)
  | .spent target => Resolves service.tables target

theorem Books.stays (books : Books service) {move : AccountId → AccountId}
    (stays : Stays False move service.tables next) : Books { service with tables := next } where
  valid := stays.valid
  grants credit member := books.grants credit (stays.credits ▸ member)
  read accountId index known := by
    obtain ⟨before, member, named, same, resolves⟩ := books.read accountId index known
    exact ⟨before, member, named, same, resolves.stays stays⟩
  own := books.own

theorem Fetching.stays {refresh : Refresh} (fetching : Fetching tables refresh) {move : AccountId → AccountId}
    (stays : Stays False move tables next) : Fetching next refresh where
  sources := fetching.sources
  pending target member := (fetching.pending target member).stays stays
  once := fetching.once
  listed id member := by
    obtain ⟨source, apart, account, stored, same, inSource⟩ := fetching.listed id member
    exact ⟨source, apart, same ▸ inSource ▸ stays.inside account stored⟩
  only id named := by
    obtain ⟨account, stored, same⟩ := fetching.only id named
    exact same ▸ (stays.inside account stored).hasAccount

theorem Working.stays (working : Working service) {move : AccountId → AccountId}
    (stays : Stays False move service.tables next) : Working { service with tables := next } := by
  obtain ⟨tables, work, grantsFrom, read, sent⟩ := service
  cases work with
  | idle => trivial
  | refreshing refresh => exact Fetching.stays working stays
  | chosen target => exact ⟨working.1.stays stays, working.2⟩
  | counted target => exact ⟨working.1.stays stays, working.2⟩
  | spent target => exact Resolves.stays working stays

/-- Every write that does not wait for the lock leaves the accounts where they moved to, and the
grants. -/
theorem stays_open {command : Command} {world : World} (valid : Valid False tables)
    (admitted : isOpen command = true)
    (taken : Commands.step runtime tables (command, world) = some next) :
    ∃ move, Stays False move tables next := by
  cases command with
  | ingest source records => exact ⟨id, Registered.stays_ingest valid taken⟩
  | merge old into requires => exact ⟨_, Registered.stays_merge valid taken⟩
  | store source listing => exact ⟨id, Registered.stays_sync valid taken⟩
  | _ => cases admitted

/-- What was read through a credential is stored as read through it. -/
theorem Books.record (books : Books service) {target : Target} (resolves : Resolves service.tables target)
    {result : Except RefreshError Observation} {refreshedAt : Timestamp} {world : World}
    (recorded : Spending.record runtime service target result refreshedAt world = some after) :
    Books after ∧ after.tables.accounts = service.tables.accounts ∧ after.work = service.work := by
  obtain ⟨next, taken, same⟩ := Option.bind_eq_some_iff.mp recorded
  obtain rfl := (Option.some.inj same).symm
  obtain ⟨_, granted⟩ :=
    performed_holds (Registered.holds_recordRefresh result refreshedAt) rfl (step_iff.mp taken)
  have stored (accountId : AccountId) (known : (service.grantsFrom accountId).isSome = true) :
      ((if reports result = true then Function.update service.grantsFrom target.accountId
        (some (indexOf target.file)) else service.grantsFrom) accountId).isSome = true := by
    split
    next =>
      by_cases named : accountId = target.accountId
      · rw [named, Function.update_self]
        rfl
      · rw [Function.update_of_ne named]
        exact known
    next => exact known
  refine ⟨⟨Merged.valid_step books.valid False.elim taken, fun credit member => ?_,
    fun accountId index known => ?_, books.own⟩, granted.accounts, rfl⟩
  · rcases granted.credits credit member with earlier | ⟨read, named⟩
    · exact stored _ (books.grants credit earlier)
    · dsimp only
      rw [if_pos read, named, Function.update_self]
      rfl
  · have earlier (kept : service.grantsFrom accountId = some index) : ∃ before ∈ service.read,
        before.accountId = accountId ∧ indexOf before.file = index ∧ Resolves next before := by
      obtain ⟨before, member, named, same, resolved⟩ := books.read accountId index kept
      exact ⟨before, member, named, same, resolved.same granted.accounts⟩
    dsimp only at known ⊢
    split at known
    next read =>
      rw [if_pos read]
      by_cases named : accountId = target.accountId
      · rw [named, Function.update_self] at known
        exact ⟨target, List.mem_cons_self, named.symm, Option.some.inj known,
          resolves.same granted.accounts⟩
      · rw [Function.update_of_ne named] at known
        obtain ⟨before, member, kept⟩ := earlier known
        exact ⟨before, List.mem_cons_of_mem _ member, kept⟩
    next unread =>
      rw [if_neg unread]
      exact earlier known

theorem answered_of_listed {listing : AuthFiles} {world : World} {stored : List Stored}
    (valid : Valid False tables) (answer : listed runtime source listing world tables = some (stored, next)) :
    Listing False runtime source tables listing.files stored next := by
  unfold listed at answer
  split at answer
  next stored next ran =>
    cases answer
    exact (Registered.holds_store valid listing).transact rfl ran stored rfl
  next => cases answer

/-- A list keeps a refresh to one fetch for each account, where it names no account's
credential twice. -/
theorem fetching_listed {refresh : Refresh} {rest : List SourceId} {listing : AuthFiles} {stored : List Stored}
    {shared : AccountId → Bool} (valid : Valid False tables) (fetching : Fetching tables refresh)
    (sources : refresh.rest = source :: rest)
    (answered : Listing False runtime source tables listing.files stored next)
    (single : (refreshable runtime listing).Pairwise fun first second =>
      refresh.only.all (fun id => ownerOf tables.accounts source (keyOf first) = some id) = true →
        ¬OneCredential tables source (keyOf first) (keyOf second)) :
    Fetching next { refresh with
      rest := rest, pending := targets source refresh.only refresh.automatic shared stored } := by
  have moved := fetching.stays answered.stays
  have resolves {target : Target}
      (member : target ∈ targets source refresh.only refresh.automatic shared stored) :
      Resolves next target ∧ target.source = source ∧
        ownerOf next.accounts source (keyOf target.file) = some target.accountId ∧
        refresh.only.all (· = target.accountId) = true := by
    obtain ⟨entry, inside, same, admitted⟩ := mem_targets member
    obtain ⟨resolved, owned⟩ := resolves_answered answered inside target.provider
    rw [same]
    exact ⟨resolved, rfl, owned, admitted⟩
  have distinct : (targets source refresh.only refresh.automatic shared stored).Pairwise
      fun first second => first.accountId ≠ second.accountId := by
    refine (pairwise_targets answered single).imp_of_mem fun {first second} left right apart same => ?_
    obtain ⟨_, _, owned, admitted⟩ := resolves left
    obtain ⟨_, _, otherOwned, _⟩ := resolves right
    refine apart ?_ (answered.grown.apart _ _ _ owned (same ▸ otherOwned))
    cases asked : refresh.only with
    | none => rfl
    | some id =>
      rw [asked, Option.all_some, decide_eq_true_eq] at admitted
      have known := answered.owner_of_known valid (fetching.only id asked) (admitted ▸ owned)
      rw [Option.all_some, known]
      exact decide_eq_true rfl
  have nodup : ((targets source refresh.only refresh.automatic shared stored).map Target.accountId).Nodup :=
    List.pairwise_map.mpr distinct
  have unlisted : source ∉ rest := (List.nodup_cons.mp (sources ▸ fetching.sources)).1
  -- An account of this source was not observed in another.
  have fresh {id : AccountId} (observed : id ∈ refresh.observed) :
      ∃ other, other ∉ source :: rest ∧ Inside next.accounts other id := by
    obtain ⟨other, apart, inside⟩ := moved.listed id (List.mem_append_left _ observed)
    exact ⟨other, sources ▸ apart, inside⟩
  refine ⟨(List.nodup_cons.mp (sources ▸ fetching.sources)).2, fun target member => (resolves member).1,
    ?_, fun id member => ?_, moved.only⟩
  · have observed : refresh.observed.Nodup := (List.nodup_append.mp fetching.once).1
    refine List.nodup_append.mpr ⟨observed, nodup, fun id left other right same => ?_⟩
    obtain ⟨elsewhere, apart, account, stored, named, inSource⟩ := fresh left
    obtain ⟨target, member, rfl⟩ := List.mem_map.mp right
    obtain ⟨known, present, itsId, itsSource⟩ := (resolves member).1.inside
    have one : account = known :=
      answered.grown.valid.sameAccount stored present (named.trans (same.trans itsId.symm))
    refine apart (List.mem_cons.mpr (.inl ?_))
    rw [← inSource, one, itsSource, (resolves member).2.1]
  · rcases List.mem_append.mp member with observed | pending
    · obtain ⟨other, apart, inside⟩ := fresh observed
      exact ⟨other, fun later => apart (List.mem_cons_of_mem _ later), inside⟩
    · obtain ⟨target, asked, rfl⟩ := List.mem_map.mp pending
      exact ⟨source, unlisted, (resolves asked).2.1 ▸ (resolves asked).1.inside⟩

theorem fetching_observed {refresh : Refresh} {index : Nat} {target : Target}
    (fetching : Fetching tables refresh) (asked : refresh.pending[index]? = some target)
    (result : Except RefreshError Observation) (accounts : next.accounts = tables.accounts) :
    Fetching next (refresh.observe index target result) := by
  obtain ⟨bound, found⟩ := List.getElem?_eq_some_iff.mp asked
  have perm : (target :: refresh.pending.eraseIdx index).Perm refresh.pending :=
    found ▸ List.getElem_cons_eraseIdx_perm bound
  have ids : ((refresh.observed ++ [target.accountId]) ++
      (refresh.pending.eraseIdx index).map Target.accountId).Perm
      (refresh.observed ++ refresh.pending.map Target.accountId) := by
    rw [List.append_assoc]
    exact (perm.map Target.accountId).append_left refresh.observed
  have whole : ((refresh.observe index target result).observed ++
      (refresh.observe index target result).pending.map Target.accountId).Sublist
      ((refresh.observed ++ [target.accountId]) ++
        (refresh.pending.eraseIdx index).map Target.accountId) := by
    cases result with
    | ok observation => exact List.Sublist.refl _
    | error error => exact (List.sublist_append_left _ _).append (List.Sublist.refl _)
  refine ⟨fetching.sources, fun other member => ?_, whole.nodup (ids.nodup_iff.mpr fetching.once),
    fun id member => ?_, accounts ▸ fetching.only⟩
  · exact (fetching.pending other (List.mem_of_mem_eraseIdx member)).same accounts
  · rw [accounts]
    exact fetching.listed id (ids.mem_iff.mp (whole.subset member))

/-- A spend goes through a credential of its account's source, and through no other than the one
whose grants were stored. -/
theorem working_chosen {account : Account} {listing : AuthFiles} {stored : List Stored} (books : Books service)
    (found : Snapshots.accountOf service.tables accountId = some account)
    (answered : Listing False runtime account.sourceId service.tables listing.files stored next)
    (single : ∀ file ∈ refreshable runtime listing,
      ownerOf service.tables.accounts account.sourceId (keyOf file) = some accountId →
      ∀ before ∈ service.read, before.source = account.sourceId →
        ownerOf service.tables.accounts account.sourceId (keyOf before.file) = some accountId →
        indexOf before.file = indexOf file) :
    Working { service with tables := next, work := choose account.sourceId accountId stored } := by
  unfold choose
  split
  next => trivial
  next entry named =>
    split
    next => trivial
    next =>
      split
      next => trivial
      next provider asked =>
        have member := List.mem_of_find?_eq_some named
        have same : entry.accountId = accountId := by simpa using List.find?_some named
        subst same
        obtain ⟨resolves, owned⟩ := resolves_answered answered member provider
        refine ⟨resolves, fun index known => ?_⟩
        obtain ⟨before, earlier, (theirs : before.accountId = entry.accountId), read, kept⟩ :=
          books.read _ index known
        have later := kept.stays answered.stays
        rw [← theirs] at owned
        obtain ⟨source, itsOwned⟩ := later.owned answered.grown.valid owned
        obtain ⟨stored, itsId⟩ := (Landing.accountOf_eq_some books.valid).mp found
        have exists_ : HasAccount service.tables.accounts before.accountId :=
          ⟨account, stored, itsId.trans theirs.symm⟩
        have offered : entry.file ∈ refreshable runtime listing := by
          have listed : entry.file ∈ listing.files.filter fun file => (authIndexOf file).isSome :=
            answered.files ▸ List.mem_map_of_mem member
          have known : isRefreshable runtime entry.file = true := by
            change (Registered.providerFor runtime entry.file).isSome = true
            rw [← (answered.answers entry member).provider]
            rw [(Option.filter_eq_some_iff.mp asked).1]
            rfl
          exact List.mem_filter.mpr ⟨listed, known⟩
        rw [← read]
        refine single entry.file offered ?_ before earlier source ?_
        · exact theirs ▸ answered.owner_of_known books.valid exists_ owned
        · exact theirs ▸ answered.owner_of_known books.valid exists_ itsOwned

theorem mem_sources {only : SourceId} (member : source ∈ sources config tables (some only)) : source = only := by
  obtain ⟨row, kept, rfl⟩ := List.mem_map.mp member
  have admitted := (List.mem_filter.mp kept).2
  simp only [Option.all_some, Bool.and_eq_true, decide_eq_true_eq] at admitted
  exact admitted.2.symm

theorem books_consumed {target : Target} {world : World} (books : Books service)
    (read : service.grantsFrom target.accountId = some (indexOf target.file))
    (taken : Commands.step runtime service.tables (.clear target.accountId, world) = some next) :
    Books { service with
      tables := next
      work := .spent target
      grantsFrom := Function.update service.grantsFrom target.accountId none
      sent := ⟨target.accountId, indexOf target.file, service.grantsFrom target.accountId⟩ :: service.sent } ∧
    next.accounts = service.tables.accounts := by
  obtain ⟨_, cleared⟩ := performed_holds Registered.holds_clear rfl (step_iff.mp taken)
  refine ⟨⟨Merged.valid_step books.valid False.elim taken, fun credit member => ?_,
    fun accountId index known => ?_, fun spend member => ?_⟩, cleared.accounts⟩
  · obtain ⟨earlier, other⟩ := cleared.credits credit member
    dsimp only
    rw [Function.update_of_ne other]
    exact books.grants credit earlier
  · dsimp only at known
    by_cases named : accountId = target.accountId
    · rw [named, Function.update_self] at known
      cases known
    · rw [Function.update_of_ne named] at known
      obtain ⟨before, member, theirs, same, resolves⟩ := books.read accountId index known
      exact ⟨before, member, theirs, same, resolves.same cleared.accounts⟩
  · rcases List.mem_cons.mp member with rfl | earlier
    · exact read
    · exact books.own spend earlier

theorem Books.under (books : Books service) (work : Work) : Books { service with work := work } where
  valid := books.valid
  grants := books.grants
  read := books.read
  own := books.own

theorem kept_write {command : Command} {world : World} (books : Books service) (working : Working service)
    (taken : step config runtime service (.write command world) = some after) :
    Books after ∧ Working after := by
  simp only [step] at taken
  split at taken
  next admitted =>
    obtain ⟨next, ran, rfl⟩ := Option.map_eq_some_iff.mp taken
    obtain ⟨move, stays⟩ := stays_open books.valid admitted ran
    exact ⟨books.stays stays, working.stays stays⟩
  next => cases taken

/-- A refresh starts with every source still to list. -/
theorem kept_refresh {only : Option AccountId} {automatic : Bool} (books : Books service)
    (taken : step config runtime service (.refresh only automatic) = some after) :
    Books after ∧ Working after := by
  simp only [step] at taken
  split at taken
  next =>
    obtain ⟨source, found, rfl⟩ := Option.map_eq_some_iff.mp taken
    refine ⟨books.under _, ?_⟩
    show Fetching service.tables _
    refine ⟨nodup_sources books.valid config source, fun target member => ?_, List.nodup_nil,
      fun id member => ?_, fun id asked => ?_⟩
    · exact absurd member List.not_mem_nil
    · exact absurd member List.not_mem_nil
    · obtain rfl : only = some id := asked
      obtain ⟨account, stored, _⟩ := Option.map_eq_some_iff.mp found
      obtain ⟨member, same⟩ := (Landing.accountOf_eq_some books.valid).mp stored
      exact ⟨account, member, same⟩
  next => cases taken

theorem kept_list {listing : AuthFiles} {shared : AccountId → Bool} {world : World} (books : Books service)
    (working : Working service) (single : Single runtime service (.list listing shared world))
    (taken : step config runtime service (.list listing shared world) = some after) :
    Books after ∧ Working after := by
  simp only [step] at taken
  split at taken
  next only automatic source rest observed under =>
    obtain ⟨⟨stored, next⟩, answer, rfl⟩ := Option.map_eq_some_iff.mp taken
    have answered := answered_of_listed books.valid answer
    have fetching : Fetching service.tables ⟨only, automatic, source :: rest, [], observed⟩ := by
      rwa [Working, under] at working
    exact ⟨(books.stays answered.stays).under _,
      fetching_listed books.valid fetching rfl answered (single _ source rest under rfl)⟩
  next => cases taken

/-- A source that cannot be listed is passed over. -/
theorem kept_unreachable (books : Books service) (working : Working service)
    (taken : step config runtime service .unreachable = some after) : Books after ∧ Working after := by
  simp only [step] at taken
  split at taken
  next automatic source rest observed under =>
    obtain rfl := Option.some.inj taken
    have fetching : Fetching service.tables ⟨none, automatic, source :: rest, [], observed⟩ := by
      rwa [Working, under] at working
    refine ⟨books.under _, ?_⟩
    show Fetching service.tables ⟨none, automatic, rest, [], observed⟩
    refine ⟨(List.nodup_cons.mp fetching.sources).2, fetching.pending, fetching.once, fun id member => ?_,
      fetching.only⟩
    obtain ⟨other, apart, inside⟩ := fetching.listed id member
    exact ⟨other, fun later => apart (List.mem_cons_of_mem _ later), inside⟩
  next => cases taken

theorem kept_observe {index : Nat} {result : Except RefreshError Observation} {refreshedAt : Timestamp}
    {world : World} (books : Books service) (working : Working service)
    (taken : step config runtime service (.observe index result refreshedAt world) = some after) :
    Books after ∧ Working after := by
  simp only [step] at taken
  split at taken
  next refresh under =>
    obtain ⟨target, asked, taken⟩ := Option.bind_eq_some_iff.mp taken
    obtain ⟨middle, recorded, same⟩ := Option.bind_eq_some_iff.mp taken
    obtain rfl := (Option.some.inj same).symm
    have fetching : Fetching service.tables refresh := by rwa [Working, under] at working
    obtain ⟨books, accounts, _⟩ := books.record (fetching.pending target (List.mem_of_getElem? asked)) recorded
    exact ⟨books.under _, fetching_observed fetching asked result accounts⟩
  next => cases taken

theorem kept_spend {accountId : AccountId} {listing : AuthFiles} {world : World} (books : Books service)
    (single : Single runtime service (.spend accountId listing world))
    (taken : step config runtime service (.spend accountId listing world) = some after) :
    Books after ∧ Working after := by
  simp only [step] at taken
  split at taken
  next =>
    obtain ⟨account, found, taken⟩ := Option.bind_eq_some_iff.mp taken
    obtain ⟨source, first, taken⟩ := Option.bind_eq_some_iff.mp taken
    obtain ⟨⟨stored, next⟩, answer, same⟩ := Option.bind_eq_some_iff.mp taken
    obtain rfl := (Option.some.inj same).symm
    obtain rfl := mem_sources (List.mem_of_head? first)
    have answered := answered_of_listed books.valid answer
    exact ⟨(books.stays answered.stays).under _,
      working_chosen books found answered (single account found)⟩
  next => cases taken

theorem counted_stored {now : Timestamp} (left : unexpiredCount tables accountId now ≠ 0) :
    ∃ credit ∈ tables.credits, credit.accountId = accountId := by
  by_contra none_stored
  apply left
  have empty : (tables.credits.filter fun credit => credit.accountId = accountId &&
      credit.grant.expiresAt.all fun expiresAt => decide (now < expiresAt)) = [] := by
    apply List.filter_eq_nil_iff.mpr
    intro credit member
    have other : credit.accountId ≠ accountId := fun same => none_stored ⟨credit, member, same⟩
    simp [other]
  rw [unexpiredCount, empty]
  rfl

theorem kept_count {now : Timestamp} (books : Books service) (working : Working service)
    (taken : step config runtime service (.count now) = some after) : Books after ∧ Working after := by
  simp only [step] at taken
  split at taken
  next target under =>
    obtain rfl := Option.some.inj taken
    refine ⟨books.under _, ?_⟩
    rw [Working, under] at working
    obtain ⟨resolves, agrees⟩ := working
    by_cases none_left : unexpiredCount service.tables target.accountId now = 0
    · simp only [Working, if_pos none_left]
    · obtain ⟨credit, member, named⟩ := counted_stored none_left
      obtain ⟨index, known⟩ := Option.isSome_iff_exists.mp (books.grants credit member)
      rw [named] at known
      simp only [Working, if_neg none_left]
      exact ⟨resolves, known.trans (congrArg some (agrees index known))⟩
  next => cases taken

theorem kept_consume {world : World} (books : Books service) (working : Working service)
    (taken : step config runtime service (.consume world) = some after) : Books after ∧ Working after := by
  simp only [step] at taken
  split at taken
  next target under =>
    obtain ⟨next, cleared, rfl⟩ := Option.map_eq_some_iff.mp taken
    rw [Working, under] at working
    obtain ⟨books, accounts⟩ := books_consumed books working.2 cleared
    exact ⟨books, working.1.same accounts⟩
  next => cases taken

theorem kept_follow {result : Except RefreshError Observation} {refreshedAt : Timestamp} {world : World}
    (books : Books service) (working : Working service)
    (taken : step config runtime service (.follow result refreshedAt world) = some after) :
    Books after ∧ Working after := by
  simp only [step] at taken
  split at taken
  next target under =>
    obtain ⟨middle, recorded, rfl⟩ := Option.map_eq_some_iff.mp taken
    rw [Working, under] at working
    obtain ⟨books, _⟩ := books.record working recorded
    exact ⟨books.under _, trivial⟩
  next => cases taken

/-- Every event keeps the books and what is under way, where every list is single. -/
theorem kept_step {event : Event} (kept : Books service ∧ Working service)
    (single : Single runtime service event) (taken : step config runtime service event = some after) :
    Books after ∧ Working after := by
  obtain ⟨books, working⟩ := kept
  cases event with
  | write command world => exact kept_write books working taken
  | refresh only automatic => exact kept_refresh books taken
  | list listing shared world => exact kept_list books working single taken
  | unreachable => exact kept_unreachable books working taken
  | observe index result refreshedAt world => exact kept_observe books working taken
  | spend accountId listing world => exact kept_spend books single taken
  | count now => exact kept_count books working taken
  | consume world => exact kept_consume books working taken
  | follow result refreshedAt world => exact kept_follow books working taken
  | release =>
    obtain rfl := Option.some.inj taken
    exact ⟨books.under .idle, trivial⟩

theorem apart_of_kept (kept : Books service ∧ Working service) : Apart service where
  once refresh under := by
    have fetching := kept.2
    rw [Working, under] at fetching
    exact (List.nodup_append.mp fetching.once).1
  own := kept.1.own

/-- From any accounts and merges without stored grants, in every run whose lists are single. -/
theorem credentials_stay_apart {base : Tables} (valid : Valid False base) (ungranted : base.credits = [])
    {events : List Event} (met : Meets (step config runtime) (Single runtime) (.start base) events) :
    Always (step config runtime) Apart (.start base) events := by
  have start : Books (.start base) ∧ Working (.start base) := by
    refine ⟨⟨valid, fun credit member => ?_, nofun, nofun⟩, trivial⟩
    rw [Service.start, ungranted] at member
    cases member
  exact always_of_meets (fun _ => apart_of_kept) (fun _ _ _ => kept_step) start met

/-- A listed Codex credential. -/
def codexFile (authIndex : String) : AuthFile where
  entry := { (Listings.bareFile authIndex).entry with provider := some "codex" }
  raw := .null

def codexList (observedAt : Timestamp) (authIndexes : List String) : AuthFiles :=
  ⟨observedAt, authIndexes.map codexFile, true⟩

def oneGrant : Observation := ⟨[], none, .reported [⟨none, 1, none, none⟩]⟩

/-- The one configured source, under the key that `Listings.gatewayOnly` stores it by. -/
def gateway : Config := ⟨[""], List.nodup_singleton _⟩

/-- A list of a Codex credential, and of one that cannot be refreshed. -/
def mixedList (observedAt : Timestamp) : AuthFiles :=
  ⟨observedAt, [codexFile "a", Listings.bareFile "b"], true⟩

theorem refreshable_mixedList (observedAt : Timestamp) :
    refreshable .inert (mixedList observedAt) = [codexFile "a"] := rfl

/-- A refresh of the one that can be, with ids from a number on. -/
def refreshed (ids observedAt : Nat) : List Event :=
  [.refresh none false, .list (mixedList observedAt) (fun _ => false) (.calm 0 (· + ids)),
    .observe 0 (.ok oneGrant) (observedAt + 1) (.calm 0 (· + (ids + 10))), .release]

/-- Both are listed, the second merged into the first, and the account refreshed before and after. -/
def refreshedAgain : List Event :=
  .write (.store 1 (mixedList 1)) (.calm 0 (· + 1)) :: refreshed 10 2 ++
    .write (.merge 2 1 false) (.calm 0 (· + 30)) :: refreshed 40 4

def spentOnce : List Event :=
  [.spend 1 (mixedList 6) (.calm 0 (· + 60)), .count 7, .consume (.calm 0 (· + 70))]

/-- A list of one refreshable credential is single whatever is stored. -/
theorem single_refreshed (ids observedAt : Nat) {rest : List Event}
    (later : ∀ service, Meets (step gateway .inert) (Single .inert) service rest) (service : Service) :
    Meets (step gateway .inert) (Single .inert) service (refreshed ids observedAt ++ rest) := by
  refine fun _ _ => ⟨trivial, fun _ _ => ⟨fun refresh source rest _ _ => ?_, fun _ _ => ⟨trivial,
    fun next _ => ⟨trivial, later next⟩⟩⟩⟩
  rw [refreshable_mixedList]
  exact List.pairwise_singleton _ _

theorem a_credential_stays_apart :
    ((run (step gateway .inert) (.start Listings.gatewayOnly) (refreshedAgain ++ spentOnce)).any fun finish =>
      finish.sent = [⟨1, "a", some "a"⟩] ∧ finish.read.length = 2 ∧
        Intake.ownerOf finish.tables.accounts 1 "b" = some 1) = true ∧
    Always (step gateway .inert) Apart (.start Listings.gatewayOnly) (refreshedAgain ++ spentOnce) := by
  refine ⟨by decide +kernel, credentials_stay_apart Listings.valid_gatewayOnly rfl ?_⟩
  have ran : ((run (step gateway .inert) (.start Listings.gatewayOnly) refreshedAgain).any fun middle =>
      middle.read.all fun target => indexOf target.file = "a") = true := by decide +kernel
  obtain ⟨middle, reached, read⟩ := (Option.any_eq_true _ _).mp ran
  refine meets_join reached ?_ ?_
  · have merged (service : Service) : Meets (step gateway .inert) (Single .inert) service
        (.write (.merge 2 1 false) (.calm 0 (· + 30)) :: refreshed 40 4) :=
      fun _ _ => ⟨trivial, @single_refreshed 40 4 [] (fun _ => trivial) _⟩
    exact fun _ _ => ⟨trivial, single_refreshed 10 2 merged _⟩
  · refine fun _ _ => ⟨fun account _ file member _ before earlier _ _ => ?_, fun _ _ => ⟨trivial,
      fun _ _ => ⟨trivial, trivial⟩⟩⟩
    rw [refreshable_mixedList, List.mem_singleton] at member
    rw [member]
    exact of_decide_eq_true (List.all_eq_true.mp read before earlier)

/-- Two credentials, the second merged into the first, and both refreshed. -/
def refreshedTwice : List Event :=
  [.write (.store 1 (codexList 1 ["a", "b"])) (.calm 0 (· + 1)), .write (.merge 2 1 false) (.calm 0 (· + 20)),
    .refresh none false, .list (codexList 2 ["a", "b"]) (fun _ => false) (.calm 0 (· + 40)),
    .observe 0 (.ok oneGrant) 3 (.calm 0 (· + 60)), .observe 0 (.ok oneGrant) 3 (.calm 0 (· + 80))]

/-- A spend goes through the first of them. -/
def spentElsewhere : List Event :=
  [.release, .spend 1 (codexList 4 ["a", "b"]) (.calm 0 (· + 90)), .count 5, .consume (.calm 0 (· + 100))]

/-- Two live credentials of one account are both observed, and the grants of the second are spent
through the first. -/
theorem merged_credentials_cross :
    ¬Always (step gateway .inert) (fun service => ∀ refresh, service.work = .refreshing refresh →
      refresh.observed.Nodup) (.start Listings.gatewayOnly) refreshedTwice ∧
    ¬Always (step gateway .inert) (fun service => ∀ spend ∈ service.sent,
      spend.grantsFrom = some spend.authIndex) (.start Listings.gatewayOnly)
      (refreshedTwice ++ spentElsewhere) := by
  have twice : ((run (step gateway .inert) (.start Listings.gatewayOnly) refreshedTwice).any fun service =>
      match service.work with
      | .refreshing refresh => decide ¬refresh.observed.Nodup
      | _ => false) = true := by decide +kernel
  have elsewhere : ((run (step gateway .inert) (.start Listings.gatewayOnly)
      (refreshedTwice ++ spentElsewhere)).any fun service =>
        service.sent.any fun spend => spend.grantsFrom ≠ some spend.authIndex) = true := by decide +kernel
  obtain ⟨service, reached, observed⟩ := (Option.any_eq_true _ _).mp twice
  obtain ⟨finish, spent, sent⟩ := (Option.any_eq_true _ _).mp elsewhere
  refine ⟨fun always => ?_, fun always => ?_⟩
  · have once := always_last always reached
    split at observed
    next refresh under => exact of_decide_eq_true observed (once refresh under)
    next => cases observed
  · obtain ⟨spend, member, other⟩ := List.any_eq_true.mp sent
    exact of_decide_eq_true other (always_last always spent spend member)

end MeteredUsage.Gateway.Spending
