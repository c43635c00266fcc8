import MeteredUsage.Store.Suggestions

/-! When the accounts of a source were first seen, as the writes leave it: a list, a rename and a hard
refresh keep it, and a batch of records leaves every known row what its own records say, whichever of
them are stored already. -/

namespace MeteredUsage.Store.FirstSeen
open MeteredUsage.Values MeteredUsage.Store.Schema MeteredUsage.Store.Accounts
open MeteredUsage.Store.Events MeteredUsage.Store.Snapshots MeteredUsage.Store.Ingest
open MeteredUsage.Store.Validity MeteredUsage.Store.Statements MeteredUsage.Store.Landing
open MeteredUsage.Store.Intake MeteredUsage.Library.Keyed MeteredUsage.Library.Transaction

variable {charged : Prop} {runtime : Sql.Runtime} {source : SourceId} {base tables : Tables}
  {records : List Incoming}

/-- Every account is in its source, and was first seen when it was. -/
def Stands (before after : List Account) : Prop :=
  ∀ account ∈ before, ∃ row ∈ after,
    row.id = account.id ∧ row.sourceId = account.sourceId ∧ row.firstSeenAt = account.firstSeenAt

theorem Stands.refl (accounts : List Account) : Stands accounts accounts :=
  fun account member => ⟨account, member, rfl, rfl, rfl⟩

theorem Stands.map {before after : List Account} (stands : Stands before after)
    {change : Account → Account} (keeps : KeepsIdentity change)
    (seenAt : ∀ account, (change account).firstSeenAt = account.firstSeenAt) :
    Stands before (after.map change) := by
  intro account member
  obtain ⟨row, kept, same, inSource, seen⟩ := stands account member
  exact ⟨change row, List.mem_map_of_mem kept, (keeps.id row).trans same,
    (keeps.sourceId row).trans inSource, (seenAt row).trans seen⟩

/-- The accounts of a state stand as those of a write's start. -/
def Standing (base tables : Tables) : Prop := Stands base.accounts tables.accounts

theorem standing_of_same (same : tables.accounts = base.accounts) : Standing base tables := by
  rw [Standing, same]
  exact .refl _

theorem beside_standing : Sparing.Beside (Standing base) := fun _ _ stands _ accounts => by
  rw [Standing, accounts]
  exact stands

theorem holds_rename (id : AccountId) (displayName : Option String) :
    Holds (fun tables => tables = base) (AccountWrites.rename runtime id displayName)
      (OnCommit (Standing base)) := by
  apply beside_standing.holds_rename
  apply (Stands.refl base.accounts).map
    ((keeps_rename displayName).onlyWhere fun account => account.id = id)
  intro account
  split <;> rfl

theorem registering_standing : Sparing.Registering source (Standing base) where
  registered := by
    intro candidate provider account observedAt tables next stored stands taken
    obtain ⟨_, ⟨known, _, _, rfl⟩ | ⟨_, _, rfl⟩⟩ := upsert_eq taken
    · apply Stands.map stands ((keeps_listed account provider).onlyWhere fun other =>
        holdsKey source (account.key provider) other = true)
      intro other
      split <;> rfl
    · intro other member
      obtain ⟨row, kept, seen⟩ := stands other member
      exact ⟨row, List.mem_append_left _ kept, seen⟩
  beside := beside_standing

theorem holds_store (listing : Credentials.AuthFiles) :
    Holds (fun tables => tables = base) (Quota.store runtime source listing)
      (OnCommit (Standing base)) :=
  registering_standing.holds_store (Stands.refl base.accounts) listing

section Bounds

variable {Instant : Type*} [LinearOrder Instant] {first bound : Instant} {rest : List Instant}

theorem le_foldl_min_iff : bound ≤ rest.foldl min first ↔ bound ≤ first ∧ ∀ instant ∈ rest, bound ≤ instant := by
  induction rest generalizing first with
  | nil => simp
  | cons next rest ih => simp [ih, and_assoc]

theorem foldl_max_le_iff : rest.foldl max first ≤ bound ↔ first ≤ bound ∧ ∀ instant ∈ rest, instant ≤ bound := by
  induction rest generalizing first with
  | nil => simp
  | cons next rest ih => simp [ih, and_assoc]

theorem foldl_min_eq_iff : rest.foldl min first = first ↔ ∀ instant ∈ rest, first ≤ instant := by
  constructor
  · exact fun same => (le_foldl_min_iff.mp same.ge).2
  · exact fun all => le_antisymm (le_foldl_min_iff.mp le_rfl).1 (le_foldl_min_iff.mpr ⟨le_rfl, all⟩)

theorem foldl_max_eq_iff : rest.foldl max first = first ↔ ∀ instant ∈ rest, instant ≤ first := by
  constructor
  · exact fun same => (foldl_max_le_iff.mp same.le).2
  · exact fun all => le_antisymm (foldl_max_le_iff.mpr ⟨le_rfl, all⟩) (foldl_max_le_iff.mp le_rfl).1

end Bounds

section Batches

/-- The request went through the credential of a row. -/
def names (source : SourceId) (account : Account) (event : NewUsageEvent) : Bool :=
  holdsKey source (event.account.key event.provider) account

/-- The request went through the credential of a row or one merged into it. -/
def reaches (accounts : List Account) (source : SourceId) (account : Account) (event : NewUsageEvent) :
    Bool :=
  accounts.any fun row => names source row event && (row.id = account.id || row.mergedInto = some account.id)

/-- When the requests that reach an account were made. -/
def instants (accounts : List Account) (source : SourceId) (records : List Incoming)
    (account : Account) : List Timestamp :=
  ((requestsIn records).filter (reaches accounts source account)).map (·.occurredAt)

/-- When an account was first seen by the end of a batch. -/
def earliest (accounts : List Account) (source : SourceId) (records : List Incoming)
    (account : Account) : Timestamp :=
  (instants accounts source records account).foldl min account.firstSeenAt

def latest (accounts : List Account) (source : SourceId) (records : List Incoming)
    (account : Account) : Timestamp :=
  (instants accounts source records account).foldl max account.lastSeenAt

/-- The sign-in kind the last request of a batch through a credential gives, if one does. -/
def lastKind (source : SourceId) (records : List Incoming) (account : Account) : Option AuthKind :=
  (((requestsIn records).filter (names source account)).map (·.account.authKind)).getLast?

/-- The label the last request of a batch that has one gives its credential. -/
def lastLabel (source : SourceId) (records : List Incoming) (account : Account) : Option String :=
  (((requestsIn records).filter (names source account)).filterMap (·.account.label)).getLast?

/-- The row of a known account after a batch. -/
def sighted (accounts : List Account) (source : SourceId) (records : List Incoming)
    (account : Account) : Account :=
  { account with
    authKind := (lastKind source records account).getD account.authKind
    label := (lastLabel source records account).or account.label
    firstSeenAt := earliest accounts source records account
    lastSeenAt := latest accounts source records account }

variable {accounts : List Account} {account known : Account} {event : NewUsageEvent}

theorem keeps_sighted : KeepsIdentity (sighted accounts source records) :=
  ⟨fun _ => rfl, fun _ => rfl, fun _ => rfl, fun _ => rfl⟩

theorem sighted_nil : sighted accounts source [] account = account := by
  simp [sighted, lastKind, lastLabel, earliest, latest, instants, requestsIn]

theorem sighted_rejected (error : String) (payload : Json) :
    sighted accounts source (records ++ [.rejected error payload]) account =
      sighted accounts source records account := by
  simp [sighted, lastKind, lastLabel, earliest, latest, instants]

/-- The row of a credential as a request through it leaves it, but for its window. -/
def relabelled (new : NewAccount) (account : Account) : Account :=
  { account with authKind := new.authKind, label := new.label.or account.label }

/-- One more request: the row it went through takes what it says, and those it reaches widen. -/
theorem sighted_record : sighted accounts source (records ++ [.record event]) account =
    let row := sighted accounts source records account
    let row := if names source account event then relabelled event.account row else row
    if reaches accounts source account event then widen event.occurredAt event.occurredAt row else row := by
  cases named : names source account event <;> cases reached : reaches accounts source account event <;>
    cases label : event.account.label <;>
    simp [sighted, lastKind, lastLabel, earliest, latest, instants, named, reached, label, relabelled, widen,
      List.filter_append, List.filterMap_append]

/-- A request reaches the account of its own credential and the one that is merged into. -/
theorem reaches_iff (valid : Valid charged tables) (stored : known ∈ tables.accounts)
    (named : names source known event = true) (member : account ∈ tables.accounts) :
    reaches tables.accounts source account event = true ↔
      names source account event = true ∨ known.mergedInto = some account.id := by
  have one {row : Account} (kept : row ∈ tables.accounts) (again : names source row event = true) :
      row = known := by
    obtain ⟨inSource, key⟩ := holdsKey_iff.mp again
    obtain ⟨knownSource, knownKey⟩ := holdsKey_iff.mp named
    exact valid.accountKeys.eq_of_key kept stored
      (Prod.ext (inSource.trans knownSource.symm) (key.trans knownKey.symm))
  simp only [reaches, List.any_eq_true, Bool.and_eq_true, Bool.or_eq_true, decide_eq_true_eq]
  constructor
  · rintro ⟨row, kept, again, own | merged⟩
    · obtain rfl := one kept again
      obtain rfl := valid.sameAccount kept member own
      exact .inl again
    · obtain rfl := one kept again
      exact .inr merged
  · rintro (own | merged)
    · exact ⟨account, member, own, .inl rfl⟩
    · exact ⟨known, stored, named, .inr merged⟩

/-- A request reaches a merged account only through its own credential. -/
theorem names_of_reaches (valid : Valid charged tables) (member : account ∈ tables.accounts)
    (merged : account.mergedInto.isSome = true)
    (reached : reaches tables.accounts source account event = true) : names source account event = true := by
  simp only [reaches, List.any_eq_true, Bool.and_eq_true, Bool.or_eq_true, decide_eq_true_eq] at reached
  obtain ⟨row, kept, named, own | other⟩ := reached
  · exact valid.sameAccount kept member own ▸ named
  · obtain ⟨target, stored, same, _, root⟩ := valid.merges row kept account.id other
    rw [valid.sameAccount stored member same] at root
    rw [root] at merged
    cases merged

/-- A merged account keeps its window exactly where the requests through it were inside. -/
theorem window_kept_iff (valid : Valid charged tables) (member : account ∈ tables.accounts)
    (merged : account.mergedInto.isSome = true) :
    (earliest tables.accounts source records account = account.firstSeenAt ∧
        latest tables.accounts source records account = account.lastSeenAt) ↔
      ∀ event ∈ requestsIn records, names source account event = true →
        account.firstSeenAt ≤ event.occurredAt ∧ event.occurredAt ≤ account.lastSeenAt := by
  have reached {event : NewUsageEvent} :
      reaches tables.accounts source account event = true ↔ names source account event = true := by
    constructor
    · exact names_of_reaches valid member merged
    · exact fun named => (reaches_iff valid member named member).mpr (.inl named)
  rw [earliest, latest, foldl_min_eq_iff, foldl_max_eq_iff]
  simp only [instants, List.mem_map, List.mem_filter, reached]
  constructor
  · rintro ⟨early, late⟩ event made named
    exact ⟨early _ ⟨event, ⟨made, named⟩, rfl⟩, late _ ⟨event, ⟨made, named⟩, rfl⟩⟩
  · intro inside
    constructor
    · rintro _ ⟨event, ⟨made, named⟩, rfl⟩
      exact (inside event made named).1
    · rintro _ ⟨event, ⟨made, named⟩, rfl⟩
      exact (inside event made named).2

/-- A row that a batch created: a credential of its own, that the batch found no row of. -/
structure Created (base : Tables) (source : SourceId) (row : Account) : Prop where
  unmerged : row.mergedInto = none
  inSource : row.sourceId = source
  fresh : ∀ account ∈ base.accounts, account.id ≠ row.id
  free : ∀ account ∈ base.accounts, holdsKey source row.upstreamKey account = false

theorem Created.map {row : Account} (created : Created base source row) {change : Account → Account}
    (keeps : KeepsIdentity change) : Created base source (change row) where
  unmerged := (keeps.mergedInto row).trans created.unmerged
  inSource := (keeps.sourceId row).trans created.inSource
  fresh account member := (keeps.id row).symm ▸ created.fresh account member
  free account member := (keeps.upstreamKey row).symm ▸ created.free account member

/-- A row as a request through its credential leaves it, before the account it is merged into widens. -/
def resighted (source : SourceId) (event : NewUsageEvent) (row : Account) : Account :=
  if names source row event = true then seen event.account event.occurredAt row else row

theorem keeps_resighted : KeepsIdentity (resighted source event) :=
  (keeps_seen event.account event.occurredAt).onlyWhere fun row => names source row event = true

/-- The row a credential is merged into, as a request through the credential leaves it. -/
def widened (known : Account) (event : NewUsageEvent) (row : Account) : Account :=
  if known.mergedInto = some row.id then widen event.occurredAt event.occurredAt row else row

/-- A request through a known credential: its row is seen again, and so is the one it is merged into. -/
theorem attributed_known (valid : Valid charged base) (stored : known ∈ base.accounts)
    (named : names source known event = true) {created : List Account}
    (apart : ∀ row ∈ created, Created base source row) (candidate : AccountId) :
    attributed (event.account.row candidate source event.provider event.occurredAt) event.account
        event.occurredAt (base.accounts.map (sighted base.accounts source records) ++ created) =
      base.accounts.map (sighted base.accounts source (records ++ [.record event])) ++ created := by
  have found : (base.accounts.map (sighted base.accounts source records) ++ created).find?
      (holdsKey source (event.account.key event.provider)) =
        some (sighted base.accounts source records known) := by
    have first : base.accounts.find? (holdsKey source (event.account.key event.provider)) = some known := by
      obtain ⟨row, found⟩ := Option.isSome_iff_exists.mp (List.find?_isSome.mpr ⟨known, stored, named⟩)
      obtain ⟨inSource, key⟩ := holdsKey_iff.mp (List.find?_some found)
      obtain ⟨knownSource, knownKey⟩ := holdsKey_iff.mp named
      rw [found, valid.accountKeys.eq_of_key (List.mem_of_find?_eq_some found) stored
        (Prod.ext (inSource.trans knownSource.symm) (key.trans knownKey.symm))]
    rw [List.find?_append, find_map keeps_sighted, first]
    rfl
  have whole : attributed (event.account.row candidate source event.provider event.occurredAt)
      event.account event.occurredAt (base.accounts.map (sighted base.accounts source records) ++ created) =
        (base.accounts.map (sighted base.accounts source records) ++ created).map (widened known event ∘ resighted source event) := by
    simp only [attributed]
    rw [show (event.account.row candidate source event.provider event.occurredAt).sourceId = source from rfl,
      show (event.account.row candidate source event.provider event.occurredAt).upstreamKey =
        event.account.key event.provider from rfl, found]
    dsimp only
    rw [show (sighted base.accounts source records known).mergedInto = known.mergedInto from rfl]
    cases merged : known.mergedInto with
    | none =>
      apply List.map_congr_left
      intro row _
      simp only [Function.comp_apply, widened, merged, reduceCtorEq, if_false]
      rfl
    | some target =>
      dsimp only
      rw [List.map_map]
      apply List.map_congr_left
      intro row _
      simp only [Function.comp_apply, widened, merged, Option.some.injEq, @eq_comm _ target]
      rfl
  rw [whole, List.map_append, List.map_map]
  congr 1
  · apply List.map_congr_left
    intro account member
    have reached := reaches_iff valid stored named member
    have namedAs : names source (sighted base.accounts source records account) event =
        names source account event := rfl
    have kept : (sighted base.accounts source records account).id = account.id := rfl
    rw [sighted_record]
    simp only [Function.comp_apply, resighted, widened, namedAs]
    by_cases own : names source account event = true <;>
      by_cases merged : known.mergedInto = some account.id <;>
      simp [own, merged, reached, kept, seen, relabelled, widen]
  · refine (List.map_congr_left fun row member => ?_).trans (List.map_id _)
    have other : names source row event = false := by
      apply Bool.eq_false_iff.mpr
      intro again
      have free := (apart row member).free known stored
      rw [(holdsKey_iff.mp again).2] at free
      exact Bool.false_ne_true (free.symm.trans named)
    have elsewhere : known.mergedInto ≠ some row.id := by
      intro merged
      obtain ⟨target, targetStored, same, _⟩ := valid.merges known stored row.id merged
      exact (apart row member).fresh target targetStored same
    simp [resighted, widened, other, elsewhere]

/-- A request through an unknown credential leaves the known rows, and one row that is new. -/
theorem attributed_unknown (unknown : ∀ account ∈ base.accounts, names source account event = false)
    {created : List Account} (apart : ∀ row ∈ created, Created base source row) {candidate : AccountId}
    (unused : ∀ account ∈ base.accounts, account.id ≠ candidate) :
    ∃ later, later ≠ [] ∧ (∀ row ∈ later, Created base source row) ∧
      attributed (event.account.row candidate source event.provider event.occurredAt) event.account
          event.occurredAt (base.accounts.map (sighted base.accounts source records) ++ created) =
        base.accounts.map (sighted base.accounts source (records ++ [.record event])) ++ later := by
  have kept : base.accounts.map (sighted base.accounts source (records ++ [.record event])) =
      base.accounts.map (sighted base.accounts source records) := by
    apply List.map_congr_left
    intro account member
    have beyond : reaches base.accounts source account event = false := by
      apply List.any_eq_false.mpr
      intro row kept
      simp [unknown row kept]
    rw [sighted_record]
    simp [unknown account member, beyond]
  have missing : (base.accounts.map (sighted base.accounts source records)).find?
      (holdsKey source (event.account.key event.provider)) = none := by
    rw [find_map keeps_sighted, Option.map_eq_none_iff, List.find?_eq_none]
    intro account member
    exact Bool.eq_false_iff.mp (unknown account member)
  rw [kept]
  simp only [attributed]
  rw [show (event.account.row candidate source event.provider event.occurredAt).sourceId = source from rfl,
    show (event.account.row candidate source event.provider event.occurredAt).upstreamKey =
      event.account.key event.provider from rfl, List.find?_append, missing, Option.none_or]
  cases found : created.find? (holdsKey source (event.account.key event.provider)) with
  | none =>
    refine ⟨created ++ [event.account.row candidate source event.provider event.occurredAt], by simp, ?_,
      List.append_assoc _ _ _⟩
    intro row member
    rcases List.mem_append.mp member with earlier | last
    · exact apart row earlier
    · rw [List.mem_singleton.mp last]
      exact ⟨rfl, rfl, unused, unknown⟩
  | some row =>
    have stored := List.mem_of_find?_eq_some found
    refine ⟨created.map (resighted source event), ?_, ?_, ?_⟩
    · intro empty
      rw [List.map_eq_nil_iff.mp empty] at stored
      cases stored
    · intro other member
      obtain ⟨first, firstStored, rfl⟩ := List.mem_map.mp member
      exact (apart first firstStored).map keeps_resighted
    · dsimp only
      rw [(apart row stored).unmerged]
      dsimp only
      rw [List.map_append]
      congr 1
      refine (List.map_congr_left fun account member => ?_).trans (List.map_id _)
      obtain ⟨first, firstStored, rfl⟩ := List.mem_map.mp member
      exact if_neg (Bool.eq_false_iff.mp (unknown first firstStored))

/-- What a batch leaves: of every known row what its own requests say, of the credentials it found no
row of their own, and the other tables that suggestions are read from. -/
structure Sighted (source : SourceId) (base : Tables) (done : List Incoming) (tables : Tables) : Prop where
  accounts : ∃ created, tables.accounts =
      base.accounts.map (sighted base.accounts source done) ++ created ∧
    (∀ row ∈ created, Created base source row) ∧
    (created = [] ↔ ∀ event ∈ requestsIn done, ∃ account ∈ base.accounts, names source account event = true)
  sources : tables.sources = base.sources
  states : tables.states = base.states
  plans : tables.plans = base.plans
  dismissals : tables.dismissals = base.dismissals

theorem sighted_start (base : Tables) : Sighted source base [] base where
  accounts := by
    refine ⟨[], ?_, by simp, by simp [requestsIn]⟩
    rw [List.append_nil]
    exact ((List.map_congr_left fun account _ => sighted_nil).trans (List.map_id _)).symm
  sources := rfl
  states := rfl
  plans := rfl
  dismissals := rfl

theorem sighted_ignores {done : List Incoming} : IgnoresFeed (Sighted source base done) :=
  fun _ _ sighted => ⟨sighted.accounts, sighted.sources, sighted.states, sighted.plans, sighted.dismissals⟩

/-- One request leaves the accounts so, whether its event is stored already or not. -/
theorem Sighted.attributed (valid : Valid charged base) {done : List Incoming}
    (sights : Sighted source base done tables) {candidate : AccountId}
    (unused : ∀ account ∈ tables.accounts, account.id ≠ candidate) {next : Tables}
    (charged_ : next.accounts = Intake.attributed
      (event.account.row candidate source event.provider event.occurredAt) event.account event.occurredAt
      tables.accounts)
    (rest : next.sources = tables.sources ∧ next.states = tables.states ∧ next.plans = tables.plans ∧
      next.dismissals = tables.dismissals) : Sighted source base (done ++ [.record event]) next := by
  obtain ⟨created, same, apart, known⟩ := sights.accounts
  refine ⟨?_, rest.1.trans sights.sources, rest.2.1.trans sights.states, rest.2.2.1.trans sights.plans,
    rest.2.2.2.trans sights.dismissals⟩
  rw [charged_, same, requestsIn_append_record]
  by_cases found : ∃ account ∈ base.accounts, names source account event = true
  · obtain ⟨account, stored, named⟩ := found
    refine ⟨created, attributed_known valid stored named apart candidate, apart, ?_⟩
    rw [known]
    simp only [List.mem_append, List.mem_singleton]
    constructor
    · rintro all other (earlier | rfl)
      · exact all other earlier
      · exact ⟨account, stored, named⟩
    · exact fun all other earlier => all other (.inl earlier)
  · have unknown : ∀ account ∈ base.accounts, names source account event = false := fun account stored =>
      Bool.eq_false_iff.mpr fun named => found ⟨account, stored, named⟩
    have fresh : ∀ account ∈ base.accounts, account.id ≠ candidate := by
      intro account stored
      exact unused (sighted base.accounts source done account)
        (same ▸ List.mem_append_left _ (List.mem_map_of_mem stored))
    obtain ⟨later, present, stillApart, grown⟩ :=
      @attributed_unknown source base done event unknown created apart candidate fresh
    refine ⟨later, grown, stillApart, fun empty => absurd empty present, fun all => ?_⟩
    exact absurd (all event (by simp)) found

theorem Sighted.taken (valid : Valid charged base) {done : List Incoming} {record : Incoming}
    {progress next : Progress} {after : Tables} {receivedAt : Timestamp}
    (sights : Sighted source base done tables)
    (taken : Taken runtime source receivedAt tables progress record next after) :
    Sighted source base (done ++ [record]) after := by
  cases taken with
  | rejected error payload id =>
    refine ⟨?_, sights.sources, sights.states, sights.plans, sights.dismissals⟩
    obtain ⟨created, same, apart, known⟩ := sights.accounts
    refine ⟨created, ?_, apart, by rw [requestsIn_append_rejected, known]⟩
    rw [List.map_congr_left fun account _ => sighted_rejected error payload]
    exact same
  | duplicate event candidate owner isNewCredential accounts charged_ _ _ unused =>
    exact sights.attributed valid unused charged_ ⟨rfl, rfl, rfl, rfl⟩
  | accepted event candidate owner isNewCredential accounts id arrival stored charged_ _ _ _ appended unused =>
    subst appended
    exact sights.attributed valid unused charged_ ⟨rfl, rfl, rfl, rfl⟩

theorem holds_ingesting_sighted (valid : Valid charged base) (records : List Incoming)
    (receivedAt now : Timestamp) :
    Holds (fun tables => tables = base) (ingesting runtime source records receivedAt now)
      (OnCommit (Sighted source base records)) := by
  have taken : Holds (fun tables => Sighted source base [] tables)
      (ingesting runtime source records receivedAt now) fun ending tables =>
        ∀ progress, ending = .committed progress → Sighted source base records tables := by
    apply @holds_ingesting_taken runtime source fun done _ tables => Sighted source base done tables
    · exact fun _ _ => sighted_ignores
    · exact fun done record rest _ progress tables next after sights taken => sights.taken valid taken
  apply taken.weaken
  · rintro tables rfl
    exact sighted_start tables
  · intro ending tables committed
    cases ending with
    | committed progress => exact committed progress rfl
    | dropped _ => trivial

end Batches

end MeteredUsage.Store.FirstSeen
