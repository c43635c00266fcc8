import MeteredUsage.Store.Intake
import MeteredUsage.Store.Merged

/-! What the writes leave of the stored events and of the owner of each key: all but an ingest, a
merge and the pricing of events leave both as they were. -/

namespace MeteredUsage.Store.Sparing
open MeteredUsage.Values MeteredUsage.Store.Schema MeteredUsage.Store.Accounts
open MeteredUsage.Store.Validity MeteredUsage.Store.Snapshots MeteredUsage.Store.Statements
open MeteredUsage.Store.Landing MeteredUsage.Store.Links MeteredUsage.Store.Upkeep
open MeteredUsage.Store.Intake MeteredUsage.Library.Keyed MeteredUsage.Library.Transaction
open MeteredUsage.Changes.Table (Subject)

variable {runtime : Sql.Runtime} {source : SourceId} {base tables : Tables} {id : AccountId}

/-- The events as they were, and every key with the owner it had. -/
structure Spares (base tables : Tables) : Prop where
  events : tables.events = base.events
  owners : ∀ source key owner, ownerOf base.accounts source key = some owner →
    ownerOf tables.accounts source key = some owner

theorem Spares.refl (base : Tables) : Spares base base := ⟨rfl, fun _ _ _ owned => owned⟩

/-- A statement on other tables. -/
theorem Spares.beside (spares : Spares base tables) {next : Tables}
    (events : next.events = tables.events) (accounts : next.accounts = tables.accounts) :
    Spares base next :=
  ⟨events.trans spares.events, accounts ▸ spares.owners⟩

theorem Spares.mapAccounts (spares : Spares base tables) {change : Account → Account}
    (keeps : KeepsIdentity change) :
    Spares base { tables with accounts := tables.accounts.map change } where
  events := spares.events
  owners source key owner owned := (ownerOf_map keeps _ source key).trans
    (spares.owners source key owner owned)

theorem Spares.upsert (spares : Spares base tables) {row stored : Account}
    {conflict : Account → Account} {next : Tables} (keeps : KeepsIdentity conflict)
    (upserted : upsert row conflict tables = some (stored, next)) : Spares base next := by
  obtain ⟨_, ⟨known, _, _, rfl⟩ | ⟨_, _, rfl⟩⟩ := upsert_eq upserted
  · exact spares.mapAccounts (keeps.onlyWhere fun account =>
      holdsKey row.sourceId row.upstreamKey account = true)
  · refine ⟨spares.events, fun source key owner owned => ?_⟩
    have kept := spares.owners source key owner owned
    unfold ownerOf at kept ⊢
    obtain ⟨account, found, named⟩ := Option.map_eq_some_iff.mp kept
    rw [List.find?_append, found]
    exact congrArg some named

section Beside

variable {kept : Tables → Prop}

/-- A condition on the events and the accounts. -/
def Beside (kept : Tables → Prop) : Prop :=
  ∀ ⦃tables next : Tables⦄, kept tables → next.events = tables.events → next.accounts = tables.accounts → kept next

theorem Beside.ignores (beside : Beside kept) : IgnoresFeed kept := fun _ _ still => beside still rfl rfl

theorem Beside.recorded (beside : Beside kept) (still : kept tables) {subjects : List Subject} {after : Tables}
    (recorded : Recorded tables subjects after) : kept after := by
  obtain ⟨entries, rfl, _⟩ := recorded
  exact beside still rfl rfl

/-- A write ends with the comparison of what it changed. -/
theorem Beside.holds_landing {Value : Type} (beside : Beside kept) (snapshot : Snapshot) (value : Value) :
    Holds kept
      (do
        recordChanges runtime snapshot
        commit (.database .query) value)
      (OnCommit kept) :=
  (holds_recordChanges beside.ignores snapshot).bind fun _ => holds_commit value

theorem Beside.holds_rename (beside : Beside kept) (id : AccountId) (displayName : Option String)
    (renamed : kept (updateAccount id (AccountWrites.withName displayName) base)) :
    Holds (fun tables => tables = base) (AccountWrites.rename runtime id displayName) (OnCommit kept) := by
  apply read_then
  intro now
  apply fetch_at
  apply execute_at
  split
  case isFalse => exact holds_dropped _
  apply (beside.holds_landing _ _).weaken
  · exact fun _ same => same ▸ renamed
  · exact fun _ _ ended => ended

/-- What a registration keeps. -/
structure Registering (source : SourceId) (kept : Tables → Prop) : Prop where
  registered : ∀ {candidate : AccountId} {provider : String} {account : NewAccount} {observedAt : Timestamp}
    {tables next : Tables} {stored : Account}, kept tables →
    upsert (account.row candidate source provider observedAt) (listed account provider) tables =
      some (stored, next) → kept next
  beside : Beside kept

theorem Registering.holds_register (registering : Registering source kept) (candidate : AccountId)
    (provider : String) (account : NewAccount) (observedAt : Timestamp) :
    Holds kept (register candidate source provider account observedAt) fun _ => kept := by
  have upserted : Holds kept
      (attempt (upsert (account.row candidate source provider observedAt) (listed account provider)))
      fun _ => kept := holds_attempt fun _ _ _ still taken => registering.registered still taken
  exact upserted.bind fun _ => Holds.pure fun _ still => still

theorem Registering.holds_observe (registering : Registering source kept) (accountId : AccountId)
    (file : Credentials.AuthFile) (observedAt : Timestamp) (hardRefreshable : Bool) :
    Holds kept (Credentials.observe runtime accountId file observedAt hardRefreshable) fun _ => kept := by
  apply holds_attempt
  intro tables _ next still taken
  unfold Credentials.upsertState at taken
  split at taken
  next =>
    cases taken
    exact registering.beside still rfl rfl
  next =>
    split at taken
    next =>
      cases taken
      exact registering.beside still rfl rfl
    next => cases taken

theorem Registering.holds_storeFile (registering : Registering source kept) (observedAt : Timestamp)
    (file : Credentials.AuthFile) (authIndex : String) :
    Holds kept (Quota.storeFile runtime source observedAt file authIndex) fun _ => kept := by
  apply Holds.nextId_then
  intro candidate
  apply (registering.holds_register _ _ _ _).bind
  intro accountId
  apply (registering.holds_observe _ _ _ _).bind
  exact fun _ => Holds.pure fun _ still => still

theorem Registering.holds_storeNext (registering : Registering source kept) (observedAt : Timestamp)
    (listed : Quota.Listed) (file : Credentials.AuthFile) :
    Holds kept (Quota.storeNext runtime source observedAt listed file) fun _ => kept := by
  unfold Quota.storeNext
  split
  next => exact Holds.pure fun _ still => still
  next authIndex _ =>
    apply (registering.holds_storeFile observedAt file authIndex).bind
    exact fun _ => Holds.pure fun _ still => still

/-- A list keeps whatever its registrations keep. -/
theorem Registering.holds_store (registering : Registering source kept) (initial : kept base)
    (listing : Credentials.AuthFiles) :
    Holds (fun tables => tables = base) (Quota.store runtime source listing) (OnCommit kept) := by
  apply read_then
  intro now
  have stored : Holds (fun tables => tables = base)
      (listing.files.foldlM (Quota.storeNext runtime source listing.observedAt)
        ⟨[], listing.isComplete⟩) fun _ => kept :=
    (Holds.foldlM_keeps fun file _ listed =>
      registering.holds_storeNext listing.observedAt listed file).weaken
      (fun _ same => same ▸ initial) fun _ _ still => still
  apply stored.bind
  intro listed
  have marked : Holds kept (onlyIf listed.isComplete (Credentials.markUnlisted source listing.observedAt))
      fun _ => kept :=
    Holds.onlyIf (fun _ => holds_execute fun _ still => registering.beside still rfl rfl)
      fun _ _ still => still
  exact marked.bind fun _ => registering.beside.holds_landing _ _

/-- Work on one account's quota between the two reads of its comparison. -/
theorem Beside.holds_comparing (beside : Beside kept) (initial : kept base) {work : Write Unit}
    (works : Holds kept work fun _ => kept) :
    Holds (fun tables => tables = base) (reading >>= comparing runtime id work) (OnCommit kept) := by
  apply Holds.reading_then
  intro now
  apply read_at
  have worked : Holds (fun tables => tables = base) work fun _ => kept :=
    works.weaken (fun _ same => same ▸ initial) fun _ _ still => still
  exact worked.bind fun _ => beside.holds_landing _ _

theorem Beside.holds_clearCredits (beside : Beside kept) (id : AccountId) :
    Holds kept (execute (Windows.clearCredits id)) fun _ => kept :=
  holds_execute fun _ still => beside still rfl rfl

theorem Beside.holds_replace (beside : Beside kept) (windows : List Windows.NewWindow) (observedAt : Timestamp) :
    Holds kept (Windows.replace runtime id windows observedAt) fun _ => kept := by
  apply fetch_then
  intro stored
  have deleted : Holds (fun tables => kept tables ∧
      stored = tables.windows.filter (·.accountId = id))
      (execute (Windows.deleteWindows fun window =>
        window.accountId = id && window.windowKey ≠ Windows.responseKey)) fun _ => kept :=
    holds_execute fun _ both => beside both.1 rfl rfl
  apply deleted.bind
  intro _
  apply Holds.forM
  intro window _
  have inserted : Holds kept
      (attempt (Windows.insertWindow (window.row stored id observedAt))) fun _ => kept := by
    apply holds_attempt
    intro tables _ next still taken
    unfold Windows.insertWindow at taken
    split at taken
    next => cases taken
    next =>
      split at taken
      next =>
        cases taken
        exact beside still rfl rfl
      next => cases taken
  apply inserted.bind
  intro _
  unfold Windows.recordSample
  split
  next => exact holds_execute fun _ still => beside still rfl rfl
  next => exact Holds.pure fun _ still => still

theorem Beside.holds_storeResets (beside : Beside kept) (resets : Quota.ManualResets) :
    Holds kept (Quota.storeResets id resets) fun _ => kept := by
  cases resets with
  | unchanged => exact Holds.pure fun _ still => still
  | reported grants =>
    apply (beside.holds_clearCredits id).bind
    intro _
    apply Holds.forM
    intro grant _
    apply holds_attempt
    intro tables _ next still taken
    unfold Windows.insertCredit at taken
    split at taken
    next =>
      cases taken
      exact beside still rfl rfl
    next => cases taken

theorem Beside.holds_refreshed (beside : Beside kept) (refreshedAt : Timestamp)
    (outcome : Except Credentials.RefreshError (Option String)) :
    Holds kept (Credentials.refreshed id refreshedAt outcome) fun _ => kept :=
  holds_execute fun _ still => beside still rfl rfl

theorem Beside.holds_recordRefresh (beside : Beside kept) (initial : kept base)
    (result : Except Credentials.RefreshError Quota.Observation) (refreshedAt : Timestamp) :
    Holds (fun tables => tables = base) (Quota.recordRefresh runtime id result refreshedAt)
      (OnCommit kept) := by
  rw [recordRefresh_eq]
  apply beside.holds_comparing initial
  cases result with
  | error error => exact beside.holds_refreshed refreshedAt _
  | ok observation =>
    have forgot : Holds kept
        (execute fun tables => { tables with
          recoveries := tables.recoveries.filter (·.accountId ≠ id) }) fun _ => kept :=
      holds_execute fun _ still => beside still rfl rfl
    apply forgot.bind
    intro _
    apply (beside.holds_replace _ _).bind
    intro _
    apply (beside.holds_storeResets _).bind
    exact fun _ => beside.holds_refreshed refreshedAt _

theorem Beside.holds_clear (beside : Beside kept) (initial : kept base) :
    Holds (fun tables => tables = base) (Quota.clear runtime id) (OnCommit kept) := by
  rw [clear_eq]
  exact beside.holds_comparing initial (beside.holds_clearCredits id)

end Beside

theorem beside_spares : Beside (Spares base) := fun _ _ spares events accounts => spares.beside events accounts

theorem registering_spares : Registering source (Spares base) where
  registered spares taken := spares.upsert (keeps_listed _ _) taken
  beside := beside_spares

theorem holds_rename (id : AccountId) (displayName : Option String) :
    Holds (fun tables => tables = base) (AccountWrites.rename runtime id displayName)
      (OnCommit (Spares base)) :=
  beside_spares.holds_rename id displayName ((Spares.refl base).mapAccounts
    ((keeps_rename displayName).onlyWhere fun account => account.id = id))

/-- An owner as a merge of one account into another leaves it. -/
def moved (id into owner : AccountId) : AccountId := if owner = id then into else owner

/-- An event as a merge leaves it. -/
def movedEvent (id into : AccountId) (event : UsageEvent) : UsageEvent :=
  { event with accountId := moved id into event.accountId }

/-- What a merge leaves: every event and every key on the account it moved to. -/
structure Moves (id into : AccountId) (base tables : Tables) : Prop where
  events : tables.events = base.events.map (movedEvent id into)
  owners : ∀ source key, ownerOf tables.accounts source key =
    (ownerOf base.accounts source key).map (moved id into)

theorem moves_ignores {into : AccountId} : IgnoresFeed (Moves id into base) := fun _ _ moves =>
  ⟨moves.events, moves.owners⟩

theorem moveEvents_eq (into : AccountId) (tables : Tables) :
    (AccountWrites.moveEvents id into tables).events = tables.events.map (movedEvent id into) := by
  apply List.map_congr_left
  intro event _
  unfold movedEvent moved
  split <;> rfl

/-- Whoever points at a merged account points at the other one after the merge. -/
theorem ownerOf_pointAt (into : AccountId)
    (unmerged : ∀ account ∈ tables.accounts, account.id = id → account.mergedInto = none)
    (source : SourceId) (key : String) :
    ownerOf (AccountWrites.pointAt id into tables).accounts source key =
      (ownerOf tables.accounts source key).map (moved id into) := by
  let pointed (account : Account) : Account :=
    if account.id = id ∨ account.mergedInto = some id then { account with mergedInto := some into }
    else account
  have same : holdsKey source key ∘ pointed = holdsKey source key := by
    funext account
    simp only [Function.comp_apply, pointed]
    split <;> rfl
  change ((tables.accounts.map pointed).find? (holdsKey source key)).map root = _
  rw [List.find?_map, same, ownerOf]
  cases found : tables.accounts.find? (holdsKey source key) with
  | none => rfl
  | some account =>
    apply congrArg some
    by_cases named : account.id = id
    · have alone := unmerged account (List.mem_of_find?_eq_some found) named
      simp [pointed, root, moved, named, alone]
    · cases target : account.mergedInto with
      | none => simp [pointed, root, moved, named, target]
      | some other => by_cases points : other = id <;> simp [pointed, root, moved, named, target, points]

theorem holds_combine {into : AccountId} (merged : Account)
    (unmerged : ∀ account ∈ base.accounts, account.id = id → account.mergedInto = none) :
    Holds (fun tables => tables = base) (AccountWrites.combine id into merged)
      fun _ => Moves id into base := by
  let half (accounts : List Account) (tables : Tables) : Prop :=
    tables.events = base.events.map (movedEvent id into) ∧ tables.accounts = accounts
  have ignores : IgnoresFeed (half base.accounts) := fun _ _ kept => kept
  apply fetch_at
  have emptied : Holds (fun tables => tables = base) (execute (AccountWrites.moveEvents id into))
      fun _ => half base.accounts := by
    apply holds_execute
    rintro tables rfl
    exact ⟨moveEvents_eq into tables, rfl⟩
  apply emptied.bind
  intro _
  apply (Holds.onlyIf (fun _ => holds_record ignores .usage) fun _ _ kept => kept).bind
  intro _
  have planned : Holds (half base.accounts) (execute (AccountWrites.movePlans id into))
      fun _ => half base.accounts := holds_execute fun _ kept => kept
  apply planned.bind
  intro _
  have pointed : Holds (half base.accounts) (execute (AccountWrites.pointAt id into))
      fun _ => Moves id into base := by
    apply holds_execute
    rintro tables ⟨events, accounts⟩
    refine ⟨events, fun source key => ?_⟩
    rw [ownerOf_pointAt into (accounts ▸ unmerged), accounts]
  apply pointed.bind
  intro _
  apply holds_execute
  intro tables moves
  refine ⟨moves.events, fun source key => ?_⟩
  have keeps := (keeps_widen merged.firstSeenAt merged.lastSeenAt).onlyWhere
    fun account => account.id = into
  exact (ownerOf_map keeps _ source key).trans (moves.owners source key)

theorem holds_merge {charged : Prop} (valid : Valid charged base) (id into : AccountId)
    (requires : Bool) :
    Holds (fun tables => tables = base) (AccountWrites.merge runtime id into requires)
      (OnCommit (Moves id into base)) := by
  apply Holds.refuseIf_then
  intro _
  apply fetch_at
  apply Holds.require_then
  intro merged mergedFound
  apply fetch_at
  apply Holds.require_then
  intro target _
  apply Holds.refuseIf_then
  intro _
  apply Holds.refuseIf_then
  intro mergedRoot
  apply Holds.refuseIf_then
  intro _
  have rechecked : Holds (fun tables => tables = base)
      (onlyIf requires do
        let continuation ← fetch (Continuations.load · id into)
        refuseIf continuation.isNone (.merge .continuationChanged))
      fun _ tables => tables = base :=
    Holds.onlyIf (fun _ => fetch_at (Holds.refuseIf fun _ _ same => same)) fun _ _ same => same
  apply rechecked.bind
  intro _
  apply read_then
  intro now
  obtain ⟨mergedStored, mergedId⟩ := (accountOf_eq_some valid).mp mergedFound
  have unmerged : ∀ account ∈ base.accounts, account.id = id → account.mergedInto = none := by
    intro account member named
    rw [valid.sameAccount member mergedStored (named.trans mergedId.symm)]
    simpa using mergedRoot
  apply (holds_combine merged unmerged).bind
  intro _
  exact (holds_recordChanges moves_ignores _).bind fun _ => holds_commit _

end MeteredUsage.Store.Sparing
