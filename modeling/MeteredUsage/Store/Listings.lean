import MeteredUsage.Library.Sightings
import MeteredUsage.Store.Sparing

/-! What the credential lists of one source leave of each credential, in whichever order they are
stored: what a run of sightings leaves of it, whose names are the lists that name the credential. -/

namespace MeteredUsage.Store.Listings
open MeteredUsage.Values MeteredUsage.Store.Schema MeteredUsage.Store.Accounts
open MeteredUsage.Store.Credentials MeteredUsage.Store.Quota MeteredUsage.Store.Validity
open MeteredUsage.Store.Statements MeteredUsage.Store.Commands
open MeteredUsage.Store.Intake (root ownerOf ownerOf_map upsert_eq)
open MeteredUsage.Library.Keyed MeteredUsage.Library.Transaction MeteredUsage.Library.Execution
open MeteredUsage.Library.Sightings (Sighting follow followAll lastNamed Marked Planned)

variable {charged : Prop} {runtime : Sql.Runtime} {source : SourceId} {base tables next : Tables}

/-- Two keys of one credential: one key, or two that one account answers. -/
def OneCredential (base : Tables) (source : SourceId) (key other : String) : Prop :=
  key = other ∨ (ownerOf base.accounts source key).isSome = true ∧
    ownerOf base.accounts source key = ownerOf base.accounts source other

instance {key other : String} : Decidable (OneCredential base source key other) :=
  inferInstanceAs (Decidable (_ ∨ _))

/-- What is stored of a key's credential, without the id its account was created under. -/
def stateOf (tables : Tables) (source : SourceId) (key : String) : Option CredentialState :=
  ((ownerOf tables.accounts source key).bind (lookup CredentialState.accountId tables.states)).map
    fun state => { state with accountId := 0 }

/-- The columns a list writes whole. -/
def statusOf (state : CredentialState) : CredentialState :=
  { state with
    accountId := 0
    plan := none
    softObservedAt := none
    removedAt := none
    hardRefreshedAt := none
    hardRefreshError := none
    signInError := none }

/-- The columns only hard refreshes write. -/
def refreshOf (state : CredentialState) : Option Timestamp × Option String × Option SignInError :=
  (state.hardRefreshedAt, state.hardRefreshError, state.signInError)

/-- A state as the lists that lead to it leave it. -/
abbrev View := Library.Sightings.Entry Timestamp CredentialState String

def viewOf (state : CredentialState) : View :=
  ⟨state.softObservedAt.getD 0, statusOf state, state.plan, state.removedAt⟩

def viewed (tables : Tables) (source : SourceId) (key : String) : Option View :=
  (stateOf tables source key).map viewOf

/-- Whether a provider can hard refresh a listed credential. -/
def isRefreshable (runtime : Sql.Runtime) (file : AuthFile) : Bool :=
  ((Provider.parse ((file.entry.providerName runtime).getD "unknown")).filter
    (·.canRefresh file)).isSome

/-- What a list says of a credential it names. -/
def report (runtime : Sql.Runtime) (file : AuthFile) : CredentialState × Option String :=
  (statusOf (file.state runtime 0 0 (isRefreshable runtime file)), file.entry.planType runtime)

/-- Whether a listed entry is of the key's credential. -/
def isOf (base : Tables) (source : SourceId) (key : String) (file : AuthFile) : Bool :=
  (authIndexOf file).any fun authIndex => decide (OneCredential base source key authIndex)

/-- A list as it bears on one credential. -/
def sighting (runtime : Sql.Runtime) (base : Tables) (source : SourceId) (key : String)
    (listing : AuthFiles) : Sighting Timestamp CredentialState String :=
  ⟨listing.observedAt, lastNamed ((listing.files.filter (isOf base source key)).map (report runtime))⟩

/-- The list holds every credential CLIProxy knows, and no entry of it is skipped. -/
structure Complete (listing : AuthFiles) : Prop where
  whole : listing.isComplete = true
  named : ∀ file ∈ listing.files, (authIndexOf file).isSome = true

/-- The accounts after some lists: every key has the owner it had, and a key without one has an
account of its own. -/
structure Grown (charged : Prop) (source : SourceId) (base tables : Tables) : Prop where
  valid : Valid charged tables
  owners : ∀ key id, ownerOf base.accounts source key = some id →
    ownerOf tables.accounts source key = some id
  apart : ∀ key other id, ownerOf tables.accounts source key = some id →
    ownerOf tables.accounts source other = some id → OneCredential base source key other

theorem Grown.start (valid : Valid charged base) : Grown charged source base base where
  valid := valid
  owners _ _ owned := owned
  apart key other id left right := .inr ⟨by simp [left], left.trans right.symm⟩

theorem Grown.owner_iff (grown : Grown charged source base tables) {key other : String} {id : AccountId}
    (owned : ownerOf tables.accounts source other = some id) :
    ownerOf tables.accounts source key = some id ↔ OneCredential base source key other := by
  constructor
  · exact fun same => grown.apart key other id same owned
  · rintro (rfl | ⟨known, same⟩)
    · exact owned
    · obtain ⟨owner, keyOwned⟩ := Option.isSome_iff_exists.mp known
      have otherOwned := grown.owners other owner (same ▸ keyOwned)
      rw [grown.owners key owner keyOwned, ← otherOwned, owned]

theorem ownerOf_append (accounts : List Account) (row : Account) (key : String) :
    ownerOf (accounts ++ [row]) source key =
      (ownerOf accounts source key).or (if holdsKey source key row then some (root row) else none) := by
  unfold ownerOf
  rw [List.find?_append]
  cases accounts.find? (holdsKey source key) with
  | none => by_cases named : holdsKey source key row = true <;> simp [named]
  | some known => rfl

theorem absorbs_owner (valid : Valid charged tables) {key : String} {id : AccountId}
    (owned : ownerOf tables.accounts source key = some id) : Absorbs tables.accounts source id := by
  obtain ⟨account, found, rfl⟩ := Option.map_eq_some_iff.mp owned
  have held := holdsKey_iff.mp (by simpa using List.find?_some found)
  have absorbs := valid.absorbs (List.mem_of_find?_eq_some found)
  rw [held.1] at absorbs
  exact absorbs

/-- A credential that is listed for the first time has an account of its own, and no state. -/
theorem Grown.append (grown : Grown charged source base tables) {row : Account}
    (unused : ∀ account ∈ tables.accounts, account.id ≠ row.id) (inSource : row.sourceId = source)
    (unmerged : row.mergedInto = none)
    (valid : Valid charged { tables with accounts := tables.accounts ++ [row] }) :
    Grown charged source base { tables with accounts := tables.accounts ++ [row] } ∧
      ∀ key, stateOf { tables with accounts := tables.accounts ++ [row] } source key =
        stateOf tables source key := by
  have own : root row = row.id := by rw [root, unmerged, Option.getD_none]
  have fresh {key : String} {id : AccountId} (owned : ownerOf tables.accounts source key = some id) :
      id ≠ row.id := by
    obtain ⟨account, member, rfl, _⟩ := absorbs_owner grown.valid owned
    exact unused account member
  have owner (key : String) : ownerOf (tables.accounts ++ [row]) source key =
      (ownerOf tables.accounts source key).or (if key = row.upstreamKey then some row.id else none) := by
    rw [ownerOf_append, own]
    congr 2
    rw [eq_iff_iff, holdsKey_iff]
    exact ⟨fun held => held.2.symm, fun same => ⟨inSource, same.symm⟩⟩
  refine ⟨⟨valid, fun key id owned => ?_, fun key other id left right => ?_⟩, fun key => ?_⟩
  · change ownerOf (tables.accounts ++ [row]) source key = some id
    rw [owner, grown.owners key id owned]
    rfl
  · change ownerOf (tables.accounts ++ [row]) source _ = some id at left right
    rw [owner] at left right
    rcases Option.eq_none_or_eq_some (ownerOf tables.accounts source key) with free | ⟨keyOwner, keyOwned⟩ <;>
    rcases Option.eq_none_or_eq_some (ownerOf tables.accounts source other) with
      otherFree | ⟨otherOwner, otherOwned⟩
    · have named : key = row.upstreamKey ∧ other = row.upstreamKey := by
        simp only [free, otherFree, Option.none_or] at left right
        exact ⟨by_contra fun apart => by simp [apart] at left, by_contra fun apart => by simp [apart] at right⟩
      exact .inl (named.1.trans named.2.symm)
    · simp only [free, otherOwned, Option.none_or, Option.some_or] at left right
      have mine := fresh otherOwned
      split at left
      next => exact absurd (Option.some.inj (right.trans left.symm)) mine
      next => cases left
    · simp only [keyOwned, otherFree, Option.none_or, Option.some_or] at left right
      have mine := fresh keyOwned
      split at right
      next => exact absurd (Option.some.inj (left.trans right.symm)) mine
      next => cases right
    · rw [keyOwned] at left
      rw [otherOwned] at right
      exact grown.apart key other id (keyOwned.trans left) (otherOwned.trans right)
  · unfold stateOf
    rw [owner]
    rcases Option.eq_none_or_eq_some (ownerOf tables.accounts source key) with free | ⟨id, owned⟩
    · rw [free, Option.none_or]
      split
      next named =>
        have unknown : lookup CredentialState.accountId tables.states row.id = none := by
          rw [lookup_eq_none]
          intro state member same
          obtain ⟨account, stored, held⟩ := grown.valid.stateAccounts state member
          exact unused account stored (held.trans same)
        simp [unknown]
      next => rfl
    · rw [owned]
      rfl

/-- Registering a listed credential gives its key an owner, and leaves every state. -/
theorem holds_register (grown : Grown charged source base tables) (candidate : AccountId)
    (provider : String) (account : NewAccount) (observedAt : Timestamp) :
    Holds (fun current => current = tables) (register candidate source provider account observedAt)
      fun id next => Grown charged source base next ∧
        ownerOf next.accounts source (account.key provider) = some id ∧
        ∀ key, stateOf next source key = stateOf tables source key := by
  apply attempt_at
  intro stored middle taken
  apply Holds.pure
  rintro after rfl
  have valid : Valid charged after := (grown.valid.upsert (keeps_listed account provider) rfl taken).1
  obtain ⟨unused, ⟨known, found, rfl, rfl⟩ | ⟨absent, rfl, rfl⟩⟩ := upsert_eq taken
  · have keeps := (keeps_listed account provider).onlyWhere fun other =>
      holdsKey source (account.key provider) other = true
    have same (key : String) := ownerOf_map keeps tables.accounts source key
    refine ⟨⟨valid, fun key id owned => (same key).trans (grown.owners key id owned),
      fun key other id left right => ?_⟩, ?_, fun key => ?_⟩
    · exact grown.apart key other id ((same key).symm.trans left) ((same other).symm.trans right)
    · exact (same _).trans (congrArg (Option.map root) found)
    · exact congrArg (fun owner => (Option.bind owner
        (lookup CredentialState.accountId tables.states)).map fun state => { state with accountId := 0 })
        (same key)
  · have free : ownerOf tables.accounts source (account.key provider) = none := by
      rw [ownerOf]
      exact congrArg (Option.map root) absent
    obtain ⟨next, states⟩ := @Grown.append _ _ _ _ grown
      (account.row candidate source provider observedAt) unused rfl rfl valid
    refine ⟨next, ?_, states⟩
    have named : holdsKey source (account.key provider)
        (account.row candidate source provider observedAt) = true := holdsKey_iff.mpr ⟨rfl, rfl⟩
    exact (ownerOf_append _ _ _).trans (by rw [free, if_pos named]; rfl)

/-- What a list's row leaves of the state that is stored, if any. -/
def taken (row : CredentialState) (stored : Option CredentialState) : CredentialState :=
  stored.elim row (observed row)

theorem taken_accountId {row stored : CredentialState} (same : stored.accountId = row.accountId) :
    (observed row stored).accountId = stored.accountId := by
  unfold observed
  split
  next => exact same.symm
  next => rfl

theorem upsertState_eq {row : CredentialState} (upserted : upsertState row tables = some ((), next)) :
    next.accounts = tables.accounts ∧ ∀ id, lookup CredentialState.accountId next.states id =
      if id = row.accountId then
        some (taken row (lookup CredentialState.accountId tables.states id))
      else lookup CredentialState.accountId tables.states id := by
  unfold upsertState at upserted
  split at upserted
  next known =>
    cases upserted
    refine ⟨rfl, fun id => ?_⟩
    have keeps (stored : CredentialState) : (if stored.accountId = row.accountId then observed row stored
        else stored).accountId = stored.accountId := by
      split
      next same => exact taken_accountId same
      next => rfl
    rw [lookup_map keeps]
    rcases Option.eq_none_or_eq_some (lookup CredentialState.accountId tables.states id) with
      absent | ⟨stored, found⟩
    · rw [absent, Option.map_none]
      split
      next same =>
        obtain ⟨stored, member, named⟩ := List.any_eq_true.mp known
        exact absurd (of_decide_eq_true named) (same ▸ lookup_eq_none.mp absent stored member)
      next => rfl
    · rw [found, Option.map_some, (lookup_mem found).2]
      split <;> rfl
  next unknown =>
    split at upserted
    next =>
      cases upserted
      refine ⟨rfl, fun id => ?_⟩
      rw [lookup_append, lookup_singleton]
      by_cases same : id = row.accountId
      · have absent : lookup CredentialState.accountId tables.states id = none := by
          rw [lookup_eq_none]
          intro state member named
          exact unknown (List.any_eq_true.mpr ⟨state, member, decide_eq_true (named.trans same)⟩)
        rw [absent, if_pos same.symm, if_pos same]
        rfl
      · rw [if_neg (Ne.symm same), if_neg same, Option.or_none]
    next => cases upserted

variable {file : AuthFile} {observedAt : Timestamp} {stored : Option CredentialState}

/-- A row a list writes, as a sighting that names the credential. -/
theorem viewOf_taken (soft : ∀ state ∈ stored, state.softObservedAt.isSome = true) (id : AccountId) :
    some (viewOf (taken (file.state runtime id observedAt (isRefreshable runtime file)) stored)) =
      follow (stored.map viewOf) ⟨observedAt, some (report runtime file)⟩ := by
  cases stored with
  | none => rfl
  | some state =>
    obtain ⟨seenAt, known⟩ := Option.isSome_iff_exists.mp (soft state rfl)
    by_cases accepted : seenAt ≤ observedAt
    · simp [taken, observed, AuthFile.state, viewOf, statusOf, report, follow,
        Library.Sightings.Entry.follow, known, accepted]
    · simp [taken, observed, AuthFile.state, viewOf, statusOf, follow,
        Library.Sightings.Entry.follow, known, accepted]

/-- A state's columns of hard refreshes; those of a credential without a state are empty. -/
def refreshed (stored : Option CredentialState) : Option Timestamp × Option String × Option SignInError :=
  stored.elim (none, none, none) refreshOf

theorem refreshOf_taken (id : AccountId) :
    refreshOf (taken (file.state runtime id observedAt (isRefreshable runtime file)) stored) =
      refreshed stored := by
  cases stored with
  | none => rfl
  | some state =>
    simp only [taken, Option.elim_some, observed, refreshed, refreshOf]
    split <;> rfl

/-- What one listed entry does to every credential. -/
structure Follows (runtime : Sql.Runtime) (source : SourceId) (base tables : Tables) (file : AuthFile)
    (observedAt : Timestamp) (next : Tables) : Prop where
  view : ∀ key, viewed next source key =
    if isOf base source key file then
      follow (viewed tables source key) ⟨observedAt, some (report runtime file)⟩
    else viewed tables source key
  refresh : ∀ key, refreshed (stateOf next source key) = refreshed (stateOf tables source key)

theorem authIndexOf_some {authIndex : String} (named : authIndexOf file = some authIndex) :
    authIndex ≠ "" := by
  have kept := (Option.filter_eq_some_iff.mp named).2
  simpa using kept

/-- The states after a row of a credential's account is written. -/
theorem follows_upsertState (grown : Grown charged source base tables) {authIndex : String}
    {id : AccountId} (named : authIndexOf file = some authIndex)
    (owned : ownerOf tables.accounts source authIndex = some id)
    (upserted : upsertState (file.state runtime id observedAt (isRefreshable runtime file)) tables =
      some ((), next)) : Follows runtime source base tables file observedAt next := by
  obtain ⟨accounts, states⟩ := upsertState_eq upserted
  have written (key : String) : isOf base source key file = true ↔
      ownerOf tables.accounts source key = some id := by
    rw [grown.owner_iff owned, isOf, named, Option.any_some, decide_eq_true_eq]
  have state (key : String) : stateOf next source key =
      if isOf base source key file then
        some { taken (file.state runtime id observedAt (isRefreshable runtime file))
          (lookup CredentialState.accountId tables.states id) with accountId := 0 }
      else stateOf tables source key := by
    unfold stateOf
    rw [accounts]
    split
    next listed =>
      rw [(written key).mp listed, Option.bind_some, states]
      exact congrArg (Option.map _) (if_pos rfl)
    next other =>
      rcases Option.eq_none_or_eq_some (ownerOf tables.accounts source key) with free | ⟨owner, known⟩
      · rw [free]
        rfl
      · have apart : owner ≠ id := fun same => other ((written key).mpr (same ▸ known))
        rw [known, Option.bind_some, Option.bind_some, states]
        exact congrArg (Option.map _) (if_neg apart)
  have soft : ∀ state ∈ lookup CredentialState.accountId tables.states id,
      state.softObservedAt.isSome = true := fun state found =>
    grown.valid.softObserved state (lookup_mem found).1
  have before {key : String} (listed : isOf base source key file = true) : stateOf tables source key =
      (lookup CredentialState.accountId tables.states id).map fun state => { state with accountId := 0 } := by
    rw [stateOf, (written key).mp listed]
    rfl
  constructor
  · intro key
    rw [viewed, state]
    split
    next listed =>
      have seen : viewed tables source key =
          (lookup CredentialState.accountId tables.states id).map viewOf := by
        rw [viewed, before listed, Option.map_map]
        rfl
      rw [seen]
      exact viewOf_taken soft id
    next => rfl
  · intro key
    rw [state]
    split
    next listed =>
      have kept : refreshed (stateOf tables source key) =
          refreshed (lookup CredentialState.accountId tables.states id) := by
        rw [before listed]
        cases lookup CredentialState.accountId tables.states id <;> rfl
      rw [kept]
      exact refreshOf_taken id
    next => rfl

theorem Grown.states {middle : Tables} (grown : Grown charged source base middle)
    (accounts : next.accounts = middle.accounts) (valid : Valid charged next) :
    Grown charged source base next where
  valid := valid
  owners key id owned := accounts ▸ grown.owners key id owned
  apart key other id left right := grown.apart key other id (accounts ▸ left) (accounts ▸ right)

theorem holds_storeFile (grown : Grown charged source base tables) {authIndex : String}
    (named : authIndexOf file = some authIndex) :
    Holds (fun current => current = tables) (storeFile runtime source observedAt file authIndex)
      fun _ next => Grown charged source base next ∧
        Follows runtime source base tables file observedAt next := by
  have framed : Holds (Frames.Frame charged .accounts source tables)
      (storeFile runtime source observedAt file authIndex)
      fun _ => Frames.Frame charged .accounts source tables := Locality.holds_storeFile _ _ _
  have written : Holds (fun current => current = tables)
      (storeFile runtime source observedAt file authIndex)
      fun _ next => ∃ middle, Grown charged source base middle ∧
        next.accounts = middle.accounts ∧ Follows runtime source base tables file observedAt next := by
    apply Holds.nextId_then
    intro candidate
    apply (holds_register grown _ _ _ _).bind
    intro id
    have observes : Holds (fun middle => Grown charged source base middle ∧
        ownerOf middle.accounts source authIndex = some id ∧
        ∀ key, stateOf middle source key = stateOf tables source key)
        (observe runtime id file observedAt (isRefreshable runtime file))
        fun _ next => ∃ middle, Grown charged source base middle ∧
          next.accounts = middle.accounts ∧ Follows runtime source base tables file observedAt next := by
      apply holds_attempt
      rintro middle _ next ⟨middleGrown, owned, same⟩ taken
      have follows := follows_upsertState middleGrown named owned taken
      refine ⟨middle, middleGrown, (upsertState_eq taken).1, fun key => ?_, fun key => ?_⟩
      · rw [follows.view, viewed, viewed, same]
      · rw [follows.refresh, same]
    have keyed (provider : String) (kind : AuthKind) (label : Option String) :
        (NewAccount.new authIndex kind label).key provider = authIndex :=
      if_neg (authIndexOf_some named)
    simp only [keyed]
    exact observes.bind fun _ => Holds.pure fun _ holds => holds
  apply (framed.and written).weaken
  · rintro _ rfl
    exact ⟨Frames.Frame.start grown.valid .accounts source, rfl⟩
  · rintro _ next ⟨frame, middle, middleGrown, accounts, follows⟩
    exact ⟨middleGrown.states accounts frame.valid, follows⟩

/-- What the files of a list read so far leave of every credential. -/
structure Read (runtime : Sql.Runtime) (charged : Prop) (source : SourceId) (base tables : Tables)
    (observedAt : Timestamp) (done : List AuthFile) (next : Tables) : Prop where
  grown : Grown charged source base next
  view : ∀ key, viewed next source key =
    (((done.filter (isOf base source key)).map (report runtime)).foldl
      (fun view named => follow view ⟨observedAt, some named⟩) (viewed tables source key))
  refresh : ∀ key, refreshed (stateOf next source key) = refreshed (stateOf tables source key)

theorem holds_storeFiles (grown : Grown charged source base tables) (files : List AuthFile)
    (named : ∀ file ∈ files, (authIndexOf file).isSome = true) :
    Holds (fun current => current = tables)
      (files.foldlM (storeNext runtime source observedAt) ⟨[], true⟩)
      fun listed next => listed.isComplete = true ∧
        Read runtime charged source base tables observedAt files next := by
  let reads (done : List AuthFile) (listed : Listed) (next : Tables) : Prop :=
    listed.isComplete = true ∧ Read runtime charged source base tables observedAt done next
  have folded : Holds (reads [] ⟨[], true⟩)
      (files.foldlM (storeNext runtime source observedAt) ⟨[], true⟩) (reads files) := by
    apply Holds.foldlM files
    intro done file rest listed whole
    have member : file ∈ files := by
      rw [← whole]
      simp
    obtain ⟨authIndex, known⟩ := Option.isSome_iff_exists.mp (named file member)
    unfold storeNext
    rw [known]
    constructor
    rintro session next finish ⟨complete, read⟩ ran
    have stored : Holds (fun current => current = session.data) (do
        let stored ← storeFile runtime source observedAt file authIndex
        return { listed with stored := listed.stored ++ [stored] })
        (reads (done ++ [file])) := by
      apply (holds_storeFile read.grown known).bind
      intro added
      apply Holds.pure
      rintro after ⟨afterGrown, follows⟩
      refine ⟨complete, afterGrown, fun key => ?_, fun key => (follows.refresh key).trans (read.refresh key)⟩
      rw [follows.view, read.view, List.filter_append, List.map_append, List.foldl_append]
      by_cases listed : isOf base source key file = true <;> simp [listed]
    exact stored.ends session next finish rfl ran
  apply folded.weaken
  · rintro _ rfl
    exact ⟨rfl, grown, fun _ => rfl, fun _ => rfl⟩
  · exact fun _ _ read => read

/-- A mark of what a list left out is one more sighting of every credential, without its name. -/
theorem viewed_marked (grown : Grown charged source base tables) (key : String)
    (marked : next = { tables with
      states := tables.states.map fun state =>
        if isUnlisted tables source observedAt state then { state with removedAt := some observedAt }
        else state }) :
    viewed next source key = follow (viewed tables source key) ⟨observedAt, none⟩ ∧
      refreshed (stateOf next source key) = refreshed (stateOf tables source key) := by
  subst marked
  have keeps (state : CredentialState) : (if isUnlisted tables source observedAt state = true then
      { state with removedAt := some observedAt } else state).accountId = state.accountId := by
    split <;> rfl
  unfold viewed stateOf
  rcases Option.eq_none_or_eq_some (ownerOf tables.accounts source key) with free | ⟨id, owned⟩
  · simp [free, follow]
  simp only [owned, Option.bind_some]
  rw [lookup_map keeps]
  rcases Option.eq_none_or_eq_some (lookup CredentialState.accountId tables.states id) with
    absent | ⟨state, found⟩
  · simp [absent, follow]
  obtain ⟨member, named⟩ := lookup_mem found
  obtain ⟨seenAt, seen⟩ := Option.isSome_iff_exists.mp (grown.valid.softObserved state member)
  obtain ⟨account, stored, same, inSource, _⟩ := absorbs_owner grown.valid owned
  have inside : (tables.accounts.any fun account =>
      account.id = state.accountId && account.sourceId = source) = true :=
    List.any_eq_true.mpr ⟨account, stored, by simp [same, named, inSource]⟩
  have unlisted : isUnlisted tables source observedAt state =
      (state.removedAt.isNone && decide (seenAt < observedAt)) := by
    rw [isUnlisted, inside, seen, Option.any_some, Bool.and_true]
  rw [found, Option.map_some, unlisted]
  by_cases leaves : (state.removedAt.isNone && decide (seenAt < observedAt)) = true
  · simp [leaves, viewOf, seen, follow, Library.Sightings.Entry.follow, statusOf, refreshed, refreshOf]
  · simp [leaves, viewOf, seen, follow, Library.Sightings.Entry.follow, statusOf, refreshed, refreshOf]

/-- What one complete list leaves of every credential. -/
structure Followed (runtime : Sql.Runtime) (charged : Prop) (source : SourceId) (base tables : Tables)
    (listing : AuthFiles) (next : Tables) : Prop where
  grown : Grown charged source base next
  view : ∀ key, viewed next source key =
    follow (viewed tables source key) (sighting runtime base source key listing)
  refresh : ∀ key, refreshed (stateOf next source key) = refreshed (stateOf tables source key)

theorem followed_ignores {listing : AuthFiles} :
    IgnoresFeed (Followed runtime charged source base tables listing) := fun _ _ followed =>
  ⟨⟨followed.grown.valid.feed _, followed.grown.owners, followed.grown.apart⟩, followed.view,
    followed.refresh⟩

theorem holds_store (grown : Grown charged source base tables) {listing : AuthFiles}
    (complete : Complete listing) :
    Holds (fun current => current = tables) (Quota.store runtime source listing)
      (OnCommit (Followed runtime charged source base tables listing)) := by
  apply read_then
  intro now
  rw [complete.whole]
  apply (holds_storeFiles grown listing.files complete.named).bind
  intro listed
  have marks : Holds (fun next => listed.isComplete = true ∧
      Read runtime charged source base tables listing.observedAt listing.files next)
      (onlyIf listed.isComplete (markUnlisted source listing.observedAt))
      fun _ => Followed runtime charged source base tables listing := by
    apply Holds.onlyIf
    case skipped => exact fun partly next read => absurd read.1 partly
    intro _
    constructor
    rintro session _ finish ⟨_, read⟩ ran
    have framed : Holds (Frames.Frame charged .accounts source session.data)
        (markUnlisted source listing.observedAt)
        fun _ => Frames.Frame charged .accounts source session.data := Locality.holds_markUnlisted _
    have frame := framed.ends session _ finish (Frames.Frame.start read.grown.valid _ _) ran
    have marked : Holds (fun current => current = session.data)
        (markUnlisted source listing.observedAt) fun _ next => next = { session.data with
          states := session.data.states.map fun state =>
            if isUnlisted session.data source listing.observedAt state then
              { state with removedAt := some listing.observedAt }
            else state } := holds_execute fun _ same => by rw [same]
    have after := marked.ends session _ finish rfl ran
    refine ⟨read.grown.states (by rw [after]) frame.valid, fun key => ?_, fun key => ?_⟩
    · rw [(viewed_marked read.grown key after).1, read.view, Library.Sightings.follow_names, sighting]
      cases lastNamed ((listing.files.filter (isOf base source key)).map (report runtime)) with
      | none => rfl
      | some named => exact Library.Sightings.follow_unnamed_again _ _ _
    · exact (viewed_marked read.grown key after).2.trans (read.refresh key)
  apply marks.bind
  intro _
  apply (holds_recordChanges followed_ignores _).bind
  exact fun _ => holds_commit _

/-- A stored list. -/
def storeStep (runtime : Sql.Runtime) (source : SourceId) (tables : Tables) (action : AuthFiles × World) :
    Option Tables := step runtime tables (.store source action.1, action.2)

/-- A run of complete lists leaves of each credential what the sightings of it do. -/
theorem followed_run (grown : Grown charged source base tables) {actions : List (AuthFiles × World)}
    (complete : ∀ action ∈ actions, Complete action.1) {finish : Tables}
    (reached : run (storeStep runtime source) tables actions = some finish) :
    Grown charged source base finish ∧ ∀ key,
      viewed finish source key = (actions.map fun action =>
        sighting runtime base source key action.1).foldl follow (viewed tables source key) ∧
      refreshed (stateOf finish source key) = refreshed (stateOf tables source key) := by
  induction actions generalizing tables with
  | nil =>
    cases reached
    exact ⟨grown, fun _ => ⟨rfl, rfl⟩⟩
  | cons action rest ih =>
    obtain ⟨next, taken, later⟩ := (run_cons _ _ _ _ _).mp reached
    obtain ⟨_, followed⟩ := performed_holds (holds_store grown (complete action List.mem_cons_self)) rfl
      (step_iff.mp taken)
    obtain ⟨finishGrown, views⟩ := ih followed.grown
      (fun other member => complete other (List.mem_cons_of_mem _ member)) later
    refine ⟨finishGrown, fun key => ?_⟩
    rw [(views key).1, (views key).2, followed.view, followed.refresh]
    exact ⟨rfl, rfl⟩

/-- What is stored of a credential at the start, as the lists that would leave it. -/
def known (state : CredentialState) : List (Sighting Timestamp CredentialState String) :=
  ⟨state.softObservedAt.getD 0, some (statusOf state, state.plan)⟩ ::
    (state.removedAt.map fun mark => ⟨mark, none⟩).toList

def startOf (base : Tables) (source : SourceId) (key : String) :
    List (Sighting Timestamp CredentialState String) := (stateOf base source key).elim [] known

/-- What is stored at the start and then the lists, as they bear on one credential. -/
def sightings (runtime : Sql.Runtime) (base : Tables) (source : SourceId) (key : String)
    (listings : List AuthFiles) : List (Sighting Timestamp CredentialState String) :=
  startOf base source key ++ listings.map (sighting runtime base source key)

/-- What is stored at the start was written by lists older than these. -/
structure Older (base : Tables) (source : SourceId) (listings : List AuthFiles) : Prop where
  marks : ∀ key, ∀ state ∈ stateOf base source key, ∀ mark ∈ state.removedAt,
    state.softObservedAt.getD 0 < mark
  listed : ∀ key, ∀ earlier ∈ startOf base source key, ∀ listing ∈ listings,
    earlier.at_ < listing.observedAt

/-- Whether a list names the key's credential. -/
def names (base : Tables) (source : SourceId) (key : String) (listing : AuthFiles) : Bool :=
  listing.files.any (isOf base source key)

/-- The credential as the lists in the order they were observed leave it: with the status of the
newest that names it, and removed where the newest does not. -/
structure Settles (runtime : Sql.Runtime) (base : Tables) (source : SourceId)
    (listings : List AuthFiles) (key : String) (finish inOrder : Tables) : Prop where
  same : stateOf finish source key = stateOf inOrder source key
  status : ∀ newest ∈ listings, names base source key newest = true →
    (∀ other ∈ listings, names base source key other = true → other.observedAt ≤ newest.observedAt) →
      ∃ state, stateOf finish source key = some state ∧
        state.softObservedAt = some newest.observedAt ∧
        ∃ file, (newest.files.filter (isOf base source key)).getLast? = some file ∧
          statusOf state = statusOf (file.state runtime 0 newest.observedAt (isRefreshable runtime file))
  removed : ∀ newest ∈ listings, (∀ other ∈ listings, other.observedAt ≤ newest.observedAt) →
    ∀ state, stateOf finish source key = some state →
      (state.removedAt.isSome = true ↔ names base source key newest = false)

theorem followAll_startOf {listings : List AuthFiles} (older : Older base source listings) (key : String) :
    followAll (startOf base source key) = viewed base source key := by
  unfold startOf viewed
  cases found : stateOf base source key with
  | none => rfl
  | some state =>
    cases marked : state.removedAt with
    | none => simp [known, marked, followAll, follow, viewOf]
    | some mark =>
      have later := older.marks key state found mark marked
      simp [known, marked, followAll, follow, viewOf, Library.Sightings.Entry.follow, later]

/-- What a run leaves of a credential is what is followed of its sightings. -/
theorem viewed_eq_followAll (valid : Valid charged base) {actions : List (AuthFiles × World)}
    (complete : ∀ action ∈ actions, Complete action.1)
    (older : Older base source (actions.map Prod.fst)) {finish : Tables}
    (reached : run (storeStep runtime source) base actions = some finish) (key : String) :
    viewed finish source key =
      followAll (sightings runtime base source key (actions.map Prod.fst)) := by
  obtain ⟨_, views⟩ := followed_run (Grown.start valid) complete reached
  rw [(views key).1, ← followAll_startOf older key, followAll, sightings, followAll, List.foldl_append,
    List.map_map]
  rfl

theorem named_iff (key : String) (listing : AuthFiles) :
    (sighting runtime base source key listing).named.isSome = names base source key listing := by
  have first := congrArg Option.isSome (Library.Sightings.lastNamed_fst
    ((listing.files.filter (isOf base source key)).map (report runtime)))
  rw [Option.isSome_map, Option.isSome_map] at first
  have listed : names base source key listing =
      !(listing.files.filter (isOf base source key)).isEmpty := by
    rw [Bool.eq_iff_iff]
    simp [names]
  rw [sighting, first, listed]
  cases listing.files.filter (isOf base source key) <;> simp

theorem soft_of_stateOf (valid : Valid charged tables) {key : String} :
    ∀ state ∈ stateOf tables source key, state.accountId = 0 ∧ state.softObservedAt.isSome = true := by
  intro state found
  obtain ⟨stored, known, rfl⟩ := Option.map_eq_some_iff.mp found
  obtain ⟨id, _, looked⟩ := Option.bind_eq_some_iff.mp known
  exact ⟨rfl, valid.softObserved stored (lookup_mem looked).1⟩

/-- A state without its account's id is its view and the columns of its refreshes. -/
theorem stateOf_ext (left : Valid charged tables) (right : Valid charged next) {key : String}
    (views : viewed tables source key = viewed next source key)
    (refreshes : refreshed (stateOf tables source key) = refreshed (stateOf next source key)) :
    stateOf tables source key = stateOf next source key := by
  have softLeft : ∀ state ∈ stateOf tables source key, _ := soft_of_stateOf left
  have softRight : ∀ state ∈ stateOf next source key, _ := soft_of_stateOf right
  unfold viewed at views
  revert softLeft softRight views refreshes
  generalize stateOf tables source key = first
  generalize stateOf next source key = second
  intro views refreshes softLeft softRight
  cases first with
  | none =>
    cases second with
    | none => rfl
    | some state => cases views
  | some state =>
    cases second with
    | none => cases views
    | some other =>
      obtain ⟨leftId, leftSoft⟩ := softLeft state rfl
      obtain ⟨rightId, rightSoft⟩ := softRight other rfl
      obtain ⟨leftAt, leftSeen⟩ := Option.isSome_iff_exists.mp leftSoft
      obtain ⟨rightAt, rightSeen⟩ := Option.isSome_iff_exists.mp rightSoft
      cases state
      cases other
      simp_all [viewOf, statusOf, refreshed, refreshOf]

section Settling

variable {actions ordered : List (AuthFiles × World)} {finish inOrder : Tables}

theorem sightings_sorted {listings : List AuthFiles} (older : Older base source listings)
    (sorted : listings.Pairwise fun first second => first.observedAt < second.observedAt) (key : String) :
    (sightings runtime base source key listings).Pairwise fun first second => first.at_ < second.at_ := by
  refine List.pairwise_append.mpr ⟨?_, List.pairwise_map.mpr sorted, ?_⟩
  · unfold startOf
    cases found : stateOf base source key with
    | none => exact List.Pairwise.nil
    | some state =>
      cases marked : state.removedAt with
      | none => simp [known, marked]
      | some mark => simpa [known, marked] using older.marks key state found mark marked
  · intro earlier member listed inside
    obtain ⟨listing, given, rfl⟩ := List.mem_map.mp inside
    exact older.listed key earlier member listing given

/-- Lists stored in the order they were observed settle every credential. -/
theorem settles_in_order (valid : Valid charged base)
    (complete : ∀ action ∈ ordered, Complete action.1)
    (older : Older base source (ordered.map Prod.fst))
    (sorted : (ordered.map Prod.fst).Pairwise fun first second => first.observedAt < second.observedAt)
    (stored : run (storeStep runtime source) base ordered = some inOrder) (key : String) :
    Settles runtime base source (ordered.map Prod.fst) key inOrder inOrder := by
  let all := sightings runtime base source key (ordered.map Prod.fst)
  have allSorted : all.Pairwise fun first second => first.at_ < second.at_ :=
    sightings_sorted older sorted key
  have distinct : (all.map Sighting.at_).Nodup :=
    List.pairwise_map.mpr (allSorted.imp fun earlier => earlier.ne)
  have view : viewed inOrder source key = followAll all := viewed_eq_followAll valid complete older stored key
  have valid := (followed_run (Grown.start valid) complete stored).1.valid
  have within {listing : AuthFiles} (member : listing ∈ ordered.map Prod.fst) :
      sighting runtime base source key listing ∈ all :=
    List.mem_append_right _ (List.mem_map.mpr ⟨listing, member, rfl⟩)
  -- A sighting is one of the lists', or of the start and older than all of them.
  have cases_of {seen : Sighting Timestamp CredentialState String} (member : seen ∈ all) :
      (∃ listing ∈ ordered.map Prod.fst, seen = sighting runtime base source key listing) ∨
        ∀ listing ∈ ordered.map Prod.fst, seen.at_ < listing.observedAt := by
    rcases List.mem_append.mp member with start | listed
    · exact .inr fun listing inside => older.listed key seen start listing inside
    · obtain ⟨listing, inside, rfl⟩ := List.mem_map.mp listed
      exact .inl ⟨listing, inside, rfl⟩
  refine ⟨rfl, ?_, ?_⟩
  · intro newest member named latest
    have isNamed : (sighting runtime base source key newest).named.isSome = true :=
      (named_iff key newest).trans named
    rcases Library.Sightings.stored_followAll all with ⟨_, unnamed⟩ | ⟨entry, followed, kept⟩
    · rw [unnamed _ (within member)] at isNamed
      cases isNamed
    have newestOf : ∀ seen ∈ all, seen.named.isSome = true → seen.at_ ≤ newest.observedAt := by
      intro seen inside seenNamed
      rcases cases_of inside with ⟨listing, given, rfl⟩ | start
      · exact latest listing given ((named_iff key listing).symm.trans seenNamed)
      · exact (start newest member).le
    obtain ⟨seenAt, row⟩ := kept.of_newest distinct (within member) isNamed newestOf
    obtain ⟨state, found, rfl⟩ := Option.map_eq_some_iff.mp (view.trans followed)
    obtain ⟨_, soft⟩ := soft_of_stateOf valid state found
    obtain ⟨seen, known⟩ := Option.isSome_iff_exists.mp soft
    have stamp : seen = newest.observedAt := by simpa [viewOf, known, sighting] using seenAt
    refine ⟨state, found, known.trans (congrArg some stamp), ?_⟩
    rw [sighting, Library.Sightings.lastNamed_fst, List.getLast?_map, Option.map_map] at row
    obtain ⟨file, last, same⟩ := Option.map_eq_some_iff.mp row
    exact ⟨file, last, same.symm⟩
  · intro newest member latest state found
    have viewedAs : followAll all = some (viewOf state) := by
      rw [← view, viewed, found]
      rfl
    rcases Library.Sightings.stored_followAll all with ⟨empty, _⟩ | ⟨entry, followed, kept⟩
    · rw [empty] at viewedAs
      cases viewedAs
    obtain rfl := Option.some.inj (followed.symm.trans viewedAs)
    have last : ∀ seen ∈ all, seen.at_ ≤ newest.observedAt := by
      intro seen inside
      rcases cases_of inside with ⟨listing, given, rfl⟩ | start
      · exact latest listing given
      · exact (start newest member).le
    have removed := kept.removed_iff_last allSorted (within member) last
    have named : (sighting runtime base source key newest).named.isSome = names base source key newest :=
      named_iff key newest
    rw [← named, Option.isSome_eq_false_iff, Option.isNone_iff_eq_none]
    exact removed

/-- Complete lists settle every credential exactly where the sightings of each are marked and
planned as those in the order of their stamps are. -/
theorem settles_iff (valid : Valid charged base)
    (complete : ∀ action ∈ actions, Complete action.1)
    (older : Older base source (actions.map Prod.fst))
    (perm : (ordered.map Prod.fst).Perm (actions.map Prod.fst))
    (sorted : (ordered.map Prod.fst).Pairwise fun first second => first.observedAt < second.observedAt)
    (stored : run (storeStep runtime source) base actions = some finish)
    (storedInOrder : run (storeStep runtime source) base ordered = some inOrder) :
    (∀ key, Settles runtime base source (actions.map Prod.fst) key finish inOrder) ↔
      ∀ key, Marked (sightings runtime base source key (actions.map Prod.fst)) ∧
        Planned (sightings runtime base source key (actions.map Prod.fst)) := by
  refine forall_congr' fun key => ?_
  have completeInOrder : ∀ action ∈ ordered, Complete action.1 := by
    intro action member
    obtain ⟨other, known, same⟩ :=
      List.mem_map.mp (perm.mem_iff.mp (List.mem_map.mpr ⟨action, member, rfl⟩))
    exact same ▸ complete other known
  have olderInOrder : Older base source (ordered.map Prod.fst) :=
    ⟨older.marks, fun key earlier member listing inside =>
      older.listed key earlier member listing (perm.mem_iff.mp inside)⟩
  have allPerm : (sightings runtime base source key (ordered.map Prod.fst)).Perm
      (sightings runtime base source key (actions.map Prod.fst)) :=
    (perm.map (sighting runtime base source key)).append_left _
  have equal : stateOf finish source key = stateOf inOrder source key ↔
      followAll (sightings runtime base source key (actions.map Prod.fst)) =
        followAll (sightings runtime base source key (ordered.map Prod.fst)) := by
    rw [← viewed_eq_followAll valid complete older stored key,
      ← viewed_eq_followAll valid completeInOrder olderInOrder storedInOrder key]
    obtain ⟨grown, views⟩ := followed_run (Grown.start valid) complete stored
    obtain ⟨grownInOrder, viewsInOrder⟩ := followed_run (Grown.start valid) completeInOrder storedInOrder
    constructor
    · exact fun same => congrArg (Option.map viewOf) same
    · exact fun same => stateOf_ext grown.valid grownInOrder.valid same
        ((views key).2.trans (viewsInOrder key).2.symm)
  rw [← Library.Sightings.followAll_eq_iff allPerm (sightings_sorted olderInOrder sorted key), ← equal]
  constructor
  · exact fun settles => settles.same
  · intro same
    have settled := settles_in_order valid completeInOrder olderInOrder sorted storedInOrder key
    refine ⟨same, ?_, ?_⟩
    · rw [same]
      intro newest member named latest
      exact settled.status newest (perm.mem_iff.mpr member) named
        fun other inside => latest other (perm.mem_iff.mp inside)
    · rw [same]
      intro newest member latest
      exact settled.removed newest (perm.mem_iff.mpr member)
        fun other inside => latest other (perm.mem_iff.mp inside)

end Settling

/-- A listed credential of which nothing is known but its index. -/
def bareFile (authIndex : String) : AuthFile where
  entry := ⟨some authIndex, none, none, none, none, none, none, none, false, false, false, none, none,
    none, none, none⟩
  raw := .null

/-- A complete list of credentials, stored where no statement fails. -/
def bareList (observedAt : Timestamp) (authIndexes : List String) (ids : Nat) : AuthFiles × World :=
  (⟨observedAt, authIndexes.map bareFile, true⟩, .calm 0 (· + ids))

theorem complete_bareList {authIndexes : List String} (observedAt : Timestamp) (ids : Nat)
    (named : ∀ authIndex ∈ authIndexes, (authIndexOf (bareFile authIndex)).isSome = true) :
    Complete (bareList observedAt authIndexes ids).1 := by
  refine ⟨rfl, fun file member => ?_⟩
  obtain ⟨authIndex, listed, rfl⟩ := List.mem_map.mp member
  exact named authIndex listed

def gatewayOnly : Tables := { Tables.empty with sources := [⟨1, "", "", .cliProxy, "", true, 0⟩] }

theorem valid_gatewayOnly : Valid False gatewayOnly := by
  constructor <;> simp [gatewayOnly, Tables.empty, Distinct]

theorem older_gatewayOnly (listings : List AuthFiles) : Older gatewayOnly 1 listings := by
  have empty (key : String) : stateOf gatewayOnly 1 key = none := rfl
  exact ⟨fun key state found => by simp [empty] at found, fun key earlier member => by
    simp [startOf, empty] at member⟩

/-- An empty list stored before an older one that names a credential. -/
def lateList : List (AuthFiles × World) := [bareList 2 [] 1, bareList 1 ["a"] 1]

def listsInOrder : List (AuthFiles × World) := [bareList 1 ["a"] 1, bareList 2 [] 2]

theorem lists_settle_where_marked : ∃ finish inOrder,
    run (storeStep .inert 1) gatewayOnly lateList = some finish ∧
    run (storeStep .inert 1) gatewayOnly listsInOrder = some inOrder ∧
    ((∀ key, Settles .inert gatewayOnly 1 (lateList.map Prod.fst) key finish inOrder) ↔
      ∀ key, Marked (sightings .inert gatewayOnly 1 key (lateList.map Prod.fst)) ∧
        Planned (sightings .inert gatewayOnly 1 key (lateList.map Prod.fst))) := by
  have ran : (run (storeStep .inert 1) gatewayOnly lateList).isSome = true := by decide +kernel
  have ranInOrder : (run (storeStep .inert 1) gatewayOnly listsInOrder).isSome = true := by
    decide +kernel
  obtain ⟨finish, stored⟩ := Option.isSome_iff_exists.mp ran
  obtain ⟨inOrder, storedInOrder⟩ := Option.isSome_iff_exists.mp ranInOrder
  have named : ∀ authIndex ∈ ["a"], (authIndexOf (bareFile authIndex)).isSome = true := by
    decide
  have complete : ∀ action ∈ lateList, Complete action.1 := List.forall_mem_cons.mpr
    ⟨complete_bareList 2 1 nofun, List.forall_mem_singleton.mpr (complete_bareList 1 1 named)⟩
  have perm : (listsInOrder.map Prod.fst).Perm (lateList.map Prod.fst) := List.Perm.swap _ _ _
  have sorted : (listsInOrder.map Prod.fst).Pairwise
      fun first second => first.observedAt < second.observedAt := by
    simp [listsInOrder, bareList]
  exact ⟨finish, inOrder, stored, storedInOrder, settles_iff valid_gatewayOnly complete
    (older_gatewayOnly _) perm sorted stored storedInOrder⟩

/-- A credential that the newest list leaves out is not removed when an older one is stored last. -/
theorem a_late_list_hides_a_removal : ∃ finish inOrder,
    run (storeStep .inert 1) gatewayOnly lateList = some finish ∧
    run (storeStep .inert 1) gatewayOnly listsInOrder = some inOrder ∧
    ¬∀ key, Settles .inert gatewayOnly 1 (lateList.map Prod.fst) key finish inOrder := by
  have ran : ((run (storeStep .inert 1) gatewayOnly lateList).any fun finish =>
      (stateOf finish 1 "a").map CredentialState.removedAt = some none) = true := by decide +kernel
  have ranInOrder : ((run (storeStep .inert 1) gatewayOnly listsInOrder).any fun inOrder =>
      (stateOf inOrder 1 "a").map CredentialState.removedAt = some (some 2)) = true := by
    decide +kernel
  obtain ⟨finish, stored, unmarked⟩ := (Option.any_eq_true _ _).mp ran
  obtain ⟨inOrder, storedInOrder, marked⟩ := (Option.any_eq_true _ _).mp ranInOrder
  refine ⟨finish, inOrder, stored, storedInOrder, fun settles => ?_⟩
  have unmarked := of_decide_eq_true unmarked
  rw [(settles "a").same, of_decide_eq_true marked] at unmarked
  cases unmarked

end MeteredUsage.Store.Listings
