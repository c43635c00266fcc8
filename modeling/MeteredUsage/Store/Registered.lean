import MeteredUsage.Store.Arrivals
import MeteredUsage.Store.Listings

/-! What a stored list answers: every entry that names a credential, with the account its key is
charged to, and the stored accounts and grants as they were. -/

namespace MeteredUsage.Store.Registered
open MeteredUsage.Values MeteredUsage.Store.Schema MeteredUsage.Store.Accounts
open MeteredUsage.Store.Credentials MeteredUsage.Store.Quota MeteredUsage.Store.Validity
open MeteredUsage.Store.Frames MeteredUsage.Store.Statements MeteredUsage.Store.Commands
open MeteredUsage.Store.Intake (root ownerOf upsert_eq)
open MeteredUsage.Store.Arrivals (Carried carried_map)
open MeteredUsage.Store.Listings (Grown)
open MeteredUsage.Library.Keyed MeteredUsage.Library.Transaction

variable {charged : Prop} {runtime : Sql.Runtime} {source : SourceId} {base tables next : Tables}
  {move : AccountId → AccountId}

/-- What a write leaves that reads no grants: every account and every key where it moved to, and
the stored grants. -/
structure Stays (charged : Prop) (move : AccountId → AccountId) (base tables : Tables) : Prop where
  valid : Valid charged tables
  inside : ∀ account ∈ base.accounts, Inside tables.accounts account.sourceId account.id
  carried : Carried move base.accounts tables.accounts
  owners : ∀ source key owner, ownerOf base.accounts source key = some owner →
    ownerOf tables.accounts source key = some (move owner)
  credits : tables.credits = base.credits

theorem Stays.refl (valid : Valid charged base) : Stays charged id base base where
  valid := valid
  inside account member := ⟨account, member, rfl, rfl⟩
  carried := .refl _
  owners _ _ _ owned := owned
  credits := rfl

/-- Rows of the other tables change, and none of the accounts and grants. -/
theorem Stays.beside (stays : Stays charged move base tables) (valid : Valid charged next)
    (accounts : next.accounts = tables.accounts) (credits : next.credits = tables.credits) :
    Stays charged move base next where
  valid := valid
  inside := accounts ▸ stays.inside
  carried := accounts ▸ stays.carried
  owners := accounts ▸ stays.owners
  credits := credits.trans stays.credits

/-- The provider that can hard refresh a listed credential, if any. -/
def providerFor (runtime : Sql.Runtime) (file : AuthFile) : Option Provider :=
  (Provider.parse ((file.entry.providerName runtime).getD "unknown")).filter (·.canRefresh file)

/-- An answered entry is on the account of its key. -/
structure Answers (runtime : Sql.Runtime) (source : SourceId) (tables : Tables) (entry : Stored) : Prop where
  key : ∃ key, authIndexOf entry.file = some key ∧
    ownerOf tables.accounts source key = some entry.accountId
  provider : entry.provider = providerFor runtime entry.file

theorem Answers.kept {entry : Stored} (answers : Answers runtime source tables entry)
    (owners : ∀ source key owner, ownerOf tables.accounts source key = some owner →
      ownerOf next.accounts source key = some owner) : Answers runtime source next entry where
  key := by
    obtain ⟨key, named, owned⟩ := answers.key
    exact ⟨key, named, owners source key _ owned⟩
  provider := answers.provider

/-- Registering a listed credential leaves every account where it was. -/
theorem holds_register_carried (candidate : AccountId) (provider : String) (account : NewAccount)
    (observedAt : Timestamp) :
    Holds (fun current => current = tables) (register candidate source provider account observedAt)
      fun _ next => Carried id tables.accounts next.accounts ∧ next.credits = tables.credits := by
  apply attempt_at
  intro stored middle taken
  apply Holds.pure
  rintro after rfl
  obtain ⟨_, ⟨known, _, _, rfl⟩ | ⟨_, _, rfl⟩⟩ := upsert_eq taken
  · exact ⟨carried_map ((keeps_listed account provider).onlyWhere fun other =>
      holdsKey source (account.key provider) other = true) _, rfl⟩
  · exact ⟨fun account member => ⟨account, List.mem_append_left _ member, rfl, rfl⟩, rfl⟩

/-- What one listed entry leaves. -/
structure Registers (charged : Prop) (runtime : Sql.Runtime) (source : SourceId) (base tables : Tables)
    (file : AuthFile) (entry : Stored) (next : Tables) : Prop where
  grown : Grown charged source base next
  stays : Stays charged id tables next
  file : entry.file = file
  answers : Answers runtime source next entry

theorem holds_storeFile (grown : Grown charged source base tables) {file : AuthFile} {authIndex : String}
    (named : authIndexOf file = some authIndex) (observedAt : Timestamp) :
    Holds (fun current => current = tables) (storeFile runtime source observedAt file authIndex)
      (Registers charged runtime source base tables file) := by
  have framed : Holds (Frame charged .accounts source tables)
      (storeFile runtime source observedAt file authIndex)
      fun _ => Frame charged .accounts source tables := Locality.holds_storeFile _ _ _
  have spared : Holds (Sparing.Spares tables) (storeFile runtime source observedAt file authIndex)
      fun _ => Sparing.Spares tables :=
    Sparing.registering_spares.holds_storeFile observedAt file authIndex
  -- The accounts are those of some state that grew; its other rows are told of by the frame.
  let found (accountId : AccountId) (current : Tables) : Prop :=
    (∃ middle, Grown charged source base middle ∧ current.accounts = middle.accounts) ∧
      Carried id tables.accounts current.accounts ∧ current.credits = tables.credits ∧
      ownerOf current.accounts source authIndex = some accountId
  have registered (candidate : AccountId) (provider : String) (kind : AuthKind) (label : Option String) :
      Holds (fun current => current = tables)
        (register candidate source provider (NewAccount.new authIndex kind label) observedAt) found := by
    have keyed : (NewAccount.new authIndex kind label).key provider = authIndex :=
      if_neg (Listings.authIndexOf_some named)
    have both := (Listings.holds_register grown candidate provider (NewAccount.new authIndex kind label)
      observedAt).and (@holds_register_carried source tables candidate provider _ observedAt)
    apply both.weaken
    · exact fun _ same => ⟨same, same⟩
    · rintro accountId middle ⟨⟨middleGrown, owned, _⟩, carried, credits⟩
      rw [keyed] at owned
      exact ⟨⟨middle, middleGrown, rfl⟩, carried, credits, owned⟩
  have observes (accountId : AccountId) : Holds (found accountId)
      (observe runtime accountId file observedAt (Listings.isRefreshable runtime file))
      fun _ => found accountId := by
    apply holds_attempt
    rintro middle _ next ⟨⟨grownAs, middleGrown, accounts⟩, carried, credits, owned⟩ taken
    have same := (Listings.upsertState_eq taken).1
    have kept : next.credits = middle.credits := by
      unfold upsertState at taken
      split at taken
      next =>
        cases taken
        rfl
      next =>
        split at taken
        next =>
          cases taken
          rfl
        next => cases taken
    exact ⟨⟨grownAs, middleGrown, same.trans accounts⟩, same ▸ carried, kept.trans credits, same ▸ owned⟩
  have written : Holds (fun current => current = tables)
      (storeFile runtime source observedAt file authIndex) fun entry next =>
        found entry.accountId next ∧ entry.file = file ∧ entry.provider = providerFor runtime file := by
    apply Holds.nextId_then
    intro candidate
    apply (registered _ _ _ _).bind
    intro accountId
    apply (observes accountId).bind
    exact fun _ => Holds.pure fun _ kept => ⟨kept, rfl, rfl⟩
  apply ((framed.and spared).and written).weaken
  · rintro _ rfl
    exact ⟨⟨Frame.start grown.valid .accounts source, .refl _⟩, rfl⟩
  · rintro entry next ⟨⟨frame, spares⟩, ⟨⟨middle, middleGrown, accounts⟩, carried, credits, owned⟩, same, provider⟩
    refine ⟨middleGrown.states accounts frame.valid, ⟨frame.valid, frame.stays, carried, spares.owners, credits⟩,
      same, ⟨authIndex, ?_, owned⟩, ?_⟩
    · rw [same, named]
    · rw [same, provider]

/-- Two writes after each other, of which the second moves nothing. -/
theorem Stays.trans {middle : Tables} (left : Stays charged move base middle)
    (right : Stays charged id middle tables) : Stays charged move base tables where
  valid := right.valid
  inside account member := by
    obtain ⟨later, stored, same, inSource⟩ := left.inside account member
    exact same ▸ inSource ▸ right.inside later stored
  carried := left.carried.trans right.carried
  owners source key owner owned := right.owners source key _ (left.owners source key owner owned)
  credits := right.credits.trans left.credits

/-- What the files of a list read so far answer and leave. -/
structure Listing (charged : Prop) (runtime : Sql.Runtime) (source : SourceId) (base : Tables)
    (done : List AuthFile) (stored : List Stored) (tables : Tables) : Prop where
  grown : Grown charged source base tables
  stays : Stays charged id base tables
  files : stored.map Stored.file = done.filter fun file => (authIndexOf file).isSome
  answers : ∀ entry ∈ stored, Answers runtime source tables entry

theorem holds_storeFiles (valid : Valid charged base) (observedAt : Timestamp) (files : List AuthFile)
    (isComplete : Bool) :
    Holds (fun current => current = base)
      (files.foldlM (storeNext runtime source observedAt) ⟨[], isComplete⟩)
      fun listed next => Listing charged runtime source base files listed.stored next := by
  let reads (done : List AuthFile) (listed : Listed) (next : Tables) : Prop :=
    Listing charged runtime source base done listed.stored next
  have folded : Holds (reads [] ⟨[], isComplete⟩)
      (files.foldlM (storeNext runtime source observedAt) ⟨[], isComplete⟩) (reads files) := by
    apply Holds.foldlM files
    intro done file rest listed _
    unfold storeNext
    rcases Option.eq_none_or_eq_some (authIndexOf file) with skipped | ⟨authIndex, named⟩
    · rw [skipped]
      apply Holds.pure
      intro current listing
      exact { listing with files := by simp [listing.files, List.filter_append, skipped] }
    · rw [named]
      constructor
      intro session next finish listing ran
      have stored : Holds (fun current => current = session.data) (do
          let stored ← storeFile runtime source observedAt file authIndex
          return { listed with stored := listed.stored ++ [stored] })
          (reads (done ++ [file])) := by
        apply (holds_storeFile listing.grown named observedAt).bind
        intro entry
        apply Holds.pure
        intro current registers
        refine ⟨registers.grown, listing.stays.trans registers.stays, ?_, fun other member => ?_⟩
        · simp [listing.files, registers.file, List.filter_append, named]
        · rcases List.mem_append.mp member with earlier | last
          · exact (listing.answers other earlier).kept registers.stays.owners
          · rw [List.mem_singleton.mp last]
            exact registers.answers
      exact stored.ends session next finish rfl ran
  apply folded.weaken
  · rintro _ rfl
    exact ⟨Grown.start valid, .refl valid, rfl, fun _ member => absurd member List.not_mem_nil⟩
  · exact fun _ _ listing => listing

/-- Rows of the other tables change, and none of the accounts and grants. -/
theorem Listing.beside {done : List AuthFile} {stored : List Stored}
    (listing : Listing charged runtime source base done stored tables) (valid : Valid charged next)
    (accounts : next.accounts = tables.accounts) (credits : next.credits = tables.credits) :
    Listing charged runtime source base done stored next where
  grown := listing.grown.states accounts valid
  stays := listing.stays.beside valid accounts credits
  files := listing.files
  answers entry member := (listing.answers entry member).kept (by
    rw [accounts]
    exact fun _ _ _ owned => owned)

theorem listing_ignores {done : List AuthFile} {stored : List Stored} :
    IgnoresFeed (Listing charged runtime source base done stored) := fun _ _ listing =>
  listing.beside (listing.grown.valid.feed _) rfl rfl

/-- What a stored list answers and leaves. -/
theorem holds_store (valid : Valid charged base) (listing : AuthFiles) :
    Holds (fun current => current = base) (Quota.store runtime source listing) fun ending tables =>
      ∀ stored, ending = .committed stored →
        Listing charged runtime source base listing.files stored tables := by
  apply read_then
  intro now
  apply (holds_storeFiles valid _ _ _).bind
  intro listed
  have marked : Holds (Listing charged runtime source base listing.files listed.stored)
      (onlyIf listed.isComplete (markUnlisted source listing.observedAt))
      fun _ => Listing charged runtime source base listing.files listed.stored := by
    apply Holds.onlyIf
    case skipped => exact fun _ _ kept => kept
    intro _
    constructor
    intro session _ finish kept ran
    have framed : Holds (Frame charged .accounts source session.data)
        (markUnlisted source listing.observedAt)
        fun _ => Frame charged .accounts source session.data := Locality.holds_markUnlisted _
    have frame := framed.ends session _ finish (Frame.start kept.grown.valid _ _) ran
    have same : Holds (fun current => current = session.data)
        (markUnlisted source listing.observedAt)
        fun _ next => next.accounts = session.data.accounts ∧ next.credits = session.data.credits :=
      holds_execute fun current equal => by
        subst equal
        exact ⟨rfl, rfl⟩
    obtain ⟨accounts, credits⟩ := same.ends session _ finish rfl ran
    exact kept.beside frame.valid accounts credits
  apply marked.bind
  intro _
  apply (holds_recordChanges listing_ignores _).bind
  intro _
  apply Holds.commit
  rintro tables kept _ ⟨⟩
  exact kept

theorem ownerOf_account (valid : Valid charged tables) {account : Account}
    (member : account ∈ tables.accounts) :
    ownerOf tables.accounts account.sourceId account.upstreamKey = some (root account) := by
  have found : tables.accounts.find? (holdsKey account.sourceId account.upstreamKey) = some account := by
    have present : (tables.accounts.find? (holdsKey account.sourceId account.upstreamKey)).isSome = true :=
      List.find?_isSome.mpr ⟨account, member, holdsKey_iff.mpr ⟨rfl, rfl⟩⟩
    obtain ⟨known, named⟩ := Option.isSome_iff_exists.mp present
    have held := holdsKey_iff.mp (by simpa using List.find?_some named)
    have same : known = account := valid.accountKeys.eq_of_key (List.mem_of_find?_eq_some named) member
      (Prod.ext held.1 held.2)
    rw [named, same]
  rw [ownerOf, found]
  rfl

/-- A listed key whose account was stored before was charged to that account before. -/
theorem Listing.owner_of_known {done : List AuthFile} {stored : List Stored} (valid : Valid charged base)
    (listing : Listing charged runtime source base done stored next) {key : String} {accountId : AccountId}
    (known : HasAccount base.accounts accountId)
    (owned : ownerOf next.accounts source key = some accountId) :
    ownerOf base.accounts source key = some accountId := by
  obtain ⟨account, member, rfl⟩ := known
  obtain ⟨absorber, stays, same, inSource, unmerged⟩ := Listings.absorbs_owner listing.grown.valid owned
  obtain ⟨later, remains, named, moved⟩ := listing.stays.carried account member
  have one : later = absorber := listing.grown.valid.sameAccount remains stays (named.trans same.symm)
  have sources : account.sourceId = source := by
    obtain ⟨other, inside, named, itsSource⟩ := listing.stays.inside account member
    rw [← itsSource, listing.grown.valid.sameAccount inside stays (named.trans same.symm), inSource]
  have roots : root account = account.id := by
    rw [← show root later = root account from moved, one, root, unmerged, Option.getD_none, same]
  have own := ownerOf_account valid member
  rw [roots, sources] at own
  rcases listing.grown.apart key account.upstreamKey account.id owned (listing.stays.owners _ _ _ own) with
    rfl | ⟨_, equal⟩
  · exact own
  · rw [equal, own]

variable {accountId : AccountId} {world : World}

theorem inside_landed {parts : Snapshots.Parts} (landed : Landing.Landed runtime charged parts source base next) :
    ∀ account ∈ base.accounts, Inside next.accounts account.sourceId account.id := by
  obtain ⟨_, middle, _, frame, _, entries, rfl, _⟩ := landed
  exact frame.stays

theorem stays_sync {listing : AuthFiles} (valid : Valid charged tables)
    (taken : step runtime tables (.store source listing, world) = some next) : Stays charged id tables next := by
  obtain ⟨_, kept⟩ := performed_holds (holds_store valid listing) rfl (step_iff.mp taken)
  exact (kept _ rfl).stays

theorem stays_ingest {records : List Events.Incoming} (valid : Valid charged tables)
    (taken : step runtime tables (.ingest source records, world) = some next) : Stays charged id tables next := by
  have performed := step_iff.mp taken
  obtain ⟨_, landed⟩ := performed_holds (Landing.holds_ingest valid records) rfl performed
  let keeps (after : Tables) : Prop := Carried id tables.accounts after.accounts ∧
    (∀ source key owner, ownerOf tables.accounts source key = some owner →
      ownerOf after.accounts source key = some owner) ∧ after.credits = tables.credits
  have charges (row : Account) (new : NewAccount) (seenAt : Timestamp) {after : Tables} (kept : keeps after) :
      keeps { after with accounts := Intake.attributed row new seenAt after.accounts } := by
    refine ⟨kept.1.trans (Arrivals.carried_attributed row new seenAt _), fun source key owner owned => ?_,
      kept.2.2⟩
    exact (Intake.ownerOf_attributed _ _ _ _ _ _).trans (by rw [kept.2.1 source key owner owned]; rfl)
  have taking : Holds keeps (Landing.ingesting runtime source records (world.clock 0) (world.clock 1))
      fun ending after => ∀ progress, ending = .committed progress → keeps after := by
    have ignores : IgnoresFeed keeps := fun _ _ kept => kept
    apply Intake.holds_ingesting_taken fun _ _ => ignores
    intro done record rest _ progress middle next after kept taken
    cases taken with
    | rejected error payload id => exact kept
    | duplicate event candidate owner isNewCredential accounts charged _ =>
      subst charged
      exact charges _ _ _ kept
    | accepted event candidate owner isNewCredential accounts id arrival row charged _ _ _ appended =>
      subst charged appended
      exact charges _ _ _ kept
  rw [perform, Landing.ingest_eq, performed_reading, performed_reading] at performed
  obtain ⟨_, kept⟩ := performed_holds taking ⟨.refl _, fun _ _ _ owned => owned, rfl⟩ performed
  obtain ⟨carried, owners, credits⟩ := kept _ rfl
  exact ⟨Merged.Landed.valid landed, inside_landed landed, carried, owners, credits⟩

theorem stays_merge {id into : AccountId} {requires : Bool} (valid : Valid charged tables)
    (taken : step runtime tables (.merge id into requires, world) = some next) :
    Stays charged (Sparing.moved id into) tables next := by
  have performed := step_iff.mp taken
  obtain ⟨_, source, landed, _⟩ := performed_holds (Landing.holds_merge valid id into requires) rfl performed
  obtain ⟨_, moves⟩ := performed_holds (Sparing.holds_merge valid id into requires) rfl performed
  obtain ⟨_, merged, target, changes, joins, _, entries, rfl, _⟩ :=
    performed_holds (Arrivals.holds_merge_combined id into requires) rfl performed
  obtain ⟨mergedStored, mergedId⟩ := (Landing.accountOf_eq_some valid).mp joins.mergedFound
  have unmerged : ∀ account ∈ tables.accounts, account.id = id → account.mergedInto = none := by
    intro account member named
    rw [valid.sameAccount member mergedStored (named.trans mergedId.symm)]
    exact joins.mergedRoot
  exact ⟨Merged.Landed.valid landed, inside_landed landed, Arrivals.carried_combined unmerged,
    fun source key owner owned => (moves.owners source key).trans (by rw [owned]; rfl), rfl⟩

/-- Whether a hard refresh read the grants of its credential. -/
def reports : Except RefreshError Observation → Bool
  | .ok observation => observation.manualResets ≠ .unchanged
  | .error _ => false

/-- A condition on the accounts and the grants alone. -/
def OfGrants (kept : Tables → Prop) : Prop :=
  ∀ tables next, kept tables → next.accounts = tables.accounts → next.credits = tables.credits → kept next

section Refresh

variable {kept : Tables → Prop} (alone : OfGrants kept)

include alone

theorem holds_replace_alone (windows : List Windows.NewWindow) (observedAt : Timestamp) :
    Holds kept (Windows.replace runtime accountId windows observedAt) fun _ => kept := by
  apply fetch_then
  intro stored
  have deleted : Holds (fun tables => kept tables ∧
      stored = tables.windows.filter (·.accountId = accountId))
      (execute (Windows.deleteWindows fun window =>
        window.accountId = accountId && window.windowKey ≠ Windows.responseKey)) fun _ => kept :=
    holds_execute fun _ initial => alone _ _ initial.1 rfl rfl
  apply deleted.bind
  intro _
  apply Holds.forM
  intro window _
  have inserted : Holds kept
      (attempt (Windows.insertWindow (window.row stored accountId observedAt))) fun _ => kept := by
    apply holds_attempt
    intro tables _ next initial taken
    unfold Windows.insertWindow at taken
    split at taken
    next => cases taken
    next =>
      split at taken
      next =>
        cases taken
        exact alone _ _ initial rfl rfl
      next => cases taken
  apply inserted.bind
  intro _
  unfold Windows.recordSample
  split
  next => exact holds_execute fun _ initial => alone _ _ initial rfl rfl
  next => exact Holds.pure fun _ initial => initial

theorem holds_refreshed_alone (refreshedAt : Timestamp) (outcome : Except RefreshError (Option String)) :
    Holds kept (refreshed accountId refreshedAt outcome) fun _ => kept :=
  holds_execute fun _ initial => alone _ _ initial rfl rfl

theorem holds_comparing_alone {work : Write Unit} {begun : Tables}
    (works : Holds (fun tables => tables = begun) work fun _ => kept) :
    Holds (fun tables => tables = begun) (reading >>= Landing.comparing runtime accountId work)
      (OnCommit kept) := by
  have ignores : IgnoresFeed kept := fun _ _ initial => alone _ _ initial rfl rfl
  apply Holds.reading_then
  intro now
  apply read_at
  apply works.bind
  intro _
  exact (holds_recordChanges ignores _).bind fun _ => holds_commit _

end Refresh

/-- The accounts as they were, and no grants but stored ones and, where they were read, those of
one account. -/
structure Granted (base : Tables) (accountId : AccountId) (read : Bool) (tables : Tables) : Prop where
  accounts : tables.accounts = base.accounts
  credits : ∀ credit ∈ tables.credits, credit ∈ base.credits ∨ read = true ∧ credit.accountId = accountId

theorem granted_alone (base : Tables) (read : Bool) : OfGrants (Granted base accountId read) :=
  fun _ _ granted accounts credits => ⟨accounts.trans granted.accounts, credits ▸ granted.credits⟩

theorem holds_storeResets_granted (resets : ManualResets) :
    Holds (Granted base accountId (resets ≠ .unchanged)) (storeResets accountId resets)
      fun _ => Granted base accountId (resets ≠ .unchanged) := by
  cases resets with
  | unchanged => exact Holds.pure fun _ granted => granted
  | reported grants =>
    have cleared : Holds (Granted base accountId (ManualResets.reported grants ≠ .unchanged))
        (execute (Windows.clearCredits accountId))
        fun _ => Granted base accountId (ManualResets.reported grants ≠ .unchanged) :=
      holds_execute fun _ granted =>
        ⟨granted.accounts, fun credit member => granted.credits credit (List.mem_filter.mp member).1⟩
    apply cleared.bind
    intro _
    apply Holds.forM
    intro grant _
    apply holds_attempt
    intro tables _ next granted taken
    unfold Windows.insertCredit at taken
    split at taken
    next =>
      cases taken
      refine ⟨granted.accounts, fun credit member => ?_⟩
      rcases List.mem_append.mp member with earlier | last
      · exact granted.credits credit earlier
      · rw [List.mem_singleton.mp last]
        exact .inr ⟨by simp, rfl⟩
    next => cases taken

theorem granted_self (base : Tables) (read : Bool) : Granted base accountId read base :=
  ⟨rfl, fun _ member => .inl member⟩

theorem holds_storeResult_granted (result : Except RefreshError Observation) (refreshedAt : Timestamp) :
    Holds (Granted base accountId (reports result)) (storeResult runtime accountId result refreshedAt)
      fun _ => Granted base accountId (reports result) := by
  cases result with
  | error error => exact holds_refreshed_alone (granted_alone _ _) _ _
  | ok observation =>
    have forgot : Holds (Granted base accountId (reports (.ok observation)))
        (execute fun tables => { tables with
          recoveries := tables.recoveries.filter (·.accountId ≠ accountId) })
        fun _ => Granted base accountId (reports (.ok observation)) :=
      holds_execute fun _ granted => granted_alone _ _ _ _ granted rfl rfl
    apply forgot.bind
    intro _
    apply (holds_replace_alone (granted_alone _ _) _ _).bind
    intro _
    apply (holds_storeResets_granted _).bind
    exact fun _ => holds_refreshed_alone (granted_alone _ _) _ _

theorem holds_recordRefresh (result : Except RefreshError Observation) (refreshedAt : Timestamp) :
    Holds (fun tables => tables = base) (recordRefresh runtime accountId result refreshedAt)
      (OnCommit (Granted base accountId (reports result))) := by
  rw [Landing.recordRefresh_eq]
  exact holds_comparing_alone (granted_alone _ _) ((holds_storeResult_granted result refreshedAt).weaken
    (fun _ same => same ▸ granted_self base _) fun _ _ granted => granted)

/-- The accounts as they were, and of the grants those of the other accounts. -/
structure Cleared (base : Tables) (accountId : AccountId) (tables : Tables) : Prop where
  accounts : tables.accounts = base.accounts
  credits : ∀ credit ∈ tables.credits, credit ∈ base.credits ∧ credit.accountId ≠ accountId

theorem cleared_alone (base : Tables) : OfGrants (Cleared base accountId) :=
  fun _ _ cleared accounts credits => ⟨accounts.trans cleared.accounts, credits ▸ cleared.credits⟩

theorem holds_clear :
    Holds (fun tables => tables = base) (clear runtime accountId) (OnCommit (Cleared base accountId)) := by
  rw [Landing.clear_eq]
  refine holds_comparing_alone (cleared_alone base) (holds_execute ?_)
  rintro tables rfl
  exact ⟨rfl, fun credit member => by simpa using List.mem_filter.mp member⟩

end MeteredUsage.Store.Registered
