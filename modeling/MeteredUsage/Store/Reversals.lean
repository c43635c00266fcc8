import MeteredUsage.Store.FirstSeen

/-! Which writes announce that an account has other suggestions. The comparison of a write leaves out
when an account was first seen, which decides the order of a pair; only the link of a sole pair is
compared beside it. So a batch of records from before an account was known can reverse another pair
and announce nothing. -/

namespace MeteredUsage.Store.Reversals
open MeteredUsage.Values MeteredUsage.Store.Schema MeteredUsage.Store.Accounts
open MeteredUsage.Store.Events MeteredUsage.Store.Continuations MeteredUsage.Store.Snapshots
open MeteredUsage.Store.Validity MeteredUsage.Store.Statements MeteredUsage.Store.Landing
open MeteredUsage.Store.Links MeteredUsage.Store.Upkeep MeteredUsage.Store.Views
open MeteredUsage.Store.Apart MeteredUsage.Store.Commands MeteredUsage.Store.Announcements
open MeteredUsage.Store.Suggestions MeteredUsage.Store.FirstSeen MeteredUsage.Library.Keyed
open MeteredUsage.Store.Intake (requestsIn)
open MeteredUsage.Store.Arrivals (told)
open MeteredUsage.Changes.Table (Subject Feed)

variable {charged : Prop} {runtime : Sql.Runtime} {source : SourceId} {now : Timestamp}
  {base after : Tables} {records : List Incoming} {account : Account}

/-- Where an account has other suggestions, an account or a plan is announced. -/
def SuggestionsAnnounced (before after : Tables) : Prop :=
  (∃ id, suggestions before id ≠ suggestions after id) →
    ∃ subject ∈ told before after, isListed subject = true

/-- Nothing a reader is shown of an account comes of the batch: its requests went through known
credentials, the last of each gives the sign-in kind and label it has, and those through a merged one
are inside its window. -/
structure Unnoticed (tables : Tables) (source : SourceId) (records : List Incoming) : Prop where
  known : ∀ event ∈ requestsIn records, ∃ account ∈ tables.accounts, names source account event = true
  kinds : ∀ account ∈ tables.accounts, ∀ kind ∈ lastKind source records account, kind = account.authKind
  labels : ∀ account ∈ tables.accounts, ∀ label ∈ lastLabel source records account,
    account.label = some label
  windows : ∀ account ∈ tables.accounts, account.mergedInto.isSome = true →
    ∀ event ∈ requestsIn records, names source account event = true →
      account.firstSeenAt ≤ event.occurredAt ∧ event.occurredAt ≤ account.lastSeenAt

/-- A batch reverses a pair that could be a continuation, no sole one, and shows on no account. -/
def Overtakes (tables : Tables) : Command → Prop
  | .ingest source records =>
    let reverses := Reverses (earliest tables.accounts source records) tables
    Unnoticed tables source records ∧
      (∃ old ∈ tables.accounts, ∃ new ∈ tables.accounts, reverses old new) ∧
      ∀ old ∈ tables.accounts, ∀ new ∈ tables.accounts, isSole tables old new = true → ¬reverses old new
  | _ => False

theorem visible_of_listed {subject : Subject} (listed : isListed subject = true) :
    Frames.isHidden subject = false := by
  cases subject with
  | account _ | plan _ => rfl
  | window _ _ | resets _ | usage | quotaAction | price _ | arrival _ _ => cases listed

section Silence

variable {compared : Bool} (announced : AnnouncedOnce runtime compared now base after)

include announced

/-- Where no account and no plan is announced, readers are shown the ones they were. -/
theorem views_of_silent (silent : ¬∃ subject ∈ told base after, isListed subject = true)
    (subject : Subject) (listed : isListed subject = true) :
    view runtime base now subject = view runtime after now subject := by
  by_contra differ
  have once := (announced subject (visible_of_listed listed)).1 differ
  exact silent ⟨subject, List.count_pos_iff.mp (Nat.lt_of_lt_of_eq Nat.one_pos once.symm), listed⟩

theorem silent_of_views (compares : compared = true)
    (views : ∀ subject, isListed subject = true → view runtime base now subject = view runtime after now subject) :
    ¬∃ subject ∈ told base after, isListed subject = true := by
  rintro ⟨subject, member, listed⟩
  have never := (announced subject (visible_of_listed listed)).2 compares (views subject listed)
  exact List.count_eq_zero.mp never member

/-- A write that keeps when accounts were first seen announces the suggestions it changes. -/
theorem announced_of_standing (valid : Valid charged base) (validAfter : Valid charged after)
    (stands : Standing base after) (dismissals : after.dismissals = base.dismissals) :
    SuggestionsAnnounced base after := by
  intro differ
  by_contra silent
  have resembles : Resembles Account.firstSeenAt base after :=
    resembles_of_views valid validAfter (views_of_silent announced silent) stands dismissals
  obtain ⟨_, _, _, _, _, reversed⟩ := (suggestions_differ_iff resembles valid validAfter).mp differ
  exact reversed Iff.rfl

end Silence

theorem announced_of_same (same : ∀ id, suggestions base id = suggestions after id) :
    SuggestionsAnnounced base after := fun ⟨id, differ⟩ => absurd (same id) differ

theorem announced_of_named {middle : Tables} {subjects : List Subject} {subject : Subject}
    (announced : Announced base subjects middle after) (same : middle.feed = base.feed)
    (member : subject ∈ subjects) (listed : isListed subject = true) : SuggestionsAnnounced base after := by
  intro _
  refine ⟨subject, ?_, listed⟩
  rw [told, announced.since (same ▸ le_rfl), same, Feed.since_self, List.nil_append, inOrder,
    List.mem_insertionSort, List.mem_dedup]
  exact List.mem_append_left _ member

theorem dismissals_landed {parts : Parts} (landed : Landed runtime charged parts source base after) :
    after.dismissals = base.dismissals := by
  obtain ⟨_, middle, _, frame, _, _, rfl, _⟩ := landed
  exact frame.dismissals

theorem merge_announced (valid : Valid charged base) (validAfter : Valid charged after)
    {compared : Bool} (announced : AnnouncedOnce runtime compared now base after) {id into : AccountId}
    {requires : Bool} {merged target : Account} (joins : Arrivals.Joins base id into requires merged target)
    {subjects : List Subject} (recorded : Recorded (Arrivals.combined id into merged base) subjects after) :
    SuggestionsAnnounced base after := by
  intro _
  by_contra silent
  obtain ⟨stored, rfl⟩ := (accountOf_eq_some valid).mp joins.mergedFound
  have unmerged : ∀ account ∈ base.accounts, account.id = merged.id → account.mergedInto = none :=
    fun account member same => valid.sameAccount member stored same ▸ joins.mergedRoot
  obtain ⟨later, kept, same, moved⟩ := Arrivals.carried_combined unmerged merged stored
  have accounts : after.accounts = (Arrivals.combined merged.id into merged base).accounts := by
    obtain ⟨_, left, _⟩ := recorded
    rw [left]
  have columns := columns_of_views valid validAfter (views_of_silent announced silent) stored
    (accounts ▸ kept) same
  rw [Intake.root, columns.2.2.2.1, joins.mergedRoot, Option.getD_none, same, Intake.root, joins.mergedRoot,
    Option.getD_none, Sparing.moved, if_pos rfl] at moved
  exact joins.differs moved

section Batches

/-- A known account keeps its sign-in kind and label exactly where the last given ones are its own. -/
theorem given_kept_iff :
    ((sighted base.accounts source records account).authKind = account.authKind ∧
        (sighted base.accounts source records account).label = account.label) ↔
      (∀ kind ∈ lastKind source records account, kind = account.authKind) ∧
        ∀ label ∈ lastLabel source records account, account.label = some label := by
  simp only [sighted]
  cases lastKind source records account <;> cases lastLabel source records account <;>
    simp [eq_comm]

theorem Unnoticed.given (unnoticed : Unnoticed base source records) (stored : account ∈ base.accounts) :
    (sighted base.accounts source records account).authKind = account.authKind ∧
      (sighted base.accounts source records account).label = account.label :=
  given_kept_iff.mpr ⟨unnoticed.kinds account stored, unnoticed.labels account stored⟩

variable (sights : Sighted source base records after)

include sights

theorem stands_of_sighted : ∀ account ∈ base.accounts, ∃ row ∈ after.accounts, row.id = account.id ∧
    row.sourceId = account.sourceId ∧ row.firstSeenAt = earliest base.accounts source records account := by
  obtain ⟨created, accounts, _⟩ := sights.accounts
  intro account stored
  exact ⟨sighted base.accounts source records account,
    accounts ▸ List.mem_append_left _ (List.mem_map_of_mem stored), rfl, rfl, rfl⟩

theorem accounts_of_unnoticed (unnoticed : Unnoticed base source records) :
    after.accounts = base.accounts.map (sighted base.accounts source records) := by
  obtain ⟨created, accounts, _, known⟩ := sights.accounts
  rw [accounts, known.mpr unnoticed.known, List.append_nil]

theorem resembles_of_unnoticed (unnoticed : Unnoticed base source records) :
    Resembles (earliest base.accounts source records) base after where
  later account stored := by
    have given := unnoticed.given stored
    rw [accounts_of_unnoticed sights unnoticed]
    exact ⟨_, List.mem_map_of_mem stored, ⟨rfl, rfl, rfl, given.2, given.1, rfl⟩, rfl⟩
  earlier row kept := by
    rw [accounts_of_unnoticed sights unnoticed] at kept
    obtain ⟨account, stored, rfl⟩ := List.mem_map.mp kept
    exact ⟨account, stored, rfl⟩
  states id := by
    rw [stateOf, sights.states]
    rfl
  plans id := by
    rw [hasPlan, sights.plans]
    rfl
  dismissals := sights.dismissals

/-- A batch that shows on no account leaves the merged ones as they were. -/
theorem previous_of_unnoticed (valid : Valid charged base) (unnoticed : Unnoticed base source records)
    (id : AccountId) : previousRows after id = previousRows base id := by
  unfold previousRows
  rw [accounts_of_unnoticed sights unnoticed]
  congr 2
  apply filter_map_fixed
  · intro account stored merged
    have isMerged : account.mergedInto.isSome = true := by
      rw [of_decide_eq_true merged]
      rfl
    have given := unnoticed.given stored
    have window := (window_kept_iff valid stored isMerged).mpr (unnoticed.windows account stored isMerged)
    cases account
    simp_all [sighted]
  · exact fun _ _ unmerged => unmerged

theorem accountRow_of_unnoticed (valid : Valid charged base) (unnoticed : Unnoticed base source records)
    (stored : account ∈ base.accounts) :
    accountRow after (sighted base.accounts source records account) = accountRow base account := by
  have given := unnoticed.given stored
  have state : stateOf after account.id = stateOf base account.id := by rw [stateOf, sights.states]; rfl
  have previous := previous_of_unnoticed sights valid unnoticed account.id
  change (lookup Source.id after.sources account.sourceId).map _ = _
  rw [sights.sources, accountRow]
  congr 1
  funext source
  simp only [given.1, given.2]
  exact congrArg₂ (fun state previous => AccountRow.mk source.name account.provider account.authKind
    account.label account.displayName account.mergedInto (state.map stateRow) source.baseUrl previous)
    state previous

/-- Readers are shown the same accounts and plans after a batch exactly where it shows on no account and
reverses no sole pair. -/
theorem views_iff (valid : Valid charged base) (validAfter : Valid charged after) :
    (∀ subject, isListed subject = true →
        view runtime base now subject = view runtime after now subject) ↔
      Unnoticed base source records ∧ ∀ old ∈ base.accounts, ∀ new ∈ base.accounts,
        isSole base old new = true → ¬Reverses (earliest base.accounts source records) base old new := by
  constructor
  · intro views
    obtain ⟨created, accounts, apart, known⟩ := sights.accounts
    have kept {account : Account} (stored : account ∈ base.accounts) :
        sighted base.accounts source records account ∈ after.accounts :=
      accounts ▸ List.mem_append_left _ (List.mem_map_of_mem stored)
    have columns {account : Account} (stored : account ∈ base.accounts) :=
      columns_of_views valid validAfter views stored (kept stored) rfl
    have given {account : Account} (stored : account ∈ base.accounts) :=
      given_kept_iff.mp ⟨(columns stored).2.1, (columns stored).2.2.1⟩
    refine ⟨⟨?_, fun account stored => (given stored).1, fun account stored => (given stored).2, ?_⟩, ?_⟩
    · apply known.mp
      apply List.eq_nil_iff_forall_not_mem.mpr
      intro row member
      obtain ⟨account, stored, same⟩ := stored_of_views valid validAfter views
        (accounts ▸ List.mem_append_right _ member)
      exact (apart row member).fresh account stored same
    · intro account stored merged
      rw [← window_kept_iff valid stored merged]
      obtain ⟨target, into⟩ := Option.isSome_iff_exists.mp merged
      obtain ⟨root, rootStored, rfl, _⟩ := valid.merges account stored target into
      -- The row of a merged account is among those its root shows.
      have shown : previousRow (sighted base.accounts source records account) ∈ previousRows after root.id := by
        apply List.mem_map_of_mem
        rw [byId, List.mem_insertionSort, List.mem_filter]
        exact ⟨kept stored, decide_eq_true into⟩
      rw [(columns rootStored).2.2.2.2.2] at shown
      obtain ⟨other, found, same⟩ := List.mem_map.mp shown
      rw [byId, List.mem_insertionSort] at found
      obtain rfl := valid.sameAccount (List.mem_filter.mp found).1 stored (congrArg PreviousRow.accountId same)
      exact ⟨(congrArg PreviousRow.firstSeenAt same).symm, (congrArg PreviousRow.lastSeenAt same).symm⟩
    · have resembles := resembles_of_views valid validAfter views (stands_of_sighted sights) sights.dismissals
      apply (linked_alike_iff resembles valid validAfter).mp
      exact linked_of_views valid validAfter views
  · rintro ⟨unnoticed, ordered⟩
    have resembles := resembles_of_unnoticed sights unnoticed
    have linked := (linked_alike_iff resembles valid validAfter).mpr ordered
    intro subject listed
    cases subject with
    | account id =>
      have found : accountOf after id = (accountOf base id).map (sighted base.accounts source records) := by
        rw [accountOf, accounts_of_unnoticed sights unnoticed]
        exact lookup_map (keeps_sighted.id) base.accounts id
      simp only [view, found, linked]
      cases known : accountOf base id with
      | none => rfl
      | some account =>
        have stored := ((accountOf_eq_some valid).mp known).1
        simp only [Option.map_some, Option.bind_some, accountRow_of_unnoticed sights valid unnoticed stored]
    | plan id => simp [view, planOf, sights.plans, linked]
    | window _ _ | resets _ | usage | quotaAction | price _ | arrival _ _ => cases listed

end Batches

/-- Every write but an ingest announces the suggestions it changes. -/
theorem announced_beside_ingest (stored : Stored) (world : World) (command : Command)
    (other : ∀ source records, command ≠ .ingest source records)
    (performed : perform runtime stored.tables world command = (true, after)) :
    SuggestionsAnnounced stored.tables after := by
  have valid := stored.valid
  have validAfter : Valid False after :=
    Merged.valid_step valid False.elim (step_iff.mpr performed : step runtime _ (command, world) = some after)
  obtain ⟨reading, announced⟩ := announced_performed stored runtime world command performed
  cases command with
  | rename id displayName =>
    obtain ⟨_, source, landed⟩ := performed_holds (holds_rename valid id displayName) rfl performed
    obtain ⟨_, stands⟩ := performed_holds (FirstSeen.holds_rename id displayName) rfl performed
    exact announced_of_standing announced valid validAfter stands (dismissals_landed landed)
  | merge id into requires =>
    obtain ⟨_, merged, target, changes, joins, _, recorded⟩ :=
      performed_holds (Arrivals.holds_merge_combined id into requires) rfl performed
    exact merge_announced valid validAfter announced joins recorded
  | dismissContinuation previous replacement =>
    obtain ⟨_, rfl | ⟨middle, inserted, named⟩⟩ :=
      performed_holds (holds_dismissContinuation previous replacement) rfl performed
    · exact announced_of_same fun _ => rfl
    · have same : middle.feed = stored.tables.feed := by
        unfold AccountWrites.insertDismissal at inserted
        split at inserted
        next => cases inserted
        next =>
          cases inserted
          rfl
      exact announced_of_named named same (List.mem_cons_self ..) rfl
  | ingest source records => exact absurd rfl (other source records)
  | store sourceId listing =>
    obtain ⟨_, landed⟩ := performed_holds (holds_store valid listing) rfl performed
    obtain ⟨_, stands⟩ := performed_holds (FirstSeen.holds_store listing) rfl performed
    exact announced_of_standing announced valid validAfter stands (dismissals_landed landed)
  | recordRefresh accountId result refreshedAt =>
    rcases Merged.inside_or_absent stored.tables accountId with ⟨source, inside⟩ | absent
    · obtain ⟨_, landed⟩ :=
        performed_holds (holds_recordRefresh valid inside result refreshedAt) rfl performed
      obtain ⟨_, granted⟩ :=
        performed_holds (Registered.holds_recordRefresh result refreshedAt) rfl performed
      exact announced_of_standing announced valid validAfter (standing_of_same granted.accounts)
        (dismissals_landed landed)
    · obtain ⟨_, recoveries, _, rfl, _⟩ :=
        performed_holds (holds_recordRefresh_absent valid absent result refreshedAt) rfl performed
      exact announced_of_same fun _ => rfl
  | clear accountId =>
    rcases Merged.inside_or_absent stored.tables accountId with ⟨source, inside⟩ | absent
    · obtain ⟨_, landed⟩ := performed_holds (holds_clear valid inside) rfl performed
      obtain ⟨_, cleared⟩ := performed_holds Registered.holds_clear rfl performed
      exact announced_of_standing announced valid validAfter (standing_of_same cleared.accounts)
        (dismissals_landed landed)
    · obtain ⟨_, recoveries, _, rfl, _⟩ := performed_holds (holds_clear_absent valid absent) rfl performed
      exact announced_of_same fun _ => rfl
  | expire now =>
    obtain ⟨_, _, rfl, _⟩ := performed_holds (holds_expire valid now) rfl performed
    exact announced_of_same fun _ => rfl
  | sync configs =>
    obtain ⟨_, _, sources, _, _, rfl, _⟩ := performed_holds (holds_sync valid configs) rfl performed
    exact announced_of_same fun _ => rfl
  | createPlan plan =>
    obtain ⟨id, created⟩ := exists_created performed
    exact announced_of_named created.announced rfl (List.mem_singleton_self _) rfl
  | updatePlan id change =>
    obtain ⟨_, current, edited⟩ := performed_holds (holds_update id change) rfl performed
    exact announced_of_named edited.announced rfl (List.mem_singleton_self _) rfl
  | deletePlan id =>
    obtain ⟨_, deleted⟩ := performed_holds (holds_delete id) rfl performed
    exact announced_of_named deleted.announced rfl (List.mem_singleton_self _) rfl
  | fill pricedAs =>
    obtain ⟨_, events, _, _, _, _, rfl, _⟩ := performed_holds (holds_fill pricedAs) rfl performed
    exact announced_of_same fun _ => rfl
  | reprice pricedAs start finish =>
    obtain ⟨_, events, _, _, _, _, rfl, _⟩ :=
      performed_holds (holds_reprice pricedAs start finish) rfl performed
    exact announced_of_same fun _ => rfl

/-- A batch announces the suggestions it changes unless it overtakes some. -/
theorem ingest_announced_iff (stored : Stored) (world : World) (source : SourceId) (records : List Incoming)
    (performed : perform runtime stored.tables world (.ingest source records) = (true, after)) :
    SuggestionsAnnounced stored.tables after ↔ ¬Overtakes stored.tables (.ingest source records) := by
  have valid := stored.valid
  have validAfter : Valid False after := Merged.valid_step valid False.elim
    (step_iff.mpr performed : step runtime _ (.ingest source records, world) = some after)
  obtain ⟨reading, announced⟩ := announced_performed stored runtime world _ performed
  have sights : Sighted source stored.tables records after := by
    simp only [perform, ingest_eq, performed_reading] at performed
    obtain ⟨_, sights⟩ := performed_holds (holds_ingesting_sighted valid records _ _) rfl performed
    exact sights
  have shown := @views_iff _ runtime source (world.clock reading) _ _ _ sights valid validAfter
  constructor
  · rintro tells ⟨unnoticed, reversed, ordered⟩
    have differ := (suggestions_differ_iff (resembles_of_unnoticed sights unnoticed) valid validAfter).mpr
      reversed
    exact silent_of_views announced rfl (shown.mpr ⟨unnoticed, ordered⟩) (tells differ)
  · intro within differ
    by_contra silent
    have same := shown.mp (views_of_silent announced silent)
    have resembles := resembles_of_unnoticed sights same.1
    exact within ⟨same.1, (suggestions_differ_iff resembles valid validAfter).mp differ, same.2⟩

/-- A committed write announces the suggestions it changes, unless it is a batch that reverses a pair
which could be a continuation and no sole one, and nothing a reader is shown of an account comes of it. -/
theorem suggestions_are_announced_iff (stored : Stored) (runtime : Sql.Runtime) (world : World)
    (command : Command) (committed : (perform runtime stored.tables world command).1 = true) :
    SuggestionsAnnounced stored.tables (perform runtime stored.tables world command).2 ↔
      ¬Overtakes stored.tables command := by
  have performed : perform runtime stored.tables world command =
      (true, (perform runtime stored.tables world command).2) := Prod.ext committed rfl
  cases command with
  | ingest source records => exact ingest_announced_iff stored world source records performed
  | _ =>
    have announced := announced_beside_ingest stored world _ (by rintro _ _ ⟨⟩) performed
    exact iff_of_true announced not_false

/-- A removed sign-in that a plan tracks, and one seen after it under the same address, which the gateway
spells with a capital. -/
def spelledApart : Tables := { Tables.empty with
  sources := [⟨1, "", "", .cliProxy, "", true, 0⟩]
  accounts := [⟨1, 1, "codex", "first", .oauth, some "a@b", none, none, 1, 1⟩,
    ⟨2, 1, "codex", "second", .oauth, some "A@b", none, none, 2, 2⟩]
  states := [⟨1, none, none, false, false, none, [], none, some "plus", true, some 1, none, none, some 2, none⟩,
    ⟨2, none, none, false, false, none, [], none, some "plus", true, some 3, none, none, none, none⟩]
  plans := [⟨1, 1, "plus", .zero, 0, none⟩] }

theorem valid_spelledApart : Valid False spelledApart := by
  constructor <;> simp [spelledApart, Tables.empty, Distinct, HasAccount]

def storedApart : Stored := ⟨spelledApart, valid_spelledApart⟩

/-- A request through the second sign-in from before the first was seen. -/
def beforeBoth : Command := .ingest 1 [.record (.idle "second" 0)]

theorem an_earlier_request_is_announced_iff :
    SuggestionsAnnounced spelledApart (perform .inert spelledApart (.calm 5 (· + 3)) beforeBoth).2 ↔
      ¬Overtakes spelledApart beforeBoth :=
  suggestions_are_announced_iff storedApart .inert (.calm 5 (· + 3)) beforeBoth (by decide +kernel)

/-- The replay of an old request ends a suggestion, and announces no account and no plan. -/
theorem a_suggestion_goes_unannounced :
    ¬∀ (stored : Stored) (runtime : Sql.Runtime) (world : World) (command : Command),
      (perform runtime stored.tables world command).1 = true →
      SuggestionsAnnounced stored.tables (perform runtime stored.tables world command).2 := by
  intro announces
  have committed : (perform .inert spelledApart (.calm 5 (· + 3)) beforeBoth).1 = true := by decide +kernel
  have differ : suggestions spelledApart 1 ≠
      suggestions (perform .inert spelledApart (.calm 5 (· + 3)) beforeBoth).2 1 := by decide +kernel
  have silent : ∀ subject ∈ told spelledApart (perform .inert spelledApart (.calm 5 (· + 3)) beforeBoth).2,
      isListed subject = false := by decide +kernel
  obtain ⟨subject, member, listed⟩ := announces storedApart .inert (.calm 5 (· + 3)) beforeBoth committed
    ⟨1, differ⟩
  rw [silent subject member] at listed
  cases listed

end MeteredUsage.Store.Reversals
