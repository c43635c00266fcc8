import MeteredUsage.Store.Arrivals
import MeteredUsage.Store.SeenWindows

/-! The writes of accounts and requests, as steps of the seen windows. A batch takes one step for each
record that is not rejected, a credential list one for each credential, and a merge one. -/

namespace MeteredUsage.Store.WindowSteps
open MeteredUsage.Values MeteredUsage.Store.Schema MeteredUsage.Store.Ingest
open MeteredUsage.Store.Statements MeteredUsage.Store.Landing MeteredUsage.Store.Intake
open MeteredUsage.Store.Commands MeteredUsage.Store.Arrivals MeteredUsage.Store.Sparing
open MeteredUsage.Store.Links MeteredUsage.Store.Upkeep MeteredUsage.Store.Validity
open MeteredUsage.Store.Accounts (NewAccount updateAccount)
open MeteredUsage.Store.SeenWindows (Seen Charge Rows Operation Covers Widened step_spec)
open MeteredUsage.Library.Execution MeteredUsage.Library.Keyed MeteredUsage.Library.Transaction

/-- The columns of a row its window depends on. -/
def seenOf (account : Account) : Seen Timestamp :=
  ⟨account.id, account.sourceId, account.upstreamKey, account.mergedInto, account.firstSeenAt, account.lastSeenAt⟩

def chargeOf (event : UsageEvent) : Charge Timestamp :=
  ⟨event.sourceId, event.recordHash, event.accountId, event.occurredAt⟩

def rowsOf (tables : Tables) : Rows Timestamp := ⟨tables.accounts.map seenOf, tables.events.map chargeOf⟩

variable {runtime : Sql.Runtime} {source : SourceId} {candidate : AccountId} {base tables next : Tables}

theorem find_seenOf (accounts : List Account) (key : String) :
    (accounts.map seenOf).find? (SeenWindows.holdsKey source key) =
      (accounts.find? (Accounts.holdsKey source key)).map seenOf := List.find?_map

/-- A change of a row that a change of its columns follows. -/
def Follows (conflict : Account → Account) (change : Seen Timestamp → Seen Timestamp) : Prop :=
  ∀ account, seenOf (conflict account) = change (seenOf account)

/-- The rows that are changed where they are chosen. -/
theorem map_seenOf {conflict : Account → Account} {change : Seen Timestamp → Seen Timestamp}
    (follows : Follows conflict change) (chosen : Account → Prop) [DecidablePred chosen]
    (also : Seen Timestamp → Prop) [DecidablePred also] (same : ∀ account, chosen account ↔ also (seenOf account))
    (accounts : List Account) :
    (accounts.map fun account => if chosen account then conflict account else account).map seenOf =
      (accounts.map seenOf).map fun account => if also account then change account else account := by
  rw [List.map_map, List.map_map]
  apply List.map_congr_left
  intro account _
  simp only [Function.comp_apply, ← same account]
  split
  next => exact follows account
  next => rfl

theorem map_keyed {conflict : Account → Account} {change : Seen Timestamp → Seen Timestamp}
    (follows : Follows conflict change) (key : String) (accounts : List Account) :
    (accounts.map fun account => if Accounts.holdsKey source key account then conflict account else account).map seenOf =
      (accounts.map seenOf).map fun account =>
        if SeenWindows.holdsKey source key account then change account else account :=
  map_seenOf follows (Accounts.holdsKey source key · = true) (SeenWindows.holdsKey source key · = true)
    (fun _ => Iff.rfl) accounts

theorem unused_seenOf {id : AccountId} (unused : ∀ account ∈ tables.accounts, account.id ≠ id) :
    ¬(rowsOf tables).accounts.any (·.id = id) = true := by
  rw [List.any_eq_true]
  rintro ⟨_, member, same⟩
  obtain ⟨account, stored, rfl⟩ := List.mem_map.mp member
  exact unused account stored (of_decide_eq_true same)

theorem upsert_present {row known : Seen Timestamp} {change : Seen Timestamp → Seen Timestamp} {rows : Rows Timestamp}
    (free : ¬rows.accounts.any (·.id = row.id) = true)
    (present : rows.accounts.find? (SeenWindows.holdsKey row.sourceId row.upstreamKey) = some known) :
    SeenWindows.upsert row change rows = some (change known, { rows with
      accounts := rows.accounts.map fun account =>
        if SeenWindows.holdsKey row.sourceId row.upstreamKey account then change account else account }) := by
  unfold SeenWindows.upsert
  rw [if_neg free, present]

theorem upsert_absent {row : Seen Timestamp} {change : Seen Timestamp → Seen Timestamp} {rows : Rows Timestamp}
    (free : ¬rows.accounts.any (·.id = row.id) = true)
    (absent : rows.accounts.find? (SeenWindows.holdsKey row.sourceId row.upstreamKey) = none) :
    SeenWindows.upsert row change rows = some (row, { rows with accounts := rows.accounts ++ [row] }) := by
  unfold SeenWindows.upsert
  rw [if_neg free, absent]

theorem upsert_seenOf {conflict : Account → Account} {change : Seen Timestamp → Seen Timestamp}
    (follows : Follows conflict change) {row stored : Account}
    (taken : Accounts.upsert row conflict tables = some (stored, next)) :
    SeenWindows.upsert (seenOf row) change (rowsOf tables) = some (seenOf stored, rowsOf next) := by
  obtain ⟨unused, found⟩ := upsert_eq taken
  have free := unused_seenOf unused
  have known := @find_seenOf row.sourceId tables.accounts row.upstreamKey
  rcases found with ⟨account, present, rfl, rfl⟩ | ⟨absent, rfl, rfl⟩
  · rw [present] at known
    rw [upsert_present free known, follows account]
    simp only [rowsOf, map_keyed follows]
    rfl
  · rw [absent] at known
    rw [upsert_absent free known]
    simp only [rowsOf, List.map_append]
    rfl

theorem follows_seen (new : NewAccount) (seenAt : Timestamp) :
    Follows (Accounts.seen new seenAt) (Seen.widen seenAt seenAt) := fun _ => rfl

theorem follows_widen (first last : Timestamp) : Follows (Accounts.widen first last) (Seen.widen first last) :=
  fun _ => rfl

/-- A request's account is resolved among the columns as it is among the rows. -/
theorem resolve_seenOf {account : NewAccount} {provider : String} {seenAt : Timestamp}
    (unused : ∀ known ∈ tables.accounts, known.id ≠ candidate) {id : AccountId} {accounts : List Account}
    (charged : accounts = attributed (account.row candidate source provider seenAt) account seenAt tables.accounts)
    (owner : ownerOf accounts source (account.key provider) = some id) :
    SeenWindows.resolve candidate source (account.key provider) seenAt (rowsOf tables) =
      some (id, ⟨accounts.map seenOf, tables.events.map chargeOf⟩) := by
  let row := account.row candidate source provider seenAt
  have known := @find_seenOf source tables.accounts (account.key provider)
  have free : ¬(rowsOf tables).accounts.any (·.id = (seenOf row).id) = true := unused_seenOf unused
  have mine : Accounts.holdsKey source (account.key provider) row = true := by
    simp [row, Accounts.holdsKey, NewAccount.row]
  rw [charged, ownerOf_attributed, mine, if_pos rfl, ownerOf] at owner
  unfold attributed at charged
  unfold SeenWindows.resolve
  change Option.map _ (SeenWindows.upsert (seenOf row) _ _) = _
  split at charged
  next absent =>
    change tables.accounts.find? (Accounts.holdsKey source (account.key provider)) = none at absent
    rw [absent] at known owner
    rw [upsert_absent free known, charged]
    cases owner
    simp only [List.map_append]
    rfl
  next stored present =>
    change tables.accounts.find? (Accounts.holdsKey source (account.key provider)) = some stored at present
    rw [present] at known owner
    rw [upsert_present free known]
    cases owner
    have seen := @map_keyed (account.row candidate source provider seenAt).sourceId _ _ (follows_seen account seenAt)
      (account.row candidate source provider seenAt).upstreamKey tables.accounts
    dsimp only at charged
    split at charged
    next alone =>
      have root : (Seen.widen seenAt seenAt (seenOf stored)).mergedInto = none := alone
      simp only [Option.map_some, root, charged, seen, alone, Intake.root]
      rfl
    next target merged =>
      have moved : (Seen.widen seenAt seenAt (seenOf stored)).mergedInto = some target := merged
      have widened (rows : List Account) := map_seenOf (follows_widen seenAt seenAt) (·.id = target) (·.id = target)
        (fun _ => Iff.rfl) rows
      simp only [Option.map_some, moved, charged, widened, seen, merged, Intake.root]
      rfl

/-- A request's event is stored among the columns where its source has not delivered it before. -/
theorem ingest_seenOf {account : NewAccount} {provider : String} {seenAt : Timestamp}
    (unused : ∀ known ∈ tables.accounts, known.id ≠ candidate) {id : AccountId} {accounts : List Account}
    (charged : accounts = attributed (account.row candidate source provider seenAt) account seenAt tables.accounts)
    (owner : ownerOf accounts source (account.key provider) = some id) (hash : String) :
    SeenWindows.ingest candidate source (account.key provider) hash seenAt (rowsOf tables) =
      some ⟨accounts.map seenOf, if tables.events.any (holdsHash source hash) then tables.events.map chargeOf
        else tables.events.map chargeOf ++ [⟨source, hash, id, seenAt⟩]⟩ := by
  have delivered : (tables.events.map chargeOf).any (fun event =>
      event.sourceId = source && event.recordHash = hash) = tables.events.any (holdsHash source hash) :=
    List.any_map
  rw [SeenWindows.ingest, resolve_seenOf unused charged owner]
  dsimp only [Option.map_some]
  rw [delivered]
  split
  next => rfl
  next => rfl

/-- The columns of one state come from those of another by steps of the windows. -/
def Traces (base tables : Tables) : Prop :=
  ∃ operations, run SeenWindows.step (rowsOf base) operations = some (rowsOf tables)

theorem Traces.refl (base : Tables) : Traces base base := ⟨[], rfl⟩

theorem Traces.step (traces : Traces base tables) (operation : Operation Timestamp)
    (taken : SeenWindows.step (rowsOf tables) operation = some (rowsOf next)) : Traces base next := by
  obtain ⟨operations, reached⟩ := traces
  refine ⟨operations ++ [operation], (run_append ..).mpr ⟨_, reached, ?_⟩⟩
  exact (run_cons ..).mpr ⟨_, taken, rfl⟩

theorem Traces.taken {receivedAt : Timestamp} {progress after : Progress} {record : Events.Incoming}
    (traces : Traces base tables) (taken : Taken runtime source receivedAt tables progress record after next) :
    Traces base next := by
  cases taken with
  | rejected error payload id => exact traces
  | duplicate event candidate owner isNewCredential accounts charged owned known unused =>
    apply traces.step (.ingest candidate source (event.account.key event.provider)
      (event.recordHash runtime) event.occurredAt)
    refine (ingest_seenOf unused charged owned (event.recordHash runtime)).trans ?_
    rw [if_pos known]
    rfl
  | accepted event candidate owner isNewCredential accounts id arrival stored charged owned unknown _ appended unused =>
    subst appended
    apply traces.step (.ingest candidate source (event.account.key event.provider)
      (event.recordHash runtime) event.occurredAt)
    refine (ingest_seenOf unused charged owned (event.recordHash runtime)).trans ?_
    rw [if_neg (Bool.eq_false_iff.mp unknown)]
    simp only [rowsOf, List.map_append]
    rfl

theorem Traces.beside (traces : Traces base tables) (events : next.events = tables.events)
    (accounts : next.accounts = tables.accounts) : Traces base next := by
  obtain ⟨operations, reached⟩ := traces
  exact ⟨operations, by rw [reached, rowsOf, rowsOf, events, accounts]⟩

theorem beside_traces : Beside (Traces base) := fun _ _ traces events accounts => traces.beside events accounts

theorem registering_traces : Registering source (Traces base) where
  registered := by
    intro candidate provider account observedAt tables next stored traces taken
    apply traces.step (.register candidate source (account.key provider) observedAt)
    have listed : Follows (Accounts.listed account provider) id := fun _ => rfl
    change (SeenWindows.register _ _ _ _ _).map Prod.snd = _
    rw [SeenWindows.register]
    change ((SeenWindows.upsert (seenOf (account.row candidate source provider observedAt)) id _).map _).map _ = _
    rw [upsert_seenOf listed taken]
    rfl
  beside := beside_traces

theorem find_id (accounts : List Account) (id : AccountId) :
    (accounts.map seenOf).find? (·.id = id) = (lookup Account.id accounts id).map seenOf := List.find?_map

theorem rowsOf_combined (id into : AccountId) (merged : Account) : rowsOf (combined id into merged base) =
    SeenWindows.updateAccount into (Seen.widen merged.firstSeenAt merged.lastSeenAt)
      (SeenWindows.pointAt id into (SeenWindows.moveEvents id into (rowsOf base))) := by
  have moved : (AccountWrites.moveEvents id into base).events.map chargeOf =
      (base.events.map chargeOf).map fun event =>
        if event.accountId = id then { event with accountId := into } else event := by
    rw [AccountWrites.moveEvents, List.map_map, List.map_map]
    apply List.map_congr_left
    intro event _
    change chargeOf (if event.accountId = id then _ else event) = if event.accountId = id then _ else chargeOf event
    split
    next => rfl
    next => rfl
  have points : Follows (fun account => { account with mergedInto := some into })
      fun account => { account with mergedInto := some into } := fun _ => rfl
  have pointed := map_seenOf points (fun account => account.id = id ∨ account.mergedInto = some id)
    (fun account => account.id = id ∨ account.mergedInto = some id) (fun _ => Iff.rfl) base.accounts
  have widened (accounts : List Account) := map_seenOf (follows_widen merged.firstSeenAt merged.lastSeenAt)
    (·.id = into) (·.id = into) (fun _ => Iff.rfl) accounts
  have accounts : (combined id into merged base).accounts.map seenOf = _ :=
    (widened _).trans (congrArg (List.map _) pointed)
  rw [rowsOf, accounts]
  exact congrArg (Rows.mk _) moved

/-- A merge joins the same two accounts among the columns. -/
theorem merge_seenOf {id into : AccountId} {requires : Bool} {merged target : Account}
    (joins : Joins base id into requires merged target) :
    SeenWindows.merge id into (rowsOf base) = some (rowsOf (combined id into merged base)) := by
  have found : (rowsOf base).accounts.find? (·.id = id) = some (seenOf merged) := by
    rw [rowsOf, find_id, show lookup Account.id base.accounts id = some merged from joins.mergedFound]
    rfl
  have other : (rowsOf base).accounts.find? (·.id = into) = some (seenOf target) := by
    rw [rowsOf, find_id, show lookup Account.id base.accounts into = some target from joins.targetFound]
    rfl
  have meets : (seenOf merged).sourceId = (seenOf target).sourceId ∧ (seenOf merged).mergedInto = none ∧
      (seenOf target).mergedInto = none := ⟨joins.oneSource, joins.mergedRoot, joins.targetRoot⟩
  unfold SeenWindows.merge
  rw [if_neg joins.differs, found, other, rowsOf_combined]
  exact if_pos meets

theorem traces_merged (traces : Traces base tables) {id into : AccountId} {requires : Bool} {merged target : Account}
    (joins : Joins tables id into requires merged target) : Traces base (combined id into merged tables) :=
  traces.step (.merge id into) (merge_seenOf joins)

/-- Pricing leaves the columns as they are. -/
theorem Traces.priced (traces : Traces base tables) (priced : Priced tables next) : Traces base next := by
  obtain ⟨events, _, same, _, entries, rfl, _⟩ := priced
  obtain ⟨operations, reached⟩ := traces
  have charges (events : List UsageEvent) : (events.map uncosted).map chargeOf = events.map chargeOf := by
    rw [List.map_map]
    rfl
  refine ⟨operations, reached.trans (congrArg some ?_)⟩
  exact congrArg (Rows.mk _) ((charges tables.events).symm.trans (same ▸ charges events))

theorem traces_ingest (records : List Events.Incoming) :
    Holds (fun tables => tables = base) (Ingest.ingest runtime source records) (OnCommit (Traces base)) := by
  rw [ingest_eq]
  apply Holds.reading_then
  intro receivedAt
  apply Holds.reading_then
  intro now
  have kept : Holds (Traces base) (ingesting runtime source records receivedAt now)
      fun ending tables => ∀ progress, ending = .committed progress → Traces base tables := by
    apply @holds_ingesting_taken runtime source fun _ _ => Traces base
    · exact fun _ _ => beside_traces.ignores
    · exact fun _ _ _ _ _ _ _ _ traces taken => traces.taken taken
  apply kept.weaken
  · rintro tables rfl
    exact .refl tables
  · intro ending tables final
    cases ending with
    | committed progress => exact final progress rfl
    | dropped _ => trivial

/-- A name is none of the columns. -/
theorem traces_renamed (id : AccountId) (displayName : Option String) :
    Traces base (updateAccount id (AccountWrites.withName displayName) base) := by
  have columns : (updateAccount id (AccountWrites.withName displayName) base).accounts.map seenOf =
      base.accounts.map seenOf := by
    rw [updateAccount, List.map_map]
    apply List.map_congr_left
    intro account _
    change seenOf (if account.id = id then _ else account) = seenOf account
    split
    next => rfl
    next => rfl
  exact ⟨[], congrArg (fun accounts => some (Rows.mk accounts _)) columns.symm⟩

/-- Whatever is written, the columns come from what they were by steps of the windows. -/
theorem traces_step {charged : Prop} (valid : Valid charged tables) {action : Command × World}
    (taken : step runtime tables action = some next) : Traces tables next := by
  obtain ⟨command, world⟩ := action
  have performed := step_iff.mp taken
  have announced {subjects : List Changes.Table.Subject} {middle : Tables}
      (announced : Announced tables subjects middle next) (events : middle.events = tables.events)
      (accounts : middle.accounts = tables.accounts) : Traces tables next :=
    beside_traces.recorded ((Traces.refl tables).beside events accounts) announced
  cases command with
  | rename id displayName =>
    obtain ⟨_, traces⟩ :=
      performed_holds (beside_traces.holds_rename id displayName (traces_renamed id displayName)) rfl performed
    exact traces
  | merge id into requires =>
    obtain ⟨_, merged, target, changes, joins, _, recorded⟩ :=
      performed_holds (holds_merge_combined id into requires) rfl performed
    exact beside_traces.recorded (traces_merged (.refl tables) joins) recorded
  | dismissContinuation previous replacement =>
    obtain ⟨_, rfl | ⟨middle, inserted, dismissed⟩⟩ :=
      performed_holds (holds_dismissContinuation previous replacement) rfl performed
    · exact .refl _
    · unfold AccountWrites.insertDismissal at inserted
      split at inserted
      next => cases inserted
      next =>
        cases inserted
        exact announced dismissed rfl rfl
  | ingest sourceId records =>
    obtain ⟨_, traces⟩ := performed_holds (traces_ingest records) rfl performed
    exact traces
  | store sourceId listing =>
    obtain ⟨_, traces⟩ := performed_holds (registering_traces.holds_store (.refl tables) listing) rfl performed
    exact traces
  | recordRefresh accountId result refreshedAt =>
    obtain ⟨_, traces⟩ :=
      performed_holds (beside_traces.holds_recordRefresh (.refl tables) result refreshedAt) rfl performed
    exact traces
  | clear accountId =>
    obtain ⟨_, traces⟩ := performed_holds (beside_traces.holds_clear (.refl tables)) rfl performed
    exact traces
  | expire now =>
    obtain ⟨_, expired⟩ := performed_holds (holds_expire valid now) rfl performed
    have without : Traces tables (without (expiredIds now tables) tables) := (Traces.refl tables).beside rfl rfl
    exact beside_traces.recorded without expired
  | sync configs =>
    obtain ⟨_, _, sources, _, synced⟩ := performed_holds (holds_sync valid configs) rfl performed
    have followed : Traces tables { tables with sources := sources } := (Traces.refl tables).beside rfl rfl
    exact beside_traces.recorded followed synced
  | createPlan plan =>
    obtain ⟨id, created⟩ := exists_created performed
    exact announced created.announced rfl rfl
  | updatePlan id change =>
    obtain ⟨_, current, edited⟩ := performed_holds (holds_update id change) rfl performed
    exact announced edited.announced rfl rfl
  | deletePlan id =>
    obtain ⟨_, deleted⟩ := performed_holds (holds_delete id) rfl performed
    exact announced deleted.announced rfl rfl
  | fill pricedAs =>
    obtain ⟨_, priced⟩ := performed_holds (holds_fill pricedAs) rfl performed
    exact Traces.priced (.refl tables) priced
  | reprice pricedAs start finish =>
    obtain ⟨_, priced⟩ := performed_holds (holds_reprice pricedAs start finish) rfl performed
    exact Traces.priced (.refl tables) priced

/-- The steps of the windows keep each request in the window of its account, and narrow none. -/
theorem Traces.covers (traces : Traces tables next) (covers : Covers (rowsOf tables)) :
    Covers (rowsOf next) ∧ Widened (rowsOf tables) (rowsOf next) := by
  obtain ⟨operations, reached⟩ := traces
  apply @invariant_run_free _ _ _ (fun rows => Covers rows ∧ Widened (rowsOf tables) rows) _ _ _ _
    ⟨covers, .refl _⟩ reached
  intro start operation after kept taken
  obtain ⟨stays, wider⟩ := step_spec kept.1 taken
  exact ⟨stays, kept.2.trans wider⟩

/-- In every state that the writes of the service lead to, each request is within the window of the
account it is charged to, which is not merged. -/
theorem covers_run (valid : Valid False tables) (covers : Covers (rowsOf tables))
    {actions : List (Command × World)} (reached : run (step runtime) tables actions = some next) :
    Covers (rowsOf next) ∧ Widened (rowsOf tables) (rowsOf next) := by
  apply And.right (a := Valid False next)
  apply @invariant_run_free _ _ _
    (fun state => Valid False state ∧ Covers (rowsOf state) ∧ Widened (rowsOf tables) (rowsOf state)) _ _ _ _
    ⟨valid, covers, .refl _⟩ reached
  intro start action after kept taken
  obtain ⟨stays, wider⟩ := (traces_step kept.1 taken).covers kept.2.1
  exact ⟨Merged.valid_step kept.1 False.elim taken, stays, kept.2.2.trans wider⟩

end MeteredUsage.Store.WindowSteps
