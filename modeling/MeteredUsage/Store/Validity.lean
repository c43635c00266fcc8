import MeteredUsage.Store.Commands

/-! What every stored state keeps: the keys of the tables, the rows their foreign keys name,
and accounts that are merged one step deep into an account of their own source. Whether
plans, too, stay off merged accounts is a parameter: it is true only of the runs that never
put one there. -/

namespace MeteredUsage.Store.Validity
open MeteredUsage.Values MeteredUsage.Store.Schema MeteredUsage.Store.Accounts
open MeteredUsage.Library.Keyed MeteredUsage.Library.Transaction

def HasAccount (accounts : List Account) (id : AccountId) : Prop :=
  ∃ account ∈ accounts, account.id = id

def Unmerged (accounts : List Account) (id : AccountId) : Prop :=
  ∃ account ∈ accounts, account.id = id ∧ account.mergedInto = none

/-- The account is one of the source, and not merged. -/
def Absorbs (accounts : List Account) (sourceId : SourceId) (id : AccountId) : Prop :=
  ∃ account ∈ accounts, account.id = id ∧ account.sourceId = sourceId ∧ account.mergedInto = none

def Inside (accounts : List Account) (source : SourceId) (id : AccountId) : Prop :=
  ∃ account ∈ accounts, account.id = id ∧ account.sourceId = source

structure Valid (charged : Prop) (tables : Tables) : Prop where
  sourceIds : Distinct Source.id tables.sources
  accountIds : Distinct Account.id tables.accounts
  accountKeys : Distinct (fun account => (account.sourceId, account.upstreamKey)) tables.accounts
  accountSources : ∀ account ∈ tables.accounts, ∃ source ∈ tables.sources, source.id = account.sourceId
  merges : ∀ account ∈ tables.accounts, ∀ target, account.mergedInto = some target →
    Absorbs tables.accounts account.sourceId target
  stateIds : Distinct CredentialState.accountId tables.states
  stateAccounts : ∀ state ∈ tables.states, HasAccount tables.accounts state.accountId
  softObserved : ∀ state ∈ tables.states, state.softObservedAt.isSome = true
  windowKeys : Distinct (fun window => (window.accountId, window.windowKey)) tables.windows
  windowAccounts : ∀ window ∈ tables.windows, HasAccount tables.accounts window.accountId
  creditAccounts : ∀ credit ∈ tables.credits, HasAccount tables.accounts credit.accountId
  planIds : Distinct Plan.id tables.plans
  planAccounts : ∀ plan ∈ tables.plans, HasAccount tables.accounts plan.accountId
  plansCharged : charged → ∀ plan ∈ tables.plans, Unmerged tables.accounts plan.accountId
  eventHashes : Distinct (fun event => (event.sourceId, event.recordHash)) tables.events
  eventAccounts : ∀ event ∈ tables.events, Absorbs tables.accounts event.sourceId event.accountId

theorem valid_empty (charged : Prop) : Valid charged Tables.empty := by
  constructor <;> simp [Tables.empty, Distinct]

variable {charged : Prop} {tables : Tables}

theorem Absorbs.unmerged {accounts : List Account} {sourceId : SourceId} {id : AccountId}
    (absorbs : Absorbs accounts sourceId id) : Unmerged accounts id := by
  obtain ⟨account, member, same, _, root⟩ := absorbs
  exact ⟨account, member, same, root⟩

theorem Unmerged.hasAccount {accounts : List Account} {id : AccountId}
    (unmerged : Unmerged accounts id) : HasAccount accounts id := by
  obtain ⟨account, member, same, _⟩ := unmerged
  exact ⟨account, member, same⟩

theorem Absorbs.inside {accounts : List Account} {source : SourceId} {id : AccountId}
    (absorbs : Absorbs accounts source id) : Inside accounts source id := by
  obtain ⟨account, member, same, inSource, _⟩ := absorbs
  exact ⟨account, member, same, inSource⟩

theorem Inside.hasAccount {accounts : List Account} {source : SourceId} {id : AccountId}
    (inside : Inside accounts source id) : HasAccount accounts id := by
  obtain ⟨account, member, same, _⟩ := inside
  exact ⟨account, member, same⟩

theorem Valid.feed (valid : Valid charged tables) (feed : Changes.Table.Feed) :
    Valid charged { tables with feed := feed } := { valid with }

theorem Valid.samples (valid : Valid charged tables) (samples : List QuotaSample) :
    Valid charged { tables with samples := samples } := { valid with }

theorem Valid.recoveries (valid : Valid charged tables) (recoveries : List Recovery) :
    Valid charged { tables with recoveries := recoveries } := { valid with }

theorem Valid.dismissals (valid : Valid charged tables) (dismissals : List Dismissal) :
    Valid charged { tables with dismissals := dismissals } := { valid with }

theorem Valid.deadLetters (valid : Valid charged tables) (deadLetters : List DeadLetter) :
    Valid charged { tables with deadLetters := deadLetters } := { valid with }

/-- Every account is still there, in its source and merged as it was. -/
def Kept (before after : List Account) : Prop :=
  ∀ account ∈ before, ∃ next ∈ after,
    next.id = account.id ∧ next.sourceId = account.sourceId ∧ next.mergedInto = account.mergedInto

theorem Kept.absorbs {before after : List Account} (kept : Kept before after) {sourceId : SourceId}
    {id : AccountId} (absorbs : Absorbs before sourceId id) : Absorbs after sourceId id := by
  obtain ⟨account, member, same, source, root⟩ := absorbs
  obtain ⟨next, stays, id, inSource, merged⟩ := kept account member
  exact ⟨next, stays, id.trans same, inSource.trans source, merged.trans root⟩

theorem Kept.unmerged {before after : List Account} (kept : Kept before after) {id : AccountId}
    (unmerged : Unmerged before id) : Unmerged after id := by
  obtain ⟨account, member, same, root⟩ := unmerged
  obtain ⟨next, stays, id, _, merged⟩ := kept account member
  exact ⟨next, stays, id.trans same, merged.trans root⟩

theorem Kept.hasAccount {before after : List Account} (kept : Kept before after) {id : AccountId}
    (has : HasAccount before id) : HasAccount after id := by
  obtain ⟨account, member, same⟩ := has
  obtain ⟨next, stays, id, _⟩ := kept account member
  exact ⟨next, stays, id.trans same⟩

theorem Kept.inside {before after : List Account} (kept : Kept before after) {source : SourceId} {id : AccountId}
    (inside : Inside before source id) : Inside after source id := by
  obtain ⟨account, member, same, inSource⟩ := inside
  obtain ⟨next, stays, id, source, _⟩ := kept account member
  exact ⟨next, stays, id.trans same, source.trans inSource⟩

/-- Other rows follow the accounts wherever every account is kept. -/
theorem Valid.setAccounts (valid : Valid charged tables) {accounts : List Account}
    (kept : Kept tables.accounts accounts) (ids : Distinct Account.id accounts)
    (keys : Distinct (fun account => (account.sourceId, account.upstreamKey)) accounts)
    (sources : ∀ account ∈ accounts, ∃ source ∈ tables.sources, source.id = account.sourceId)
    (merges : ∀ account ∈ accounts, ∀ target, account.mergedInto = some target →
      Absorbs accounts account.sourceId target) :
    Valid charged { tables with accounts := accounts } :=
  { valid with
    accountIds := ids
    accountKeys := keys
    accountSources := sources
    merges := merges
    stateAccounts := fun state member => kept.hasAccount (valid.stateAccounts state member)
    windowAccounts := fun window member => kept.hasAccount (valid.windowAccounts window member)
    creditAccounts := fun credit member => kept.hasAccount (valid.creditAccounts credit member)
    planAccounts := fun plan member => kept.hasAccount (valid.planAccounts plan member)
    plansCharged := fun holds plan member => kept.unmerged (valid.plansCharged holds plan member)
    eventAccounts := fun event member => kept.absorbs (valid.eventAccounts event member) }

/-- A change that leaves alone which account a row is and where it is merged. -/
structure KeepsIdentity (change : Account → Account) : Prop where
  id : ∀ account, (change account).id = account.id
  sourceId : ∀ account, (change account).sourceId = account.sourceId
  upstreamKey : ∀ account, (change account).upstreamKey = account.upstreamKey
  mergedInto : ∀ account, (change account).mergedInto = account.mergedInto

theorem keeps_widen (first last : Timestamp) : KeepsIdentity (widen first last) :=
  ⟨fun _ => rfl, fun _ => rfl, fun _ => rfl, fun _ => rfl⟩

theorem keeps_seen (new : NewAccount) (seenAt : Timestamp) : KeepsIdentity (seen new seenAt) :=
  ⟨fun _ => rfl, fun _ => rfl, fun _ => rfl, fun _ => rfl⟩

theorem keeps_listed (new : NewAccount) (provider : String) : KeepsIdentity (listed new provider) :=
  ⟨fun _ => rfl, fun _ => rfl, fun _ => rfl, fun _ => rfl⟩

theorem KeepsIdentity.onlyWhere {change : Account → Account} (keeps : KeepsIdentity change)
    (chosen : Account → Prop) [DecidablePred chosen] :
    KeepsIdentity fun account => if chosen account then change account else account := by
  constructor <;> intro account <;> by_cases holds : chosen account <;>
    simp [holds, keeps.id, keeps.sourceId, keeps.upstreamKey, keeps.mergedInto]

theorem KeepsIdentity.kept {change : Account → Account} (keeps : KeepsIdentity change)
    (accounts : List Account) : Kept accounts (accounts.map change) := fun account member =>
  ⟨change account, List.mem_map_of_mem member, keeps.id account, keeps.sourceId account,
    keeps.mergedInto account⟩

theorem Valid.mapAccounts (valid : Valid charged tables) {change : Account → Account}
    (keeps : KeepsIdentity change) :
    Valid charged { tables with accounts := tables.accounts.map change } := by
  have kept := keeps.kept tables.accounts
  apply valid.setAccounts kept
  · exact valid.accountIds.map keeps.id
  · exact valid.accountKeys.map fun account => by rw [keeps.sourceId, keeps.upstreamKey]
  · intro next member
    obtain ⟨account, stored, rfl⟩ := List.mem_map.mp member
    rw [keeps.sourceId]
    exact valid.accountSources account stored
  · intro next member target merged
    obtain ⟨account, stored, rfl⟩ := List.mem_map.mp member
    rw [keeps.mergedInto] at merged
    rw [keeps.sourceId]
    exact kept.absorbs (valid.merges account stored target merged)

theorem Valid.appendAccount (valid : Valid charged tables) {row : Account}
    (freshId : ∀ account ∈ tables.accounts, account.id ≠ row.id)
    (freshKey : ∀ account ∈ tables.accounts, holdsKey row.sourceId row.upstreamKey account = false)
    (source : ∃ source ∈ tables.sources, source.id = row.sourceId) (root : row.mergedInto = none) :
    Valid charged { tables with accounts := tables.accounts ++ [row] } := by
  have kept : Kept tables.accounts (tables.accounts ++ [row]) := fun account member =>
    ⟨account, List.mem_append_left _ member, rfl, rfl, rfl⟩
  apply valid.setAccounts kept
  · exact valid.accountIds.append_singleton freshId
  · apply valid.accountKeys.append_singleton
    intro account member same
    have other := freshKey account member
    simp only [Prod.mk.injEq] at same
    simp [holdsKey, same.1, same.2] at other
  · intro account member
    rcases List.mem_append.mp member with stored | new
    · exact valid.accountSources account stored
    · exact List.mem_singleton.mp new ▸ source
  · intro account member target merged
    rcases List.mem_append.mp member with stored | new
    · exact kept.absorbs (valid.merges account stored target merged)
    · rw [List.mem_singleton.mp new, root] at merged
      cases merged

theorem holdsKey_iff {sourceId : SourceId} {key : String} {account : Account} :
    holdsKey sourceId key account = true ↔ account.sourceId = sourceId ∧ account.upstreamKey = key := by
  simp [holdsKey]

/-- What `upsert` did: it changed the row of the key, or appended the new one. -/
theorem upsert_cases {row stored : Account} {conflict : Account → Account} {next : Tables}
    (upserted : upsert row conflict tables = some (stored, next)) :
    (∃ known ∈ tables.accounts, holdsKey row.sourceId row.upstreamKey known = true ∧
      stored = conflict known ∧ next = { tables with
        accounts := tables.accounts.map fun account =>
          if holdsKey row.sourceId row.upstreamKey account then conflict account else account }) ∨
    ((∀ account ∈ tables.accounts, account.id ≠ row.id) ∧
      (∀ account ∈ tables.accounts, holdsKey row.sourceId row.upstreamKey account = false) ∧
      (∃ source ∈ tables.sources, source.id = row.sourceId) ∧ stored = row ∧
      next = { tables with accounts := tables.accounts ++ [row] }) := by
  unfold upsert at upserted
  split at upserted
  next => cases upserted
  next fresh =>
    split at upserted
    next known found =>
      cases upserted
      exact .inl ⟨known, List.mem_of_find?_eq_some found, List.find?_some found, rfl, rfl⟩
    next absent =>
      split at upserted
      next source =>
        cases upserted
        refine .inr ⟨by simpa using fresh, ?_, by simpa using source, rfl, rfl⟩
        simpa using absent
      next => cases upserted

/-- The row an upsert answers is stored, under its key and merged as it was. -/
theorem Valid.upsert (valid : Valid charged tables) {row stored : Account}
    {conflict : Account → Account} {next : Tables} (keeps : KeepsIdentity conflict)
    (root : row.mergedInto = none) (upserted : upsert row conflict tables = some (stored, next)) :
    Valid charged next ∧ stored ∈ next.accounts ∧
      holdsKey row.sourceId row.upstreamKey stored = true := by
  rcases upsert_cases upserted with ⟨known, member, holds, rfl, rfl⟩ | ⟨fresh, free, source, rfl, rfl⟩
  · refine ⟨valid.mapAccounts (keeps.onlyWhere fun account =>
      holdsKey row.sourceId row.upstreamKey account = true), ?_, ?_⟩
    · exact List.mem_map.mpr ⟨known, member, if_pos holds⟩
    · rw [holdsKey_iff] at holds ⊢
      exact ⟨(keeps.sourceId known).trans holds.1, (keeps.upstreamKey known).trans holds.2⟩
  · refine ⟨valid.appendAccount fresh free source root, by simp, ?_⟩
    exact holdsKey_iff.mpr ⟨rfl, rfl⟩

/-- Two rows of a table without two rows of one id are one row. -/
theorem Valid.sameAccount (valid : Valid charged tables) {first second : Account}
    (left : first ∈ tables.accounts) (right : second ∈ tables.accounts) (same : first.id = second.id) :
    first = second := valid.accountIds.eq_of_key left right same

/-- The account a stored row resolves to is one of its source, and not merged. -/
theorem Valid.absorbs (valid : Valid charged tables) {account : Account}
    (member : account ∈ tables.accounts) :
    Absorbs tables.accounts account.sourceId (account.mergedInto.getD account.id) := by
  cases merged : account.mergedInto with
  | none => exact ⟨account, member, rfl, rfl, merged⟩
  | some target => exact valid.merges account member target merged

theorem Valid.mapStates (valid : Valid charged tables) {change : CredentialState → CredentialState}
    (same : ∀ state, (change state).accountId = state.accountId)
    (observed : ∀ state, state.softObservedAt.isSome = true →
      (change state).softObservedAt.isSome = true) :
    Valid charged { tables with states := tables.states.map change } :=
  { valid with
    stateIds := valid.stateIds.map same
    stateAccounts := by
      intro next member
      obtain ⟨state, stored, rfl⟩ := List.mem_map.mp member
      rw [same]
      exact valid.stateAccounts state stored
    softObserved := by
      intro next member
      obtain ⟨state, stored, rfl⟩ := List.mem_map.mp member
      exact observed state (valid.softObserved state stored) }

end MeteredUsage.Store.Validity
