import Mathlib.Data.Int.ConditionallyCompleteOrder
import Mathlib.Data.String.Basic
import Mathlib.Order.ConditionallyCompleteLattice.Basic
import Mathlib.Order.WithBot
import MeteredUsage.Store.Continuations

/-! What a reader sees of each account, plan, quota window and manual reset grant, read in
a write's transaction before and after it writes, so the write records the changes it made
whichever of its statements made them. -/

namespace MeteredUsage.Store.Snapshots
open MeteredUsage.Values MeteredUsage.Store.Schema MeteredUsage.Store.Continuations
open MeteredUsage.Library.Keyed MeteredUsage.Library.Transaction
open MeteredUsage.Changes.Table (Subject)

/-- What the lists show of a cooldown: not how long it still lasts. -/
structure CooldownRow where
  scope : String
  modelKey : Option String
  reason : String
  retryAt : Timestamp
deriving DecidableEq, Repr

/-- The columns of `credential_state` the account and quota lists show. -/
structure StateRow where
  status : Option String
  statusMessage : Option String
  disabled : Bool
  unavailable : Bool
  nextRetryAfter : Option Timestamp
  cooldowns : List CooldownRow
  accountType : Option String
  plan : Option String
  hardRefreshable : Bool
  hardRefreshedAt : Option Timestamp
  hardRefreshError : Option String
  removedAt : Option Timestamp
  signInError : Option SignInError
deriving DecidableEq, Repr

/-- A credential merged into the account. -/
structure PreviousRow where
  accountId : AccountId
  label : Option String
  displayName : Option String
  provider : String
  authKind : AuthKind
  firstSeenAt : Timestamp
  lastSeenAt : Timestamp
deriving DecidableEq, Repr

/-- A row of `ACCOUNTS`. Its text is a JSON array of these values, of which JSON keeps every
one; `state` is absent where the left join finds none. -/
structure AccountRow where
  sourceName : String
  provider : String
  authKind : AuthKind
  label : Option String
  displayName : Option String
  mergedInto : Option AccountId
  state : Option StateRow
  baseUrl : String
  previous : List PreviousRow
deriving DecidableEq, Repr

/-- A row of `WINDOWS`, with its REAL columns as the JSON text writes them. -/
structure WindowRow where
  label : String
  usedFraction : Option String
  usedValue : Option String
  limitValue : Option String
  unit : Option String
  windowSeconds : Option Int
  resetsAt : Option Timestamp
  scope : String
  startsOnUse : Bool
deriving DecidableEq, Repr

def stateRow (state : CredentialState) : StateRow where
  status := state.status
  statusMessage := state.statusMessage
  disabled := state.disabled
  unavailable := state.unavailable
  nextRetryAfter := state.nextRetryAfter
  cooldowns := state.cooldowns.map fun cooldown =>
    ⟨cooldown.scope, cooldown.modelKey, cooldown.reason, cooldown.retryAt⟩
  accountType := state.accountType
  plan := state.plan
  hardRefreshable := state.hardRefreshable
  hardRefreshedAt := state.hardRefreshedAt
  hardRefreshError := state.hardRefreshError
  removedAt := state.removedAt
  signInError := state.signInError

def previousRow (account : Account) : PreviousRow where
  accountId := account.id
  label := account.label
  displayName := account.displayName
  provider := account.provider
  authKind := account.authKind
  firstSeenAt := account.firstSeenAt
  lastSeenAt := account.lastSeenAt

def previousRows (tables : Tables) (id : AccountId) : List PreviousRow :=
  (byId (tables.accounts.filter (·.mergedInto = some id))).map previousRow

/-- The row of `ACCOUNTS` for an account, whose source the join names. -/
def accountRow (tables : Tables) (account : Account) : Option AccountRow :=
  (lookup Source.id tables.sources account.sourceId).map fun source =>
    { sourceName := source.name
      provider := account.provider
      authKind := account.authKind
      label := account.label
      displayName := account.displayName
      mergedInto := account.mergedInto
      state := (stateOf tables account.id).map stateRow
      baseUrl := source.baseUrl
      previous := previousRows tables account.id }

def windowRow (runtime : Sql.Runtime) (window : QuotaWindow) : WindowRow where
  label := window.label
  usedFraction := window.usedFraction.map runtime.jsonReal
  usedValue := window.usedValue.map runtime.jsonReal
  limitValue := window.limitValue.map runtime.jsonReal
  unit := window.unit
  windowSeconds := window.windowSeconds
  resetsAt := window.resetsAt
  scope := window.scope
  startsOnUse := window.startsOnUse

def accountOf (tables : Tables) (id : AccountId) : Option Account :=
  lookup Account.id tables.accounts id

/-- The order grants are listed in, where NULL comes first. -/
def grantRank (grant : Grant) : WithBot Int ×ₗ WithBot String ×ₗ Int ×ₗ WithBot Int :=
  toLex (grant.expiresAt, toLex (grant.label, toLex (grant.remaining, grant.total)))

def isUnexpired (now : Timestamp) (grant : Grant) : Bool :=
  grant.expiresAt.all fun expiresAt => decide (now < expiresAt)

/-- The unexpired grants of an account, as `RESETS` lists them. -/
def grantsOf (tables : Tables) (now : Timestamp) (id : AccountId) : List Grant :=
  (((tables.credits.filter (·.accountId = id)).map Credit.grant).filter
    (isUnexpired now)).insertionSort fun first second => grantRank first ≤ grantRank second

/-- The accounts a write may touch. -/
inductive Scope where
  | all
  | source (sourceId : SourceId)
  | account (accountId : AccountId)
deriving DecidableEq, Repr

/-- What of each account a write may touch. -/
inductive Parts where
  | accounts
  /-- The accounts, their quota windows and their manual resets. -/
  | quota
deriving DecidableEq, Repr

/-- What a snapshot keeps of a subject. -/
inductive Seen where
  | account (row : AccountRow) (replacedBy : Option AccountId)
  | plan (accountId : AccountId) (replacedBy : Option AccountId)
  | window (row : WindowRow)
  | resets (grants : List Grant)
deriving DecidableEq, Repr

/-- The two parameters of the snapshot's queries. -/
structure Filter where
  source : Option SourceId
  account : Option AccountId
deriving DecidableEq, Repr

/-- An account's scope reads its whole source, which no write of one account changes beyond
that account's own subjects and the links. -/
def Scope.filter (scope : Scope) (tables : Tables) : Filter :=
  match scope with
  | .all => ⟨none, none⟩
  | .source sourceId => ⟨some sourceId, none⟩
  | .account accountId =>
    match accountOf tables accountId with
    | some known => ⟨some known.sourceId, none⟩
    | none => ⟨none, some accountId⟩

/-- The `WHERE` of `ACCOUNTS` and `PLANS`: with `?2` the account and the one it is merged
into. -/
def Filter.admits (filter : Filter) (tables : Tables) (account : Account) : Bool :=
  filter.source.all (account.sourceId = ·) &&
    filter.account.all fun id => account.id = id ||
      ((accountOf tables id).bind Account.mergedInto) = some account.id

/-- The `WHERE` of `WINDOWS` and `RESETS`. -/
def Filter.admitsExactly (filter : Filter) (account : Account) : Bool :=
  filter.source.all (account.sourceId = ·) && filter.account.all (account.id = ·)

def seenAccounts (tables : Tables) (filter : Filter) : List (Subject × Seen) :=
  (tables.accounts.filter (filter.admits tables)).filterMap fun account =>
    (accountRow tables account).map fun row =>
      (.account account.id, .account row (linked (replacements tables) account.id))

def seenPlans (tables : Tables) (filter : Filter) : List (Subject × Seen) :=
  (tables.plans.filter fun plan =>
      (accountOf tables plan.accountId).any (filter.admits tables)).map fun plan =>
    (.plan plan.id, .plan plan.accountId (linked (replacements tables) plan.accountId))

def seenWindows (runtime : Sql.Runtime) (tables : Tables) (filter : Filter) :
    List (Subject × Seen) :=
  (tables.windows.filter fun window =>
      (accountOf tables window.accountId).any filter.admitsExactly).map fun window =>
    (.window window.accountId window.windowKey, .window (windowRow runtime window))

def seenResets (tables : Tables) (filter : Filter) (now : Timestamp) : List (Subject × Seen) :=
  ((tables.accounts.filter filter.admitsExactly).filter fun account =>
      grantsOf tables now account.id ≠ []).map fun account =>
    (.resets account.id, .resets (grantsOf tables now account.id))

structure Snapshot where
  scope : Scope
  parts : Parts
  /-- The instant both reads count a grant as expired by. -/
  now : Timestamp
  /-- A primary key names every row once, so the map is the list of its entries. -/
  seen : List (Subject × Seen)
deriving DecidableEq, Repr

/-- The windows and grants a snapshot of quota keeps beside the accounts and plans. -/
def readQuota (runtime : Sql.Runtime) (filter : Filter) (now : Timestamp) :
    Parts → Write (List (Subject × Seen))
  | .accounts => return []
  | .quota => do
    let windows ← fetch fun tables => seenWindows runtime tables filter
    let resets ← fetch fun tables => seenResets tables filter now
    return windows ++ resets

/-- `Snapshot::read`. -/
def read (runtime : Sql.Runtime) (scope : Scope) (parts : Parts) (now : Timestamp) :
    Write Snapshot := do
  let filter ← fetch scope.filter
  let accounts ← fetch fun tables => seenAccounts tables filter
  let plans ← fetch fun tables => seenPlans tables filter
  let quota ← readQuota runtime filter now parts
  return ⟨scope, parts, now, accounts ++ plans ++ quota⟩

/-- What the account lists show of each account in scope. -/
def accounts (runtime : Sql.Runtime) (scope : Scope) : Write Snapshot := do
  let now ← reading
  read runtime scope .accounts now

/-- What the account and quota lists show of each account in scope, its quota windows and
its manual resets. -/
def quota (runtime : Sql.Runtime) (scope : Scope) : Write Snapshot := do
  let now ← reading
  read runtime scope .quota now

def seenAs (seen : List (Subject × Seen)) (subject : Subject) : Option Seen :=
  (lookup Prod.fst seen subject).map Prod.snd

/-- Every subject that reads differently, appeared or went. -/
def changedSubjects (before after : List (Subject × Seen)) : List Subject :=
  ((before.filter fun entry => seenAs after entry.1 ≠ some entry.2) ++
    (after.filter fun entry => seenAs before entry.1 ≠ some entry.2)).map Prod.fst

/-- Reads the same scope again and records a change for every subject that reads differently
now, appeared or went. -/
def recordChanges (runtime : Sql.Runtime) (snapshot : Snapshot) : Write Unit := do
  let after ← read runtime snapshot.scope snapshot.parts snapshot.now
  forM (inOrder (changedSubjects snapshot.seen after.seen)) record

end MeteredUsage.Store.Snapshots
