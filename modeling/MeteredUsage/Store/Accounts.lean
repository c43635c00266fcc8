import MeteredUsage.Store.Schema

/-! The upstream credential whose quota a request consumed: how a record or a credential
list finds its account, and creates it the first time the source reports it. -/

namespace MeteredUsage.Store.Accounts
open MeteredUsage.Values MeteredUsage.Store.Schema MeteredUsage.Library.Transaction

/-- Shorter than this, the last four characters of a secret are most of it. -/
def maskableLength : Nat := 8
def maskTail : Nat := 4

/-- All that may be kept of a secret: enough of its end to tell two apart, or nothing when
that end would be most of it. -/
def mask (secret : String) : Option String :=
  let characters := secret.toList
  if characters.length < maskableLength then none
  else some (String.ofList ('…' :: characters.drop (characters.length - maskTail)))

/-- An account as a gateway record describes it, with any secret already masked. -/
structure NewAccount where
  /-- Empty when the record named no credential. -/
  upstreamKey : String
  authKind : AuthKind
  label : Option String
deriving DecidableEq, Repr

def NewAccount.new (upstreamKey : String) (authKind : AuthKind) (source : Option String) :
    NewAccount :=
  let source := source.filter (· ≠ "")
  let label := match authKind with
    | .oauth => source
    | .apiKey | .unknown => source.bind mask
  ⟨upstreamKey, authKind, label⟩

/-- The key the account is stored under. Traffic that names no credential shares one
account per provider. -/
def NewAccount.key (account : NewAccount) (provider : String) : String :=
  if account.upstreamKey = "" then "unattributed/" ++ provider else account.upstreamKey

/-- The row of a source's key, of which the table has one at most. -/
def holdsKey (sourceId : SourceId) (key : String) (account : Account) : Bool :=
  account.sourceId = sourceId && account.upstreamKey = key

/-- `INSERT INTO account … ON CONFLICT (source_id, upstream_key) DO UPDATE SET …`, answering
the row as it is stored. -/
def upsert (row : Account) (conflict : Account → Account) (tables : Tables) :
    Option (Account × Tables) :=
  if tables.accounts.any (·.id = row.id) then none
  else match tables.accounts.find? (holdsKey row.sourceId row.upstreamKey) with
    | some known => some (conflict known, { tables with
        accounts := tables.accounts.map fun account =>
          if holdsKey row.sourceId row.upstreamKey account then conflict account else account })
    | none =>
      if tables.sources.any (·.id = row.sourceId) then
        some (row, { tables with accounts := tables.accounts ++ [row] })
      else none

/-- The row a credential is first stored as. -/
def NewAccount.row (account : NewAccount) (candidate : AccountId) (sourceId : SourceId)
    (provider : String) (seenAt : Timestamp) : Account where
  id := candidate
  sourceId := sourceId
  provider := provider
  upstreamKey := account.key provider
  authKind := account.authKind
  label := account.label
  displayName := none
  mergedInto := none
  firstSeenAt := seenAt
  lastSeenAt := seenAt

/-- Widens the window an account was seen in. -/
def widen (first last : Timestamp) (account : Account) : Account :=
  { account with
    firstSeenAt := min account.firstSeenAt first
    lastSeenAt := max account.lastSeenAt last }

/-- A known account as a record of it leaves it. Its provider stays. -/
def seen (new : NewAccount) (seenAt : Timestamp) (account : Account) : Account :=
  widen seenAt seenAt
    { account with authKind := new.authKind, label := new.label.or account.label }

/-- A known account as a credential list leaves it. Its seen window stays. -/
def listed (new : NewAccount) (provider : String) (account : Account) : Account :=
  { account with
    provider := provider
    authKind := new.authKind
    label := new.label.or account.label }

/-- `UPDATE account SET … WHERE account_id = ?`. -/
def updateAccount (id : AccountId) (change : Account → Account) (tables : Tables) : Tables :=
  { tables with accounts := tables.accounts.map fun account =>
      if account.id = id then change account else account }

/-- Finds the account a record was charged to, creating it the first time the source reports
it, and widens the window it was seen in to cover `seenAt`. A merged account answers the
account that absorbed it, whose window widens instead. -/
def resolve (candidate : AccountId) (sourceId : SourceId) (provider : String)
    (account : NewAccount) (seenAt : Timestamp) : Write AccountId := do
  let row ← attempt (upsert (account.row candidate sourceId provider seenAt) (seen account seenAt))
  match row.mergedInto with
  | none => return row.id
  | some target =>
    execute (updateAccount target (widen seenAt seenAt))
    return target

/-- Records a credential the gateway lists, whether or not it has carried traffic. -/
def register (candidate : AccountId) (sourceId : SourceId) (provider : String)
    (account : NewAccount) (observedAt : Timestamp) : Write AccountId := do
  let row ← attempt
    (upsert (account.row candidate sourceId provider observedAt) (listed account provider))
  return row.mergedInto.getD row.id

end MeteredUsage.Store.Accounts
