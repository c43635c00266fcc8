import MeteredUsage.Store.AccountWrites
import MeteredUsage.Store.Windows

/-! The writes of credential health and quota: a credential list, the outcome of one hard
refresh, and the stored grants a spend clears before it asks the provider. -/

namespace MeteredUsage.Store.Quota
open MeteredUsage.Values MeteredUsage.Store.Schema MeteredUsage.Store.Accounts
open MeteredUsage.Store.Snapshots MeteredUsage.Store.Credentials MeteredUsage.Store.Windows
open MeteredUsage.Library.Transaction

/-- Providers whose credentials are logins even when CLIProxy does not say so. -/
def oauthProviders : List String :=
  ["claude", "codex", "antigravity", "gemini", "gemini-cli", "qwen", "iflow", "kimi", "xai", "meta",
    "devin"]

/-- The sign-in kind of a listed credential. -/
def authKindOf (entry : Entry) (providerName : String) : AuthKind :=
  match entry.accountType.map Sql.strTrim with
  | some "oauth" => .oauth
  | some "api_key" => .apiKey
  | _ => if oauthProviders.contains providerName then .oauth else .unknown

/-- A listed credential's account, with the provider that can hard refresh it, if any. -/
structure Stored where
  accountId : AccountId
  file : AuthFile
  provider : Option Provider

/-- The trimmed `auth_index` of an entry that has one. -/
def authIndexOf (file : AuthFile) : Option String :=
  (file.entry.authIndex.map Sql.strTrim).filter (· ≠ "")

/-- Registers one listed credential and writes what the list says about it. -/
def storeFile (runtime : Sql.Runtime) (sourceId : SourceId) (observedAt : Timestamp)
    (file : AuthFile) (authIndex : String) : Write Stored := do
  let providerName := (file.entry.providerName runtime).getD "unknown"
  let account := NewAccount.new authIndex (authKindOf file.entry providerName)
    (firstText [file.entry.email, file.entry.label])
  let candidate ← nextId
  let accountId ← register candidate sourceId providerName account observedAt
  let provider := (Provider.parse providerName).filter (·.canRefresh file)
  observe runtime accountId file observedAt provider.isSome
  return ⟨accountId, file, provider⟩

/-- The credentials stored so far, and whether the listing still names every credential. -/
structure Listed where
  stored : List Stored
  isComplete : Bool

def storeNext (runtime : Sql.Runtime) (sourceId : SourceId) (observedAt : Timestamp)
    (listed : Listed) (file : AuthFile) : Write Listed :=
  match authIndexOf file with
  | none => pure { listed with isComplete := false }
  | some authIndex => do
    let stored ← storeFile runtime sourceId observedAt file authIndex
    return { listed with stored := listed.stored ++ [stored] }

/-- Registers every listed credential and writes what the list says about it. Only a complete
listing also marks the credentials it no longer names. -/
def store (runtime : Sql.Runtime) (sourceId : SourceId) (listing : AuthFiles) :
    Write (Ending (List Stored)) := do
  let snapshot ← accounts runtime (.source sourceId)
  let listed ← listing.files.foldlM (storeNext runtime sourceId listing.observedAt)
    ⟨[], listing.isComplete⟩
  -- A credential this listing skipped is still in CLIProxy, so a partial listing marks none.
  onlyIf listed.isComplete (markUnlisted sourceId listing.observedAt)
  recordChanges runtime snapshot
  commit (.database .query) listed.stored

inductive ManualResets where
  | unchanged
  | reported (grants : List Grant)
deriving DecidableEq, Repr

/-- What one hard refresh learned about a credential. -/
structure Observation where
  windows : List NewWindow
  plan : Option String
  manualResets : ManualResets
deriving DecidableEq, Repr

def storeResets (accountId : AccountId) : ManualResets → Write Unit
  | .unchanged => pure ()
  | .reported grants => replaceCredits accountId grants

/-- Writes what one hard refresh learned, or why it failed. -/
def storeResult (runtime : Sql.Runtime) (accountId : AccountId)
    (result : Except RefreshError Observation) (refreshedAt : Timestamp) : Write Unit :=
  match result with
  | .ok observation => do
    execute fun tables => { tables with
      recoveries := tables.recoveries.filter (·.accountId ≠ accountId) }
    replace runtime accountId observation.windows refreshedAt
    storeResets accountId observation.manualResets
    refreshed accountId refreshedAt (.ok observation.plan)
  | .error error => refreshed accountId refreshedAt (.error error)

/-- `quota::record`. The interrupted resets a reported list also reconciles are rows of
`quota_action`, which the quota action modules model. -/
def recordRefresh (runtime : Sql.Runtime) (accountId : AccountId)
    (result : Except RefreshError Observation) (refreshedAt : Timestamp) : Write (Ending Unit) := do
  let snapshot ← quota runtime (.account accountId)
  storeResult runtime accountId result refreshedAt
  recordChanges runtime snapshot
  commit (.database .query) ()

/-- The transaction in which a spend clears the stored grants before it asks the provider. -/
def clear (runtime : Sql.Runtime) (accountId : AccountId) : Write (Ending Unit) := do
  let snapshot ← quota runtime (.account accountId)
  execute (clearCredits accountId)
  recordChanges runtime snapshot
  commit (.database .query) ()

end MeteredUsage.Store.Quota
