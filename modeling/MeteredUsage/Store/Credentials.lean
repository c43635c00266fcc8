import MeteredUsage.Store.Accounts

/-! What CLIProxy last said about a credential, and what its provider last said through it. -/

namespace MeteredUsage.Store.Credentials
open MeteredUsage.Values MeteredUsage.Store.Schema MeteredUsage.Store.Accounts
open MeteredUsage.Library.Transaction

/-- One credential as CLIProxy lists it, with the fields a soft sync reads. -/
structure Entry where
  authIndex : Option String
  name : Option String
  provider : Option String
  /-- The field `type`. -/
  kind : Option String
  label : Option String
  email : Option String
  status : Option String
  statusMessage : Option String
  disabled : Bool
  unavailable : Bool
  runtimeOnly : Bool
  nextRetryAfter : Option Timestamp
  cooldowns : Option (List Cooldown)
  accountType : Option String
  projectId : Option String
  idToken : Option Json

structure AuthFile where
  entry : Entry
  /-- The whole entry, for the few adapters that look past the typed fields. -/
  raw : Json

structure AuthFiles where
  observedAt : Timestamp
  files : List AuthFile
  /-- Whether `files` holds every credential CLIProxy knows. -/
  isComplete : Bool

/-- The member of an object. -/
def member (value : Json) (name : String) : Option Json :=
  match value with
  | .object fields => (fields.find? (·.1 = name)).map Prod.snd
  | _ => none

def asText : Json → Option String
  | .string text => some text
  | _ => none

def asBool : Json → Option Bool
  | .bool value => some value
  | _ => none

def isNull : Json → Bool
  | .null => true
  | _ => false

def isObject : Json → Bool
  | .object _ => true
  | _ => false

/-- The first text that is not blank, trimmed. -/
def firstText (texts : List (Option String)) : Option String :=
  ((texts.filterMap id).map Sql.strTrim).find? (· ≠ "")

/-- The provider name, lowercased, from `provider` or its duplicate `type`. -/
def Entry.providerName (runtime : Sql.Runtime) (entry : Entry) : Option String :=
  (firstText [entry.provider, entry.kind]).map runtime.toLowercase

inductive Provider where
  | claude
  | codex
  | antigravity
  | kimi
  | devin
  | xai
  | metaAi
deriving DecidableEq, Repr

def Provider.parse : String → Option Provider
  | "claude" => some .claude
  | "codex" => some .codex
  | "antigravity" => some .antigravity
  | "kimi" => some .kimi
  | "devin" => some .devin
  | "xai" => some .xai
  | "meta" => some .metaAi
  | _ => none

/-- The first of `keys` present and not null. -/
def field (value : Json) (keys : List String) : Option Json :=
  (keys.filterMap (member value)).find? fun found => !isNull found

/-- A non-blank string, or a number written as one. -/
def textOf : Json → Option String
  | .string text => some (Sql.strTrim text) |>.filter (· ≠ "")
  | .number text => some text
  | _ => none

/-- Antigravity's project, from the entry or the objects beside it. -/
def AuthFile.projectId (file : AuthFile) : Option String :=
  match firstText [file.entry.projectId] with
  | some project => some project
  | none =>
    let metadata := (member file.raw "metadata").filter isObject
    let attributes := (member file.raw "attributes").filter isObject
    ((metadata.bind (field · ["project_id", "projectId"])).or
      (attributes.bind (field · ["project_id", "projectId", "gemini_virtual_project"]))).bind textOf

/-- `meta::has_file`. -/
def AuthFile.hasFile (file : AuthFile) : Bool :=
  !file.entry.runtimeOnly && file.entry.name.any fun name => Sql.strTrim name ≠ ""

/-- Whether the entry carries what the adapter needs. -/
def Provider.canRefresh (provider : Provider) (file : AuthFile) : Bool :=
  !file.entry.disabled && file.entry.authIndex.any (· ≠ "") &&
    match provider with
    | .claude | .codex | .kimi | .devin | .xai => true
    | .antigravity => file.projectId.isSome
    | .metaAi => file.hasFile

/-- Whether this adapter can spend a manual reset; Claude grants are only listed. -/
def Provider.spendsManualResets (provider : Provider) : Bool := provider = .codex

def Provider.canReset (provider : Provider) (file : AuthFile) : Bool :=
  provider.spendsManualResets && provider.canRefresh file

/-- Only known quota/status readers can run without a human. -/
def Provider.allowsAutomaticRecovery : Provider → Bool
  | .claude | .codex | .antigravity | .kimi | .devin => true
  | .xai | .metaAi => false

/-- The plan type of a Codex credential's claims. -/
def Entry.planType (runtime : Sql.Runtime) (entry : Entry) : Option String :=
  ((((entry.idToken.bind (member · "plan_type")).bind asText).map Sql.strTrim).filter (· ≠ "")).map
    runtime.toLowercase

/-- The row a listed credential is first stored as. -/
def AuthFile.state (runtime : Sql.Runtime) (file : AuthFile) (accountId : AccountId)
    (observedAt : Timestamp) (hardRefreshable : Bool) : CredentialState where
  accountId := accountId
  status := file.entry.status.filter (· ≠ "")
  statusMessage := file.entry.statusMessage.filter (· ≠ "")
  disabled := file.entry.disabled
  unavailable := file.entry.unavailable
  nextRetryAfter := file.entry.nextRetryAfter
  cooldowns := file.entry.cooldowns.getD []
  accountType := file.entry.accountType.filter (· ≠ "")
  plan := file.entry.planType runtime
  hardRefreshable := hardRefreshable
  softObservedAt := some observedAt
  hardRefreshedAt := none
  hardRefreshError := none
  removedAt := none
  signInError := none

/-- The update an observation makes unless a later one is stored. The plan is kept when the
list names none, because a hard refresh may have learned it. -/
def observed (excluded stored : CredentialState) : CredentialState :=
  if stored.softObservedAt.all (fun earlier => excluded.softObservedAt.any (earlier ≤ ·)) then
    { excluded with
      plan := excluded.plan.or stored.plan
      hardRefreshedAt := stored.hardRefreshedAt
      hardRefreshError := stored.hardRefreshError
      signInError := stored.signInError }
  else stored

/-- `INSERT INTO credential_state … ON CONFLICT (account_id) DO UPDATE SET … WHERE …`. -/
def upsertState (row : CredentialState) (tables : Tables) : Option (Unit × Tables) :=
  if tables.states.any (·.accountId = row.accountId) then
    some ((), { tables with states := tables.states.map fun stored =>
      if stored.accountId = row.accountId then observed row stored else stored })
  else if tables.accounts.any (·.id = row.accountId) then
    some ((), { tables with states := tables.states ++ [row] })
  else none

/-- Writes what the credential list said. -/
def observe (runtime : Sql.Runtime) (accountId : AccountId) (file : AuthFile)
    (observedAt : Timestamp) (hardRefreshable : Bool) : Write Unit :=
  attempt (upsertState (file.state runtime accountId observedAt hardRefreshable))

/-- Whether the list observed at `observedAt` left a credential of the source out. -/
def isUnlisted (tables : Tables) (sourceId : SourceId) (observedAt : Timestamp)
    (state : CredentialState) : Bool :=
  state.removedAt.isNone && state.softObservedAt.any (· < observedAt) &&
    tables.accounts.any fun account =>
      account.id = state.accountId && account.sourceId = sourceId

/-- Marks every credential of the source that the list observed at `observedAt` did not
name. An earlier mark is kept. -/
def markUnlisted (sourceId : SourceId) (observedAt : Timestamp) : Write Unit :=
  execute fun tables => { tables with
    states := tables.states.map fun state =>
      if isUnlisted tables sourceId observedAt state then
        { state with removedAt := some observedAt }
      else state }

inductive ManagementError where
  | transport (message : String)
  | status (code : Nat)
  | invalidBaseUrl
  | cooldownKept
deriving DecidableEq, Repr

def ManagementError.message : ManagementError → String
  | .transport message => "CLIProxy could not be reached: " ++ message
  | .status code => "CLIProxy answered " ++ toString code
  | .invalidBaseUrl => "the source's base URL is not a URL"
  | .cooldownKept => "CLIProxy did not confirm that it cleared the credential's cooldowns"

inductive RefreshError where
  | management (error : ManagementError)
  | upstream (code : Nat)
  | signInExpired
  | unreadable
  | empty
  | missingProjectId
  | missingFile
  | invalidCredentialFile
  | missingDcaToken
  | noManualReset
  | resetNotConfirmed
deriving DecidableEq, Repr

def RefreshError.message : RefreshError → String
  | .management error => error.message
  | .upstream code => "the provider answered " ++ toString code
  | .signInExpired => "OAuth access token has expired. Re-authenticate to continue."
  | .unreadable => "the provider's answer was not the expected JSON"
  | .empty => "the provider reported no quota"
  | .missingProjectId => "the credential entry has no project_id"
  | .missingFile => "the credential has no file to read"
  | .invalidCredentialFile => "the credential file is not a JSON object"
  | .missingDcaToken => "the credential file has no dca_token"
  | .noManualReset => "the provider's manual resets cannot be spent here"
  | .resetNotConfirmed => "the provider did not confirm the manual reset"

/-- A credential's state after one hard refresh attempt: its plan, or why it failed. -/
def afterRefresh (refreshedAt : Timestamp) (outcome : Except RefreshError (Option String))
    (state : CredentialState) : CredentialState :=
  match outcome with
  | .ok plan =>
    { state with
      hardRefreshedAt := some refreshedAt
      hardRefreshError := none
      signInError := none
      plan := plan.or state.plan }
  | .error error =>
    { state with
      hardRefreshedAt := some refreshedAt
      hardRefreshError := some error.message
      signInError := if error = .signInExpired then some .expired else state.signInError }

/-- Records one hard refresh attempt. A failure keeps the windows last observed. -/
def refreshed (accountId : AccountId) (refreshedAt : Timestamp)
    (outcome : Except RefreshError (Option String)) : Write Unit :=
  execute fun tables => { tables with
    states := tables.states.map fun state =>
      if state.accountId = accountId then afterRefresh refreshedAt outcome state else state }

end MeteredUsage.Store.Credentials
