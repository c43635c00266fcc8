import MeteredUsage.Store.Sql
import MeteredUsage.Changes.Table
import MeteredUsage.Library.Transaction

/-! The tables the writes of the service read and change, row by row, and the transaction
a write runs in. A row has the columns the modelled statements name. -/

namespace MeteredUsage.Store.Schema
open MeteredUsage.Values MeteredUsage.Store.Sql MeteredUsage.Library.Transaction
open MeteredUsage.Changes.Table (Feed Subject)

inductive SourceKind where
  | cliProxy
  | liteLlm
deriving DecidableEq, Repr

structure Source where
  id : SourceId
  key : String
  name : String
  kind : SourceKind
  baseUrl : String
  enabled : Bool
  createdAt : Timestamp
deriving DecidableEq, Repr

inductive AuthKind where
  | oauth
  | apiKey
  | unknown
deriving DecidableEq, Repr

structure Account where
  id : AccountId
  sourceId : SourceId
  provider : String
  upstreamKey : String
  authKind : AuthKind
  label : Option String
  displayName : Option String
  mergedInto : Option AccountId
  firstSeenAt : Timestamp
  lastSeenAt : Timestamp
deriving DecidableEq, Repr

/-- One of CLIProxy's cooldown timers on a credential or on one model of it. -/
structure Cooldown where
  scope : String
  modelKey : Option String
  reason : String
  retryAt : Timestamp
  remainingSeconds : Int
deriving DecidableEq, Repr

/-- An observed sign-in failure. -/
inductive SignInError where
  | expired
deriving DecidableEq, Repr

structure CredentialState where
  accountId : AccountId
  status : Option String
  statusMessage : Option String
  disabled : Bool
  unavailable : Bool
  nextRetryAfter : Option Timestamp
  cooldowns : List Cooldown
  accountType : Option String
  plan : Option String
  hardRefreshable : Bool
  softObservedAt : Option Timestamp
  hardRefreshedAt : Option Timestamp
  hardRefreshError : Option String
  removedAt : Option Timestamp
  signInError : Option SignInError
deriving DecidableEq, Repr

structure QuotaWindow where
  accountId : AccountId
  windowKey : String
  label : String
  usedFraction : Option Float64
  usedValue : Option Float64
  limitValue : Option Float64
  unit : Option String
  windowSeconds : Option Int
  resetsAt : Option Timestamp
  observedAt : Timestamp
  scope : String
  startsOnUse : Bool
deriving DecidableEq, Repr

/-- The last report of a window a credential went through. -/
structure QuotaSample where
  accountId : AccountId
  windowKey : String
  startedAt : Timestamp
  observedAt : Timestamp
  usedFraction : Float64
deriving DecidableEq, Repr

/-- A manual reset grant the provider reported. -/
structure Grant where
  label : Option String
  remaining : Int
  total : Option Int
  expiresAt : Option Timestamp
deriving DecidableEq, Repr

/-- A row of `manual_reset`. -/
structure Credit where
  accountId : AccountId
  grant : Grant
deriving DecidableEq, Repr

structure Plan where
  id : PlanId
  accountId : AccountId
  name : String
  monthlyUsd : Float64
  periodStart : Timestamp
  periodEnd : Option Timestamp
deriving DecidableEq, Repr

/-- A row of `plan_continuation_dismissal`. -/
structure Dismissal where
  accountLow : AccountId
  accountHigh : AccountId
deriving DecidableEq, Repr

inductive TokenQuality where
  | complete
  | unclassified
  | inconsistent
deriving DecidableEq, Repr

structure UsageEvent where
  id : EventId
  sourceId : SourceId
  accountId : AccountId
  recordHash : String
  upstreamId : String
  occurredAt : Timestamp
  provider : String
  model : String
  modelAlias : Option String
  endpoint : String
  caller : Option String
  harness : Option String
  userAgent : Option String
  sessionId : Option String
  inputTokens : Int
  outputTokens : Int
  reasoningTokens : Int
  cacheReadTokens : Int
  cacheWriteTokens : Int
  unclassifiedTokens : Int
  totalTokens : Int
  tokenQuality : Option TokenQuality
  latencyMs : Option Int
  ttftMs : Option Int
  streamed : Bool
  statusCode : Int
  failed : Bool
  errorMessage : Option String
  serviceTier : Option String
  reasoningEffort : Option String
  priceId : Option PriceId
  listCostUsd : Option Float64
  billedCostUsd : Option Float64
deriving DecidableEq, Repr

/-- A record a normalizer refused. -/
structure DeadLetter where
  id : DeadLetterId
  sourceId : SourceId
  receivedAt : Timestamp
  error : String
  payload : Json
deriving Repr

/-- US dollars per million tokens of each kind. -/
structure Rates where
  inputUsdPerMtok : Float64
  cachedInputUsdPerMtok : Float64
  cacheWriteUsdPerMtok : Float64
  outputUsdPerMtok : Float64
deriving DecidableEq, Repr

/-- Where a price came from, the highest rank first. -/
inductive Origin where
  | manual
  | liteLlmLive
  | liteLlmPublic
deriving DecidableEq, Repr

structure ModelPrice where
  id : PriceId
  provider : Option String
  model : String
  serviceTier : Option String
  minInputTokens : Int
  origin : Origin
  effectiveFrom : Timestamp
  rates : Rates
deriving DecidableEq, Repr

/-- A row of `quota_recovery`. -/
structure Recovery where
  accountId : AccountId
  attempts : Nat
  nextAttemptAt : Timestamp
deriving DecidableEq, Repr

/-- The database, in the order rows were inserted. -/
structure Tables where
  sources : List Source
  accounts : List Account
  states : List CredentialState
  windows : List QuotaWindow
  samples : List QuotaSample
  credits : List Credit
  plans : List Plan
  dismissals : List Dismissal
  events : List UsageEvent
  deadLetters : List DeadLetter
  prices : List ModelPrice
  recoveries : List Recovery
  feed : Feed

def Tables.empty : Tables where
  sources := []
  accounts := []
  states := []
  windows := []
  samples := []
  credits := []
  plans := []
  dismissals := []
  events := []
  deadLetters := []
  prices := []
  recoveries := []
  feed := Feed.empty

/-- Why two accounts could not be merged. -/
inductive MergeError where
  | same
  | differentSources
  | sourceMerged
  | targetMerged
  | continuationChanged
  | missing
deriving DecidableEq, Repr

inductive PlanError where
  | blankName
  | price
  | emptyPeriod
  | unknownAccount
deriving DecidableEq, Repr

/-- What a write that is not answered ends with: the database's error, or its own refusal. -/
inductive WriteError where
  | database (error : DatabaseError)
  | merge (error : MergeError)
  | plan (error : PlanError)
deriving DecidableEq, Repr

/-- A transaction that will write before it commits. -/
abbrev Write (Value : Type) := Tx WriteError Tables Value

def fetch {Value : Type} (read : Tables → Value) : Write Value := query (.database .query) read

def execute (change : Tables → Tables) : Write Unit := update (.database .query) change

/-- A statement a constraint can refuse. -/
def attempt {Value : Type} (effect : Tables → Option (Value × Tables)) : Write Value :=
  statement (.database .query) fun tables =>
    (effect tables).elim (.error (.database .query)) .ok

/-- `Change::record`: the change joins the feed in the write's own transaction. -/
def record (subject : Subject) : Write Unit := do
  let recordedAt ← reading
  execute fun tables => { tables with feed := tables.feed.record subject recordedAt }

end MeteredUsage.Store.Schema
