import MeteredUsage.Store.Accounts

/-! One metered request as a normalizer hands it over, and the row and hash it is stored
under. -/

namespace MeteredUsage.Store.Events
open MeteredUsage.Values MeteredUsage.Store.Schema MeteredUsage.Store.Accounts

structure NewUsageEvent where
  upstreamId : String
  occurredAt : Timestamp
  provider : String
  model : String
  modelAlias : Option String
  endpoint : String
  account : NewAccount
  caller : Option String
  harness : Option String
  userAgent : Option String
  sessionId : Option String
  inputTokens : Int
  outputTokens : Int
  reasoningTokens : Int
  cacheReadTokens : Int
  cacheWriteTokens : Int
  unclassifiedTokens : Int
  totalTokens : Int
  tokenQuality : Option TokenQuality
  latencyMs : Option Int
  ttftMs : Option Int
  streamed : Bool
  statusCode : Int
  failed : Bool
  errorMessage : Option String
  serviceTier : Option String
  reasoningEffort : Option String
  billedCostUsd : Option Sql.Float64
deriving DecidableEq, Repr

/-- A request through a credential of the given key that used nothing. -/
def NewUsageEvent.idle (upstreamKey : String) (occurredAt : Timestamp) : NewUsageEvent where
  upstreamId := ""
  occurredAt := occurredAt
  provider := "codex"
  model := ""
  modelAlias := none
  endpoint := ""
  account := ⟨upstreamKey, .oauth, none⟩
  caller := none
  harness := none
  userAgent := none
  sessionId := none
  inputTokens := 0
  outputTokens := 0
  reasoningTokens := 0
  cacheReadTokens := 0
  cacheWriteTokens := 0
  unclassifiedTokens := 0
  totalTokens := 0
  tokenQuality := none
  latencyMs := none
  ttftMs := none
  streamed := false
  statusCode := 200
  failed := false
  errorMessage := none
  serviceTier := none
  reasoningEffort := none
  billedCostUsd := none

/-- A number's bytes in two's complement, the lowest first. -/
def leBytes : Nat → Int → List UInt8
  | 0, _ => []
  | width + 1, value => UInt8.ofNat (value % 256).toNat :: leBytes width (value / 256)

/-- A text with its length before it, so no two lists of fields spell the same bytes. -/
def textBytes (text : String) : List UInt8 :=
  let bytes := text.toUTF8.data.toList
  leBytes 8 bytes.length ++ bytes

def measureBytes : Option Int → List UInt8
  | none => [0]
  | some value => 1 :: leBytes 8 value

/-- Every field that tells two requests apart, as the hasher is given them. -/
def NewUsageEvent.preimage (runtime : Sql.Runtime) (event : NewUsageEvent) : List UInt8 :=
  [event.upstreamId, runtime.printTimestamp event.occurredAt, event.account.key event.provider,
      event.provider, event.model, event.endpoint].flatMap textBytes ++
    [event.inputTokens, event.outputTokens, event.reasoningTokens, event.cacheReadTokens,
      event.cacheWriteTokens, event.unclassifiedTokens, event.totalTokens,
      event.statusCode].flatMap (leBytes 8) ++
    [if event.failed then 1 else 0] ++
    [event.latencyMs, event.ttftMs].flatMap measureBytes

def NewUsageEvent.recordHash (runtime : Sql.Runtime) (event : NewUsageEvent) : String :=
  runtime.blake3 (event.preimage runtime)

/-- The row `INSERT` stores. Its costs wait for a price. -/
def NewUsageEvent.row (runtime : Sql.Runtime) (event : NewUsageEvent) (id : EventId)
    (sourceId : SourceId) (accountId : AccountId) : UsageEvent where
  id := id
  sourceId := sourceId
  accountId := accountId
  recordHash := event.recordHash runtime
  upstreamId := event.upstreamId
  occurredAt := event.occurredAt
  provider := event.provider
  model := event.model
  modelAlias := event.modelAlias
  endpoint := event.endpoint
  caller := event.caller
  harness := event.harness
  userAgent := event.userAgent
  sessionId := event.sessionId
  inputTokens := event.inputTokens
  outputTokens := event.outputTokens
  reasoningTokens := event.reasoningTokens
  cacheReadTokens := event.cacheReadTokens
  cacheWriteTokens := event.cacheWriteTokens
  unclassifiedTokens := event.unclassifiedTokens
  totalTokens := event.totalTokens
  tokenQuality := event.tokenQuality
  latencyMs := event.latencyMs
  ttftMs := event.ttftMs
  streamed := event.streamed
  statusCode := event.statusCode
  failed := event.failed
  errorMessage := event.errorMessage
  serviceTier := event.serviceTier
  reasoningEffort := event.reasoningEffort
  priceId := none
  listCostUsd := none
  billedCostUsd := event.billedCostUsd

/-- One record as a normalizer handed it over. -/
inductive Incoming where
  | record (event : NewUsageEvent)
  /-- `payload` is already stripped of every secret the record carried. -/
  | rejected (error : String) (payload : Json)

end MeteredUsage.Store.Events
