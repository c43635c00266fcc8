import MeteredUsage.Store.Response

/-! One row of LiteLLM's `/spend/logs/v2`, and what it means here. A row can be read many times;
the record hash makes the second read a duplicate. -/

namespace MeteredUsage.Collector.LiteLlm
open MeteredUsage.Values MeteredUsage.Store MeteredUsage.Store.Schema MeteredUsage.Store.Accounts
open MeteredUsage.Store.Events
open MeteredUsage.Store.Response (objectField asI64 asInteger)

/-- Functions of the standard library and of the crates that read and print what a row holds. -/
structure Reading where
  runtime : Sql.Runtime
  /-- A JSON number as an `f64`. -/
  real : String → Sql.Float64
  /-- A civil date and time, read as UTC. -/
  civil : String → Option Timestamp
  /-- A text as `{:?}` prints it. -/
  quoted : String → String
  /-- Why serde refuses a value. -/
  refusal : Json → String

/-- The members of a deserialized struct by name. An array gives them in order, and has to reach
the last one without a default. -/
def members (names : List String) (required : Nat) : Json → Option (String → Option Json)
  | .object fields =>
    if names.all fun name => (objectField fields name).isSome then
      some fun name => (objectField fields name).join
    else none
  | .array items =>
    if required ≤ items.length ∧ items.length ≤ names.length then
      some fun name => items[names.idxOf name]?
    else none
  | _ => none

/-- An `Option<Value>`, which a null leaves out. -/
def readValue : Option Json → Option Json
  | some .null => none
  | value => value

/-- An `Option<String>`. -/
def readText (value : Option Json) : Option (Option String) :=
  match readValue value with
  | none => some none
  | some (.string text) => some (some text)
  | some _ => none

/-- An `Option<i64>`. -/
def readInteger (value : Option Json) : Option (Option Int) :=
  match readValue value with
  | none => some none
  | some value => (asInteger value).map some

/-- An `Option<f64>`. -/
def readReal (real : String → Sql.Float64) (value : Option Json) : Option (Option Sql.Float64) :=
  match readValue value with
  | none => some none
  | some (.number text) => some (some (real text))
  | some _ => none

structure LiteLlmRow where
  requestId : Option String
  callType : Option String
  apiKey : Option String
  spend : Option Sql.Float64
  totalTokens : Option Int
  promptTokens : Option Int
  completionTokens : Option Int
  startTime : Option String
  completionStartTime : Option String
  model : Option String
  modelId : Option String
  modelGroup : Option String
  customLlmProvider : Option String
  apiBase : Option String
  sessionId : Option String
  status : Option String
  requestDurationMs : Option Int
  metadata : Option Json

def LiteLlmRow.names : List String :=
  ["request_id", "call_type", "api_key", "spend", "total_tokens", "prompt_tokens",
    "completion_tokens", "startTime", "completionStartTime", "model", "model_id", "model_group",
    "custom_llm_provider", "api_base", "session_id", "status", "request_duration_ms", "metadata"]

/-- `LiteLlmRow::deserialize`. -/
def LiteLlmRow.read (reading : Reading) (row : Json) : Option LiteLlmRow := do
  let member ← members LiteLlmRow.names 8 row
  let requestId ← readText (member "request_id")
  let callType ← readText (member "call_type")
  let apiKey ← readText (member "api_key")
  let spend ← readReal reading.real (member "spend")
  let totalTokens ← readInteger (member "total_tokens")
  let promptTokens ← readInteger (member "prompt_tokens")
  let completionTokens ← readInteger (member "completion_tokens")
  let startTime ← readText (member "startTime")
  let completionStartTime ← readText (member "completionStartTime")
  let model ← readText (member "model")
  let modelId ← readText (member "model_id")
  let modelGroup ← readText (member "model_group")
  let customLlmProvider ← readText (member "custom_llm_provider")
  let apiBase ← readText (member "api_base")
  let sessionId ← readText (member "session_id")
  let status ← readText (member "status")
  let requestDurationMs ← readInteger (member "request_duration_ms")
  return ⟨requestId, callType, apiKey, spend, totalTokens, promptTokens, completionTokens, startTime,
    completionStartTime, model, modelId, modelGroup, customLlmProvider, apiBase, sessionId, status,
    requestDurationMs, readValue (member "metadata")⟩

structure LiteLlmAdditionalUsage where
  cacheReadInputTokens : Option Int
  cacheCreationInputTokens : Option Int

structure LiteLlmErrorInformation where
  /-- A number or the number as text. -/
  errorCode : Option Json
  errorMessage : Option String

structure LiteLlmMetadata where
  userApiKeyAlias : Option String
  userAgent : Option String
  additionalUsageValues : Option LiteLlmAdditionalUsage
  errorInformation : Option LiteLlmErrorInformation

def LiteLlmMetadata.default : LiteLlmMetadata := ⟨none, none, none, none⟩

/-- An optional struct, which a null leaves out. -/
def readOptional {Struct : Type} (read : Json → Option Struct) (value : Option Json) :
    Option (Option Struct) :=
  match readValue value with
  | none => some none
  | some value => (read value).map some

def LiteLlmAdditionalUsage.read (value : Json) : Option LiteLlmAdditionalUsage := do
  let member ← members ["cache_read_input_tokens", "cache_creation_input_tokens"] 0 value
  let cacheReadInputTokens ← readInteger (member "cache_read_input_tokens")
  let cacheCreationInputTokens ← readInteger (member "cache_creation_input_tokens")
  return ⟨cacheReadInputTokens, cacheCreationInputTokens⟩

def LiteLlmErrorInformation.read (value : Json) : Option LiteLlmErrorInformation := do
  let member ← members ["error_code", "error_message"] 0 value
  let errorMessage ← readText (member "error_message")
  return ⟨readValue (member "error_code"), errorMessage⟩

def LiteLlmMetadata.read (value : Json) : Option LiteLlmMetadata := do
  let member ← members ["user_api_key_alias", "user_agent", "additional_usage_values",
    "error_information"] 0 value
  let userApiKeyAlias ← readText (member "user_api_key_alias")
  let userAgent ← readText (member "user_agent")
  let additionalUsageValues ←
    readOptional LiteLlmAdditionalUsage.read (member "additional_usage_values")
  let errorInformation ← readOptional LiteLlmErrorInformation.read (member "error_information")
  return ⟨userApiKeyAlias, userAgent, additionalUsageValues, errorInformation⟩

inductive LiteLlmError where
  | shape (reason : String)
  | missingRequestId
  | missingStartTime
  | timestamp (field value : String)
deriving DecidableEq, Repr

def LiteLlmError.message (reading : Reading) : LiteLlmError → String
  | .shape reason => "the row is not a spend log: " ++ reason
  | .missingRequestId => "the row has no request_id"
  | .missingStartTime => "the row has no startTime"
  | .timestamp field value => field ++ " " ++ reading.quoted value ++ " is not an instant"

/-- A text that is not empty. -/
def present (text : Option String) : Option String := text.filter (· ≠ "")

/-- LiteLLM stores `startTime` as UTC and may print it without an offset. -/
def instant (reading : Reading) (field text : String) : Except LiteLlmError Timestamp :=
  ((reading.runtime.parseTimestamp text).or (reading.civil text)).elim
    (.error (.timestamp field text)) .ok

def fallbackStatus : Int := 500

/-- The sum as an `i64` has it. -/
def wrap64 (sum : Int) : Int := (sum + 2 ^ 63) % 2 ^ 64 - 2 ^ 63

/-- The milliseconds from one instant to a later one. -/
def elapsedMs (first second : Timestamp) : Option Int :=
  if second < first then none else some ((second - first) / 1000000)

/-- The metadata, an object or the same object as JSON text. -/
def readMetadata (reading : Reading) : Option Json → Except LiteLlmError LiteLlmMetadata
  | some (.string text) =>
    if text = "" then .ok LiteLlmMetadata.default
    else ((reading.runtime.parseJson text).bind LiteLlmMetadata.read).elim
      (.error (.shape (reading.refusal (.string text)))) .ok
  | some .null | none => .ok LiteLlmMetadata.default
  | some value => (LiteLlmMetadata.read value).elim (.error (.shape (reading.refusal value))) .ok

/-- The status a failed request reported. -/
def reportedStatus : Option Json → Option Int
  | some (.number text) => asInteger (.number text)
  | some (.string text) => asI64 (Sql.strTrim text).toList ['+']
  | _ => none

def noStatus : String := "LiteLLM recorded no status code, stored as " ++ toString fallbackStatus

/-- The status and the message to store. -/
def outcome (failed : Bool) (status : Option Int) (message : Option String) : Int × Option String :=
  match failed, status with
  | false, _ => (200, none)
  | true, some code => (code, message)
  | true, none => (fallbackStatus, some ((message.map fun text =>
      text ++ " (" ++ noStatus ++ ")").getD noStatus))

/-- `NewUsageEvent::try_from`. -/
def LiteLlmRow.event (reading : Reading) (row : LiteLlmRow) : Except LiteLlmError NewUsageEvent := do
  let upstreamId ← (present row.requestId).elim (.error .missingRequestId) .ok
  let startTime ← (present row.startTime).elim (.error .missingStartTime) .ok
  let occurredAt ← instant reading "startTime" startTime
  let firstToken ← (present row.completionStartTime).elim (.ok none) fun text =>
    (instant reading "completionStartTime" text).map some
  let metadata ← readMetadata reading row.metadata
  let provider := (present row.customLlmProvider).getD "unknown"
  let model := (present row.model).getD ""
  let modelGroup := present row.modelGroup
  let upstreamKey := ((present row.modelId).or (present row.apiBase)).getD ("unattributed/" ++ provider)
  let usage := metadata.additionalUsageValues.getD ⟨none, none⟩
  let failed := row.status.any (· ≠ "success")
  let error := metadata.errorInformation.getD ⟨none, none⟩
  let (statusCode, errorMessage) :=
    outcome failed (reportedStatus error.errorCode) (present error.errorMessage)
  let promptTokens := row.promptTokens.getD 0
  let completionTokens := row.completionTokens.getD 0
  return {
    upstreamId
    occurredAt
    provider
    model
    modelAlias := modelGroup.filter (· ≠ model)
    endpoint := (present row.callType).getD ""
    account := ⟨upstreamKey, .apiKey, modelGroup.or ((some model).filter (· ≠ ""))⟩
    caller := (present metadata.userApiKeyAlias).or (row.apiKey.bind mask)
    harness := none
    userAgent := present metadata.userAgent
    sessionId := present row.sessionId
    inputTokens := promptTokens
    outputTokens := completionTokens
    reasoningTokens := 0
    cacheReadTokens := usage.cacheReadInputTokens.getD 0
    cacheWriteTokens := usage.cacheCreationInputTokens.getD 0
    unclassifiedTokens := 0
    totalTokens := row.totalTokens.getD (wrap64 (promptTokens + completionTokens))
    tokenQuality := none
    latencyMs := row.requestDurationMs
    ttftMs := firstToken.bind (elapsedMs occurredAt)
    streamed := false
    statusCode
    failed
    errorMessage
    serviceTier := none
    reasoningEffort := none
    billedCostUsd := row.spend }

def removeField (field : String) (fields : List (String × Json)) : List (String × Json) :=
  fields.filter (·.1 ≠ field)

/-- The metadata without its key. Text that is not JSON is left out. -/
def strippedMetadata (reading : Reading) (metadata : Json) : Json :=
  let metadata := match metadata with
    | .string text => (reading.runtime.parseJson text).getD .null
    | value => value
  match metadata with
  | .object fields => .object (removeField "user_api_key" fields)
  | value => value

/-- A row without the key hash it carries. -/
def stripped (reading : Reading) : Json → Json
  | .object fields => .object ((removeField "api_key" fields).map fun field =>
      if field.1 = "metadata" then (field.1, strippedMetadata reading field.2) else field)
  | row => row

/-- A row this service cannot store is dead-lettered. -/
def parse (reading : Reading) (row : Json) : Incoming :=
  let event := ((LiteLlmRow.read reading row).elim
    (.error (.shape (reading.refusal row))) .ok : Except LiteLlmError LiteLlmRow).bind
      (LiteLlmRow.event reading)
  match event with
  | .ok event => .record event
  | .error error => .rejected (error.message reading) (stripped reading row)

end MeteredUsage.Collector.LiteLlm
