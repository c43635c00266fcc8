import MeteredUsage.Collector.LiteLlm

/-! The accounting record CLIProxy writes, and what it means here: how serde reads one from JSON,
the event a record becomes, and the payload kept of one that cannot be read. -/

namespace MeteredUsage.Collector.Accounting
open MeteredUsage.Values MeteredUsage.Store MeteredUsage.Store.Schema MeteredUsage.Store.Accounts
open MeteredUsage.Store.Events
open MeteredUsage.Store.Credentials (asBool asText)
open MeteredUsage.Store.Response (asInteger)
open MeteredUsage.Collector.LiteLlm (wrap64 present removeField)

/-- Functions of the standard library and of the crates that read and print what a record holds. -/
structure Reading where
  runtime : Sql.Runtime
  /-- A text as `{:?}` prints it. -/
  quoted : String → String
  /-- Why serde refuses a value where it expects another. -/
  refusal : Json → String → String
  /-- Whether two numbers are one to `serde_json`. -/
  sameNumber : String → String → Bool

/-- A field of a struct serde reads: whether it has no default, and why a value of it is refused. -/
structure Field where
  name : String
  required : Bool
  refuse : Json → Option String

section
variable (reading : Reading)

def refuseText : Json → Option String
  | .string _ => none
  | value => some (reading.refusal value "a string")

def refuseBool : Json → Option String
  | .bool _ => none
  | value => some (reading.refusal value "a boolean")

def refuseInteger (value : Json) : Option String :=
  if (asInteger value).isSome then none else some (reading.refusal value "i64")

/-- An `Option`, which a null leaves out. -/
def orNull (refuse : Json → Option String) : Json → Option String
  | .null => none
  | value => refuse value

/-- Why an entry of an object is refused. A name that is no field's is ignored. -/
def refuseEntry (fields : List Field) (name : String) (value : Json) : Option String :=
  (fields.find? (·.name = name)).bind (·.refuse value)

/-- The first field without a default that an object lacks. -/
def missing (fields : List Field) (entries : List (String × Json)) : Option String :=
  (fields.find? fun field => field.required && (entries.lookup field.name).isNone).map fun field =>
    "missing field `" ++ field.name ++ "`"

def invalidLength (length : Nat) (expected : String) : String :=
  "invalid length " ++ toString length ++ ", expected " ++ expected

/-- Why the items of an array are refused as the fields in order, some fields read already. -/
def refuseItems (expected : String) : Nat → List Field → List Json → Option String
  | read, field :: fields, item :: items =>
    (field.refuse item).or (refuseItems expected (read + 1) fields items)
  | read, field :: fields, [] =>
    if field.required then some (invalidLength read expected)
    else refuseItems expected (read + 1) fields []
  | _, [], [] => none
  | read, [], item :: items =>
    some (invalidLength (read + (item :: items).length) "fewer elements in array")

/-- Why serde refuses a value as a struct: the first refused entry of an object, in the order of
the names, or else a field it lacks. -/
def refuseStruct (name : String) (fields : List Field) : Json → Option String
  | .object entries =>
    (entries.findSome? fun entry => refuseEntry fields entry.1 entry.2).or (missing fields entries)
  | .array items =>
    refuseItems ("struct " ++ name ++ " with " ++ toString fields.length ++ " elements") 0 fields items
  | value => some (reading.refusal value ("struct " ++ name))

def tokensFields : List Field :=
  ["input_tokens", "output_tokens", "reasoning_tokens", "cached_tokens", "cache_read_tokens",
    "cache_creation_tokens", "total_tokens"].map fun name => ⟨name, false, refuseInteger reading⟩

def failFields : List Field :=
  [⟨"status_code", false, refuseInteger reading⟩, ⟨"body", false, refuseText reading⟩]

def inputFields : List Field :=
  ["total_tokens", "cache_read_tokens", "cache_write_tokens"].map fun name =>
    ⟨name, false, refuseInteger reading⟩

def outputFields : List Field :=
  ["total_tokens", "reasoning_tokens"].map fun name => ⟨name, false, refuseInteger reading⟩

def breakdownFields : List Field :=
  [⟨"quality", false, orNull (refuseText reading)⟩,
    ⟨"total_tokens", false, refuseInteger reading⟩,
    ⟨"unclassified_tokens", false, refuseInteger reading⟩,
    ⟨"input", true, refuseStruct reading "CliProxyInputBreakdown" (inputFields reading)⟩,
    ⟨"output", true, refuseStruct reading "CliProxyOutputBreakdown" (outputFields reading)⟩]

def recordFields : List Field :=
  [⟨"timestamp", true, refuseText reading⟩,
    ⟨"provider", true, refuseText reading⟩,
    ⟨"model", true, refuseText reading⟩,
    ⟨"executor_type", false, orNull (refuseText reading)⟩,
    ⟨"endpoint", true, refuseText reading⟩,
    ⟨"tokens", true, refuseStruct reading "CliProxyTokens" (tokensFields reading)⟩,
    ⟨"fail", true, refuseStruct reading "CliProxyFail" (failFields reading)⟩,
    ⟨"accounting_version", false, refuseInteger reading⟩,
    ⟨"token_breakdown", false,
      orNull (refuseStruct reading "CliProxyBreakdown" (breakdownFields reading))⟩,
    ⟨"failed", false, refuseBool reading⟩,
    ⟨"stream", false, refuseBool reading⟩,
    ⟨"latency_ms", false, orNull (refuseInteger reading)⟩,
    ⟨"ttft_ms", false, orNull (refuseInteger reading)⟩,
    ⟨"source", false, orNull (refuseText reading)⟩,
    ⟨"auth_index", false, orNull (refuseText reading)⟩,
    ⟨"user_agent", false, orNull (refuseText reading)⟩,
    ⟨"api_key", false, orNull (refuseText reading)⟩,
    ⟨"alias", false, orNull (refuseText reading)⟩,
    ⟨"auth_type", false, orNull (refuseText reading)⟩,
    ⟨"request_id", false, orNull (refuseText reading)⟩,
    ⟨"session_id", false, orNull (refuseText reading)⟩,
    ⟨"reasoning_effort", false, orNull (refuseText reading)⟩,
    ⟨"service_tier", false, orNull (refuseText reading)⟩,
    ⟨"response_service_tier", false, orNull (refuseText reading)⟩]

end

/-- A member of a struct that is not refused, by name or in order. -/
def member (fields : List Field) (value : Json) (name : String) : Option Json :=
  match value with
  | .object entries => entries.lookup name
  | .array items => items[(fields.map (·.name)).idxOf name]?
  | _ => none

structure CliProxyTokens where
  inputTokens : Int
  outputTokens : Int
  reasoningTokens : Int
  cachedTokens : Int
  cacheReadTokens : Int
  cacheCreationTokens : Int
  totalTokens : Int

structure CliProxyFail where
  statusCode : Int
  body : String

structure CliProxyInputBreakdown where
  totalTokens : Int
  cacheReadTokens : Int
  cacheWriteTokens : Int

structure CliProxyOutputBreakdown where
  totalTokens : Int
  reasoningTokens : Int

structure CliProxyBreakdown where
  quality : Option String
  totalTokens : Int
  unclassifiedTokens : Int
  input : CliProxyInputBreakdown
  output : CliProxyOutputBreakdown

structure CliProxyRecord where
  timestamp : String
  provider : String
  model : String
  executorType : Option String
  endpoint : String
  tokens : CliProxyTokens
  fail : CliProxyFail
  accountingVersion : Int
  tokenBreakdown : Option CliProxyBreakdown
  failed : Bool
  stream : Bool
  latencyMs : Option Int
  ttftMs : Option Int
  source : Option String
  authIndex : Option String
  userAgent : Option String
  apiKey : Option String
  modelAlias : Option String
  authType : Option String
  requestId : Option String
  sessionId : Option String
  reasoningEffort : Option String
  serviceTier : Option String
  responseServiceTier : Option String

def textOf (value : Option Json) : String := (value.bind asText).getD ""

def integerOf (value : Option Json) : Int := (value.bind asInteger).getD 0

def boolOf (value : Option Json) : Bool := (value.bind asBool).getD false

section
variable (reading : Reading)

def CliProxyTokens.read (value : Json) : CliProxyTokens :=
  let count name := integerOf (member (tokensFields reading) value name)
  { inputTokens := count "input_tokens"
    outputTokens := count "output_tokens"
    reasoningTokens := count "reasoning_tokens"
    cachedTokens := count "cached_tokens"
    cacheReadTokens := count "cache_read_tokens"
    cacheCreationTokens := count "cache_creation_tokens"
    totalTokens := count "total_tokens" }

def CliProxyFail.read (value : Json) : CliProxyFail :=
  ⟨integerOf (member (failFields reading) value "status_code"),
    textOf (member (failFields reading) value "body")⟩

def CliProxyBreakdown.read (value : Json) : CliProxyBreakdown :=
  let member := member (breakdownFields reading) value
  let input name :=
    integerOf ((member "input").bind fun value => Accounting.member (inputFields reading) value name)
  let output name :=
    integerOf ((member "output").bind fun value => Accounting.member (outputFields reading) value name)
  { quality := (member "quality").bind asText
    totalTokens := integerOf (member "total_tokens")
    unclassifiedTokens := integerOf (member "unclassified_tokens")
    input := ⟨input "total_tokens", input "cache_read_tokens", input "cache_write_tokens"⟩
    output := ⟨output "total_tokens", output "reasoning_tokens"⟩ }

/-- What a value that is not refused is read as. -/
def CliProxyRecord.of (member : String → Option Json) : CliProxyRecord where
  timestamp := textOf (member "timestamp")
  provider := textOf (member "provider")
  model := textOf (member "model")
  executorType := (member "executor_type").bind asText
  endpoint := textOf (member "endpoint")
  tokens := CliProxyTokens.read reading ((member "tokens").getD .null)
  fail := CliProxyFail.read reading ((member "fail").getD .null)
  accountingVersion := integerOf (member "accounting_version")
  tokenBreakdown := ((member "token_breakdown").filter fun value =>
    !Credentials.isNull value).map (CliProxyBreakdown.read reading)
  failed := boolOf (member "failed")
  stream := boolOf (member "stream")
  latencyMs := (member "latency_ms").bind asInteger
  ttftMs := (member "ttft_ms").bind asInteger
  source := (member "source").bind asText
  authIndex := (member "auth_index").bind asText
  userAgent := (member "user_agent").bind asText
  apiKey := (member "api_key").bind asText
  modelAlias := (member "alias").bind asText
  authType := (member "auth_type").bind asText
  requestId := (member "request_id").bind asText
  sessionId := (member "session_id").bind asText
  reasoningEffort := (member "reasoning_effort").bind asText
  serviceTier := (member "service_tier").bind asText
  responseServiceTier := (member "response_service_tier").bind asText

/-- `CliProxyRecord::deserialize`. -/
def CliProxyRecord.read (value : Json) : Except String CliProxyRecord :=
  match refuseStruct reading "CliProxyRecord" (recordFields reading) value with
  | some error => .error error
  | none => .ok (CliProxyRecord.of reading (member (recordFields reading) value))

end

inductive CliProxyError where
  | timestamp (text : String)
  | missingBreakdown (version : Int)
deriving DecidableEq, Repr

def CliProxyError.message (reading : Reading) : CliProxyError → String
  | .timestamp text => "timestamp " ++ reading.quoted text ++ " is not an instant"
  | .missingBreakdown version =>
    "accounting version " ++ toString version ++
      " promises a token breakdown and the record has none"

/-- How one provider's flat token counts overlap. -/
inductive Semantics where
  /-- Input holds its cache reads and writes; output holds its reasoning. -/
  | subset
  /-- Input, cache reads and cache writes are apart. -/
  | independent
  /-- Input holds its cache reads; reasoning is apart from output. -/
  | separateReasoning
  /-- The gateway does not guess, so neither does this service. -/
  | unknown
deriving DecidableEq, Repr

/-- Providers whose legacy input holds its cache and whose reasoning is apart from output. -/
def separateReasoningMarkers : List String :=
  ["gemini", "aistudio", "antigravity", "vertex", "interaction"]

/-- Providers whose legacy input holds its cache and whose output holds its reasoning. -/
def subsetMarkers : List String :=
  ["openai", "codex", "xai", "grok", "kimi", "qwen", "deepseek", "openrouter"]

/-- Whether a text holds another one. -/
def contains (text words : String) : Bool :=
  text.toList.tails.any fun rest => words.toList.isPrefixOf rest

def Semantics.of (runtime : Sql.Runtime) (provider executor : String) : Semantics :=
  let provider := runtime.toLowercase (Sql.strTrim provider)
  let executor := runtime.toLowercase (Sql.strTrim executor)
  let named := provider ++ " " ++ executor
  if executor = "openaicompatexecutor" || provider = "openai-compatibility" ||
      "openai-compatible-".toList.isPrefixOf provider.toList then .subset
  else if contains named "claude" || contains named "anthropic" then .independent
  else if separateReasoningMarkers.any (contains named) then .separateReasoning
  else if subsetMarkers.any (contains named) then .subset
  else .unknown

/-- Which of the two token blocks was read. -/
structure Tokens where
  input : Int
  output : Int
  reasoning : Int
  cacheRead : Int
  cacheWrite : Int
  unclassified : Int
  total : Int
  quality : Option TokenQuality
deriving DecidableEq, Repr

/-- Reads a record from a gateway older than the breakdown. -/
def Tokens.flat (tokens : CliProxyTokens) (semantics : Semantics) : Tokens :=
  let cacheRead := if 0 < tokens.cacheReadTokens then tokens.cacheReadTokens else tokens.cachedTokens
  let read (input cacheRead output : Int) : Tokens :=
    { input
      output
      reasoning := tokens.reasoningTokens
      cacheRead
      cacheWrite := tokens.cacheCreationTokens
      unclassified := 0
      total := tokens.totalTokens
      quality := none }
  match semantics with
  -- Anthropic's output already holds its thinking.
  | .independent =>
    read (wrap64 (wrap64 (tokens.inputTokens + tokens.cacheReadTokens) + tokens.cacheCreationTokens))
      tokens.cacheReadTokens tokens.outputTokens
  | .separateReasoning =>
    read tokens.inputTokens cacheRead (wrap64 (tokens.outputTokens + tokens.reasoningTokens))
  | .subset => read tokens.inputTokens cacheRead tokens.outputTokens
  | .unknown =>
    { input := 0
      output := 0
      reasoning := 0
      cacheRead := 0
      cacheWrite := 0
      unclassified := tokens.totalTokens
      total := tokens.totalTokens
      quality := some .unclassified }

/-- `TokenQuality::from_str`. -/
def TokenQuality.parse : String → Option TokenQuality
  | "complete" => some .complete
  | "unclassified" => some .unclassified
  | "inconsistent" => some .inconsistent
  | _ => none

/-- The breakdown splits every bucket apart the same way for every provider. -/
def Tokens.apart (breakdown : CliProxyBreakdown) : Tokens where
  input := breakdown.input.totalTokens
  output := breakdown.output.totalTokens
  reasoning := breakdown.output.reasoningTokens
  cacheRead := breakdown.input.cacheReadTokens
  cacheWrite := breakdown.input.cacheWriteTokens
  unclassified := breakdown.unclassifiedTokens
  total := breakdown.totalTokens
  quality := breakdown.quality.bind TokenQuality.parse

def CliProxyRecord.countTokens (reading : Reading) (record : CliProxyRecord) :
    Except CliProxyError Tokens :=
  if 2 ≤ record.accountingVersion then
    record.tokenBreakdown.elim (.error (.missingBreakdown record.accountingVersion)) fun breakdown =>
      .ok (Tokens.apart breakdown)
  else
    .ok (Tokens.flat record.tokens
      (Semantics.of reading.runtime record.provider (record.executorType.getD "")))

def authKind (authType : Option String) : AuthKind :=
  match authType.getD "" with
  | "oauth" | "oauth2" => .oauth
  | "apikey" | "api_key" | "api-key" => .apiKey
  | _ => .unknown

/-- The product a user agent begins with. -/
def harness (userAgent : String) : Option String :=
  let word := (userAgent.toList.dropWhile Sql.isWhitespace).takeWhile (!Sql.isWhitespace ·)
  (some (String.ofList (word.takeWhile (· ≠ '/')))).filter (· ≠ "")

/-- The source to label the account with. CLIProxy names the client's own key as the source of
an OAuth credential with no email. -/
def CliProxyRecord.shownSource (record : CliProxyRecord) : Option String :=
  record.source.filter fun source =>
    authKind record.authType ≠ .oauth || record.apiKey ≠ some source

/-- `NewUsageEvent::try_from`. -/
def CliProxyRecord.event (reading : Reading) (record : CliProxyRecord) :
    Except CliProxyError NewUsageEvent := do
  let occurredAt ← (reading.runtime.parseTimestamp record.timestamp).elim
    (.error (.timestamp record.timestamp)) .ok
  let tokens ← record.countTokens reading
  return {
    upstreamId := record.requestId.getD ""
    occurredAt
    provider := record.provider
    model := record.model
    modelAlias := present record.modelAlias
    endpoint := record.endpoint
    account := NewAccount.new (record.authIndex.getD "") (authKind record.authType) record.shownSource
    caller := record.apiKey.bind mask
    harness := record.userAgent.bind harness
    userAgent := present record.userAgent
    sessionId := present record.sessionId
    inputTokens := tokens.input
    outputTokens := tokens.output
    reasoningTokens := tokens.reasoning
    cacheReadTokens := tokens.cacheRead
    cacheWriteTokens := tokens.cacheWrite
    unclassifiedTokens := tokens.unclassified
    totalTokens := tokens.total
    tokenQuality := tokens.quality
    latencyMs := record.latencyMs
    ttftMs := record.ttftMs
    streamed := record.stream
    statusCode := record.fail.statusCode
    failed := record.failed
    -- The body of a request that did not fail is the upstream's idea of nothing.
    errorMessage := if record.failed then present (some record.fail.body) else none
    serviceTier := (present record.responseServiceTier).or (present record.serviceTier)
    reasoningEffort := present record.reasoningEffort
    billedCostUsd := none }

mutual

/-- Whether two JSON values are equal to `serde_json`. -/
def same (reading : Reading) : Json → Json → Bool
  | .null, .null => true
  | .bool first, .bool second => first = second
  | .number first, .number second => reading.sameNumber first second
  | .string first, .string second => first = second
  | .array first, .array second => sameItems reading first second
  | .object first, .object second => sameEntries reading first second
  | _, _ => false

def sameItems (reading : Reading) : List Json → List Json → Bool
  | [], [] => true
  | first :: firsts, second :: seconds => same reading first second && sameItems reading firsts seconds
  | _, _ => false

def sameEntries (reading : Reading) : List (String × Json) → List (String × Json) → Bool
  | [], [] => true
  | (name, first) :: firsts, (other, second) :: seconds =>
    name = other && same reading first second && sameEntries reading firsts seconds
  | _, _ => false

end

def sameOption (reading : Reading) : Option Json → Option Json → Bool
  | none, none => true
  | some first, some second => same reading first second
  | _, _ => false

/-- A payload without the fields that can carry a credential. -/
def stripped (reading : Reading) : Json → Json
  | .object entries =>
    let apiKey := entries.lookup "api_key"
    let kept := removeField "response_headers" (removeField "api_key" entries)
    let oauth := ((kept.lookup "auth_type").bind asText).any fun authType =>
      authKind (some authType) = .oauth
    .object (if !oauth || sameOption reading (kept.lookup "source") apiKey then
      removeField "source" kept else kept)
  | value => value

/-- Reads one record as the gateway sent it. -/
def parse (reading : Reading) (value : Json) : Incoming :=
  let event := (CliProxyRecord.read reading value).bind fun record =>
    (record.event reading).mapError (CliProxyError.message reading)
  match event with
  | .ok event => .record event
  | .error error => .rejected error (stripped reading value)

end MeteredUsage.Collector.Accounting
