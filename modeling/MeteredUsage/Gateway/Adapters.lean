import Mathlib.Data.List.Infix
import MeteredUsage.Library.Interaction
import MeteredUsage.Store.Quota
import MeteredUsage.Store.Response

/-! One adapter per provider: the requests it sends through CLIProxy's `api-call`, in the order
it sends them, and what its answers decide. How an adapter reads its windows and its plan out of
an answer is left to `Reading`; it decides no request but where an adapter says so. -/

namespace MeteredUsage.Gateway.Adapters
open MeteredUsage.Values MeteredUsage.Store MeteredUsage.Store.Schema MeteredUsage.Store.Credentials
open MeteredUsage.Store.Windows MeteredUsage.Store.Quota MeteredUsage.Library.Interaction
open MeteredUsage.Store.Response (asInteger)

/-- The request body of `api-call`, without its headers. -/
structure ApiCall where
  authIndex : String
  method : String
  url : String
  data : Option String
deriving DecidableEq, Repr

structure ApiResponse where
  statusCode : Nat
  body : String
deriving DecidableEq, Repr

/-- What an adapter asks for: a call of its provider, the credential's file, or the time. -/
inductive Question where
  | call (call : ApiCall)
  | download (name : String)
  | now
deriving DecidableEq, Repr

@[reducible] def Answer : Question → Type
  | .call _ => Except ManagementError ApiResponse
  | .download _ => Except ManagementError String
  | .now => Timestamp

abbrev Fetch (Value : Type) := ExceptT RefreshError (Dialogue Answer) Value

/-- How the adapters read what they are told. -/
structure Reading where
  instant : Json → Option Timestamp
  codexWindows : Json → Timestamp → List NewWindow
  codexPlan : AuthFile → Json → Option String
  claudeWindows : Json → List NewWindow
  claudePlan : Json → Option String
  claudeLabel : String → Option String
  /-- The request body that names a project. -/
  antigravityBody : String → String
  antigravityWindows : Json → List NewWindow
  antigravityPlan : Json → Option String
  kimiWindows : Json → Timestamp → List NewWindow
  devinWindows : Json → List NewWindow
  devinPlan : Json → Option String
  xaiIsPaid : Json → Bool
  xaiWindows : Json → Option (List NewWindow)
  metaWindows : Json → List NewWindow
  metaPlan : Json → Option String

variable (runtime : Sql.Runtime) (reading : Reading)

/-- One call, with a failure of CLIProxy as an answer. -/
def ask (call : ApiCall) : Fetch (Except ManagementError ApiResponse) :=
  ExceptT.lift (Dialogue.question (Question.call call))

def fail {Value : Type} (error : RefreshError) : Fetch Value := ExceptT.mk (pure (.error error))

def ofExcept {Value : Type} (outcome : Except RefreshError Value) : Fetch Value :=
  ExceptT.mk (pure outcome)

def download (name : String) : Fetch (Except ManagementError String) :=
  ExceptT.lift (Dialogue.question (Question.download name))

def now : Fetch Timestamp := ExceptT.lift (Dialogue.question Question.now)

def tokenExpired : String := "OAuth access token has expired"

/-- The provider's answer as JSON, or why it is not one. -/
def answer (response : ApiResponse) : Except RefreshError Json :=
  if response.statusCode = 401 ∧ tokenExpired.toList.IsInfix response.body.toList then
    .error .signInExpired
  else if 200 ≤ response.statusCode ∧ response.statusCode < 300 then
    match runtime.parseJson (Sql.strTrim response.body) with
    | some value => .ok value
    | none => .error .unreadable
  else .error (.upstream response.statusCode)

/-- The answer to a call that may not have come. -/
def answered (reply : Except ManagementError ApiResponse) : Except RefreshError Json :=
  match reply with
  | .ok response => answer runtime response
  | .error error => .error (.management error)

namespace Codex

def usageUrl : String := "https://chatgpt.com/backend-api/wham/usage"
def resetCreditsUrl : String := "https://chatgpt.com/backend-api/wham/rate-limit-reset-credits"
def consumeUrl : String := "https://chatgpt.com/backend-api/wham/rate-limit-reset-credits/consume"

/-- The one kind of reset credit that resets the Codex rate limits. -/
def rateLimitReset : String := "codex_rate_limits"

/-- The keys a reset list has one of. -/
def resetListKeys : List String :=
  ["credits", "available_count", "availableCount", "applicable_available_count",
    "applicableAvailableCount"]

/-- One listed reset that is available and says when it ends. -/
def grant (credit : Json) : Option Grant := do
  let kind ← (field credit ["reset_type", "resetType"]).bind textOf
  let status ← (member credit "status").bind textOf
  if kind = rateLimitReset ∧ status = "available" then
    let expiresAt ← (field credit ["expires_at", "expiresAt"]).bind reading.instant
    some ⟨none, 1, none, some expiresAt⟩
  else none

def items : Json → Option (List Json)
  | .array items => some items
  | _ => none

def grants (listed : Json) : Option (List Grant) :=
  if isObject listed && resetListKeys.any fun key => (member listed key).isSome then
    some ((((member listed "credits").bind items).getD []).filterMap (grant reading))
  else none

/-- A failure leaves the usage standing and the stored list untouched. -/
def manualResets (authIndex : String) : Fetch ManualResets := do
  let reply ← ask ⟨authIndex, "GET", resetCreditsUrl, none⟩
  match answered runtime reply with
  | .ok listed => return (grants reading listed).elim .unchanged .reported
  | .error _ => return .unchanged

def fetch (file : AuthFile) (authIndex : String) : Fetch Observation := do
  let reply ← ask ⟨authIndex, "GET", usageUrl, none⟩
  let usage ← ofExcept (answered runtime reply)
  let at_ ← now
  let manualResets ← manualResets runtime reading authIndex
  return ⟨reading.codexWindows usage at_, reading.codexPlan file usage, manualResets⟩

/-- Redeems one manual reset, under the id of the request. -/
def reset (redeemRequest : String) (authIndex : String) : Fetch Unit := do
  let reply ← ask ⟨authIndex, "POST", consumeUrl, some redeemRequest⟩
  let confirmation ← ofExcept (answered runtime reply)
  match (member confirmation "code").bind asText with
  | some "reset" | some "already_redeemed" => return ()
  | _ => fail .resetNotConfirmed

end Codex

namespace Claude

def usageUrl : String := "https://api.anthropic.com/api/oauth/usage"
def profileUrl : String := "https://api.anthropic.com/api/oauth/profile"
def resetGrantsUrl : String := "https://api.anthropic.com/api/oauth/usage?cedar_ember=1&skip_spend=1"

def grant (value : Json) : Option Grant := do
  let total ← ((member value "resets_total").bind asInteger).filter (0 ≤ ·)
  let remaining ← ((member value "resets_left").bind asInteger).filter fun left =>
    0 ≤ left ∧ left ≤ total
  let expiresAt ← match member value "ends_at" with
    | none | some .null => some none
    | some ends => (reading.instant ends).map some
  some ⟨((member value "label").bind asText).bind reading.claudeLabel, remaining, some total, expiresAt⟩

/-- The listed grants, unless one has no id of its own. -/
def listedGrants (ids : List String) : List Json → Option (List Grant)
  | [] => some []
  | value :: rest => do
    let id ← ((member value "id").bind asText).filter (· ≠ "")
    if id ∈ ids then none else
      let first ← grant reading value
      let others ← listedGrants (id :: ids) rest
      some (first :: others)

/-- The grants with a reset left. -/
def resetGrants (body : Json) : Option (List Grant) := do
  let block ← member body "cedar_ember"
  let _eligible ← (member block "eligible").bind asBool
  match member block "grants" with
  | none | some .null => some []
  | some listed =>
    let listed ← Codex.items listed
    let grants ← listedGrants reading [] listed
    some (grants.filter fun grant => 0 < grant.remaining)

/-- The profile is asked for beside the usage, and the grants once the usage answered. -/
def fetch (authIndex : String) : Fetch Observation := do
  let usage ← ask ⟨authIndex, "GET", usageUrl, none⟩
  let profile ← ask ⟨authIndex, "GET", profileUrl, none⟩
  let usage ← ofExcept (answered runtime usage)
  let plan := (answered runtime profile).toOption.bind reading.claudePlan
  let reply ← ask ⟨authIndex, "GET", resetGrantsUrl, none⟩
  let manualResets := ((answered runtime reply).toOption.bind (resetGrants reading)).elim
    ManualResets.unchanged .reported
  return ⟨reading.claudeWindows usage, plan, manualResets⟩

end Claude

namespace Antigravity

def quotaUrls : List String :=
  ["https://daily-cloudcode-pa.googleapis.com/v1internal:retrieveUserQuotaSummary",
    "https://daily-cloudcode-pa.sandbox.googleapis.com/v1internal:retrieveUserQuotaSummary",
    "https://cloudcode-pa.googleapis.com/v1internal:retrieveUserQuotaSummary"]
def codeAssistUrl : String := "https://daily-cloudcode-pa.googleapis.com/v1internal:loadCodeAssist"
def codeAssistBody : String := "\x7b\"metadata\":\x7b\"ideType\":\"ANTIGRAVITY\"\x7d\x7d"

/-- Some answers wrap the payload in a `body` object. -/
def unwrapBody (payload : Json) : Json :=
  if (member payload "models").isSome then payload else
    match member payload "body" with
    | some (.object body) => .object body
    | some (.string body) => ((runtime.parseJson body).filter isObject).getD payload
    | _ => payload

/-- A status that outranks a later host's failure. -/
def isDecisive : Option RefreshError → Bool
  | some (.upstream code) => code = 403 || code = 404
  | _ => false

/-- The hosts are asked in order until one answers with windows. -/
def quota (authIndex body : String) (answered' : Bool) (failure : Option RefreshError) :
    List String → Fetch (Except RefreshError (List NewWindow))
  | [] => return if answered' then .ok [] else .error (failure.getD .empty)
  | url :: rest => do
    let reply ← ask ⟨authIndex, "POST", url, some body⟩
    match answered runtime reply with
    | .ok payload =>
      let windows := reading.antigravityWindows (unwrapBody runtime payload)
      if windows = [] then quota authIndex body true failure rest else return .ok windows
    | .error error =>
      quota authIndex body answered' (if isDecisive failure then failure else some error) rest

/-- The plan is asked for beside the quota. -/
def fetch (file : AuthFile) (authIndex : String) : Fetch Observation :=
  match file.projectId with
  | none => fail .missingProjectId
  | some project => do
    let subscription ← ask ⟨authIndex, "POST", codeAssistUrl, some codeAssistBody⟩
    let plan := (answered runtime subscription).toOption.bind fun payload =>
      reading.antigravityPlan (unwrapBody runtime payload)
    let windows ← quota runtime reading authIndex (reading.antigravityBody project) false none
      quotaUrls
    let windows ← ofExcept windows
    return ⟨windows, plan, .unchanged⟩

end Antigravity

namespace Kimi

def usageUrl : String := "https://api.kimi.com/coding/v1/usages"

def fetch (authIndex : String) : Fetch Observation := do
  let reply ← ask ⟨authIndex, "GET", usageUrl, none⟩
  let usage ← ofExcept (answered runtime reply)
  let at_ ← now
  return ⟨reading.kimiWindows usage at_, none, .unchanged⟩

end Kimi

namespace Devin

def statusUrl : String :=
  "https://server.codeium.com/exa.seat_management_pb.SeatManagementService/GetUserStatus"
def statusBody : String :=
  "\x7b\"metadata\":\x7b\"ideName\":\"chisel\",\"ideVersion\":\"3000.10.21\",\"apiKey\":\"$TOKEN$\"," ++
    "\"locale\":\"en\",\"os\":\"darwin\",\"extensionVersion\":\"3000.10.21\",\"clientName\":\"chisel\"\x7d\x7d"

def fetch (authIndex : String) : Fetch Observation := do
  let reply ← ask ⟨authIndex, "POST", statusUrl, some statusBody⟩
  let status ← ofExcept (answered runtime reply)
  let windows := reading.devinWindows status
  if windows = [] then fail .empty
  else return ⟨windows, reading.devinPlan status, .unchanged⟩

end Devin

namespace Xai

def billingWeeklyUrl : String := "https://cli-chat-proxy.grok.com/v1/billing?format=credits"
def billingMonthlyUrl : String := "https://cli-chat-proxy.grok.com/v1/billing"
def meUrl : String := "https://api.x.ai/v1/me"
def chatUrl : String := "https://api.x.ai/v1/chat/completions"
def pingBody : String :=
  "\x7b\"model\":\"grok-4.5\",\"messages\":[\x7b\"role\":\"user\",\"content\":\"ping\"\x7d]," ++
    "\"max_tokens\":1,\"stream\":false\x7d"

/-- A one-token chat completion, which spends real quota and reports no numbers. -/
def paid (authIndex : String) : Fetch (Except RefreshError Observation) := do
  let _profile ← ask ⟨authIndex, "GET", meUrl, none⟩
  let chat ← ask ⟨authIndex, "POST", chatUrl, some pingBody⟩
  match chat with
  | .error error => return .error (.management error)
  | .ok chat =>
    if 200 ≤ chat.statusCode ∧ chat.statusCode < 300 then
      return .ok ⟨[], some "paid", .unchanged⟩
    else return .error (.upstream chat.statusCode)

/-- The windows of one billing endpoint, if its answer has a config with some. -/
def billing (reply : Except ManagementError ApiResponse) :
    Except RefreshError (Option (List NewWindow)) :=
  (answered runtime reply).map fun payload => (member payload "config").bind reading.xaiWindows

/-- What both billing endpoints come to: windows, or the failure to report. -/
def billed (weekly monthly : Except RefreshError (Option (List NewWindow))) :
    Except RefreshError (List NewWindow) :=
  match weekly, monthly with
  | .error error, .error _ => .error error
  | weekly, monthly =>
    let windows := ([weekly, monthly].filterMap fun summary => summary.toOption.join).flatten
    if windows = [] then .error .empty else .ok windows

def fetch (file : AuthFile) (authIndex : String) : Fetch Observation := do
  if reading.xaiIsPaid file.raw then
    let observed ← paid authIndex
    ofExcept observed
  else
    let weekly ← ask ⟨authIndex, "GET", billingWeeklyUrl, none⟩
    let monthly ← ask ⟨authIndex, "GET", billingMonthlyUrl, none⟩
    match billed (billing runtime reading weekly) (billing runtime reading monthly) with
    | .ok windows => return ⟨windows, none, .unchanged⟩
    | .error failure =>
      let observed ← paid authIndex
      ofExcept (observed.mapError fun _ => failure)

end Xai

namespace Meta

def keyUrl : String := "https://api.meta.ai/muse-code/key"
def dcaPrefix : String := "dca:"

/-- Whether the text is the prefix and something after it, without whitespace. -/
def isDca (token : String) : Bool :=
  dcaPrefix.toList.isPrefixOf token.toList &&
    (let rest := token.toList.drop dcaPrefix.toList.length
     !rest.isEmpty && !rest.any Sql.isWhitespace)

/-- Only the persisted DCA field, never the LLM key beside it. -/
def dcaToken (credential : String) : Except RefreshError String :=
  match (runtime.parseJson credential).filter isObject with
  | none => .error .invalidCredentialFile
  | some credential =>
    match (((member credential "dca_token").bind asText).map Sql.strTrim).filter isDca with
    | some token => .ok token
    | none => .error .missingDcaToken

def fetch (file : AuthFile) (authIndex : String) : Fetch Observation :=
  match file.entry.name.filter fun _ => file.hasFile with
  | none => fail .missingFile
  | some name => do
    let credential ← download name
    let credential ← ofExcept (credential.mapError .management)
    -- The token goes into the call's authorization header.
    let _token ← ofExcept (dcaToken runtime credential)
    let reply ← ask ⟨authIndex, "POST", keyUrl, some "\x7b\x7d"⟩
    let key ← ofExcept (answered runtime reply)
    if isObject key then return ⟨reading.metaWindows key, reading.metaPlan key, .unchanged⟩
    else fail .unreadable

end Meta

/-- `Provider::fetch`. -/
def fetch (provider : Provider) (file : AuthFile) (authIndex : String) : Fetch Observation :=
  match provider with
  | .claude => Claude.fetch runtime reading authIndex
  | .codex => Codex.fetch runtime reading file authIndex
  | .antigravity => Antigravity.fetch runtime reading file authIndex
  | .kimi => Kimi.fetch runtime reading authIndex
  | .devin => Devin.fetch runtime reading authIndex
  | .xai => Xai.fetch runtime reading file authIndex
  | .metaAi => Meta.fetch runtime reading file authIndex

/-- `Provider::reset`. -/
def reset (provider : Provider) (redeemRequest authIndex : String) : Fetch Unit :=
  match provider with
  | .codex => Codex.reset runtime redeemRequest authIndex
  | _ => fail .noManualReset

end MeteredUsage.Gateway.Adapters
