import Mathlib.Data.List.Infix
import MeteredUsage.Gateway.Adapters
import MeteredUsage.Gateway.CodexWindows
import MeteredUsage.Quota.Base64Url

/-! How each adapter reads its windows and its plan out of what its provider answered. Some providers
state percentages used, some what remains, some counts of requests or of cents. -/

namespace MeteredUsage.Gateway.Readers
open MeteredUsage.Values MeteredUsage.Store MeteredUsage.Store.Credentials MeteredUsage.Store.Windows
open MeteredUsage.Gateway.Numbers MeteredUsage.Gateway.Adapters
open MeteredUsage.Gateway.Adapters.Codex (items)

/-- What the adapters use beside `Floats`. -/
structure Toolkit extends Floats where
  subtract : Sql.Float64 → Sql.Float64 → Sql.Float64
  /-- `f64::floor`. -/
  floor : Sql.Float64 → Sql.Float64
  /-- Unicode's uppercase mapping. -/
  toUppercase : String → String
  /-- A text as `serde_json` writes it. -/
  quoted : String → String
  /-- `serde_json::from_slice`. -/
  parseBytes : List UInt8 → Option Json

/-- `NewWindow::default`. -/
def noWindow : NewWindow := ⟨"", "", none, none, none, none, none, none, .account, false⟩

def hour : Int := 3600
def day : Int := 86400
def week : Int := 604800
def fiveHours : Int := 18000

/-- `Value::pointer`, of names. -/
def pointer (value : Json) (path : List String) : Option Json := path.foldlM member value

/-- The items of an array, where there is one. -/
def listed (value : Option Json) : List Json := (value.bind items).getD []

/-- The comparison `<=`, which a NaN is never part of. -/
def le (first second : Sql.Float64) : Bool := !first.isNan && !second.isNan && first.place ≤ second.place

variable (runtime : Sql.Runtime) (toolkit : Toolkit)

def truthy : Json → Option Bool
  | .bool flag => some flag
  | .number text => (toolkit.asF64 text).map fun number => !number.eq .zero
  | .string text =>
    let word := runtime.toLowercase (Sql.strTrim text)
    if word ∈ ["true", "1", "yes", "y", "on"] then some true
    else if word ∈ ["false", "0", "no", "n", "off"] then some false
    else none
  | _ => none

namespace Claude

def fableKey : String := "iguana_necktie"

/-- Payload key, window key and label. -/
def named : List (String × String × String) :=
  [("five_hour", "five-hour", "5-hour"), ("seven_day", "seven-day", "7-day"),
    ("seven_day_oauth_apps", "seven-day-oauth-apps", "7-day OAuth apps"),
    ("seven_day_opus", "seven-day-opus", "7-day Opus"), ("seven_day_sonnet", "seven-day-sonnet", "7-day Sonnet"),
    ("seven_day_cowork", "seven-day-cowork", "7-day Cowork"), (fableKey, "seven-day-fable", "7-day Fable")]

/-- The model limits count only their own model. Cowork counts work that never passes a gateway. -/
def scope : String → Scope
  | "seven-day-opus" => .model "opus"
  | "seven-day-sonnet" => .model "sonnet"
  | "seven-day-fable" => .model "fable"
  | "seven-day-cowork" => .unmetered
  | _ => .account

/-- A weekly limit on the Fable model that states a percentage. -/
def isFable (limit : Json) : Bool :=
  let kind := ((member limit "kind").bind textOf).map runtime.toLowercase
  let model := ((pointer limit ["scope", "model", "display_name"]).bind textOf).map runtime.toLowercase
  kind = some "weekly_scoped" && (model = some "fable" || model = some "fable 5") &&
    ((member limit "percent").bind (number toolkit.toFloats)).isSome

/-- The limit reported for the Fable model. The active one wins over an inactive one. -/
def fableLimit (usage : Json) : Option Json :=
  let candidates := (listed (member usage "limits")).filter (isFable runtime toolkit)
  (candidates.find? fun limit => (member limit "is_active").bind asBool = some true).or candidates.head?

/-- One of the named windows, where the payload has it. -/
def namedWindow (usage : Json) (fable : Option Json) (name : String × String × String) : Option NewWindow :=
  if name.1 = fableKey ∧ fable.isSome then none
  else do
    let window ← (member usage name.1).filter isObject
    let utilization ← member window "utilization"
    some { noWindow with
      key := name.2.1
      label := name.2.2
      usedFraction := (number toolkit.toFloats utilization).map (usedFromPercent toolkit.toFloats)
      windowSeconds := some (if name.1 = "five_hour" then fiveHours else week)
      resetsAt := (member window "resets_at").bind (instant runtime toolkit.toFloats)
      scope := scope name.2.1
      startsOnUse := name.1 = "five_hour" }

def fableWindow (limit : Json) : NewWindow := { noWindow with
  key := "seven-day-fable"
  label := "7-day Fable"
  usedFraction := ((member limit "percent").bind (number toolkit.toFloats)).map (usedFromPercent toolkit.toFloats)
  windowSeconds := some week
  resetsAt := (member limit "resets_at").bind (instant runtime toolkit.toFloats)
  scope := scope "seven-day-fable" }

/-- The paid extra usage, which counts credits. -/
def extraWindow (extra : Json) : NewWindow :=
  let used := (member extra "used_credits").bind (number toolkit.toFloats)
  let limit := (member extra "monthly_limit").bind (number toolkit.toFloats)
  { noWindow with
    key := "extra-usage"
    label := "Extra usage"
    usedFraction := (((member extra "utilization").bind (number toolkit.toFloats)).map
        (usedFromPercent toolkit.toFloats)).or do
      let used ← used
      let limit ← limit.filter fun limit => Sql.Float64.zero.lt limit
      some (toolkit.divide used limit)
    usedValue := used
    limitValue := limit
    unit := some "credits" }

def windows (usage : Json) : List NewWindow :=
  let fable := fableLimit runtime toolkit usage
  let extra := (member usage "extra_usage").filter fun extra => (member extra "is_enabled").bind asBool = some true
  named.filterMap (namedWindow runtime toolkit usage fable) ++
    (fable.map (fableWindow runtime toolkit)).toList ++ (extra.map (extraWindow toolkit)).toList

def organizationPlans : List String := ["team", "enterprise"]

/-- `strip_prefix`. -/
def withoutStart (start text : String) : Option String :=
  (start.toList.isPrefixOf? text.toList).map String.ofList

/-- An active team or enterprise organization wins over the account flags. -/
def plan (profile : Json) : Option String :=
  let organization (key : String) :=
    ((pointer profile ["organization", key]).bind textOf).map runtime.toLowercase
  let kind := if organization "subscription_status" = some "active" then
      ((organization "organization_type").bind (withoutStart "claude_")).filter (organizationPlans.contains ·)
    else none
  match kind with
  | some kind => some kind
  | none =>
    let flag (key : String) := (pointer profile ["account", key]).bind (truthy runtime toolkit)
    match flag "has_claude_max", flag "has_claude_pro" with
    | some true, _ => some "max"
    | _, some true => some "pro"
    | some false, some false => some "free"
    | _, _ => none

/-- `char::is_control`. -/
def isControl (character : Char) : Bool :=
  character.toNat < 32 || (127 ≤ character.toNat && character.toNat ≤ 159)

def labelCharacters : Nat := 120

/-- A text on one line, as it is shown. -/
def label (text : String) : Option String :=
  let words := (text.toList.splitOnP fun character => Sql.isWhitespace character || isControl character).filter
    (· ≠ [])
  let label := ([' '].intercalate words).take labelCharacters
  if label = [] then none else some (String.ofList label)

end Claude

namespace Kimi

inductive TimeUnit where
  | second
  | minute
  | hour
  | day
  | week

/-- Protobuf names such as `TIME_UNIT_MINUTE`; an absent unit is minutes. -/
def timeUnit (unit : Option String) : Option TimeUnit :=
  let name := toolkit.toUppercase (Sql.strTrim (unit.getD ""))
  match (Claude.withoutStart "TIME_UNIT_" name).getD name with
  | "SECOND" | "SECONDS" => some .second
  | "" | "MINUTE" | "MINUTES" => some .minute
  | "HOUR" | "HOURS" => some .hour
  | "DAY" | "DAYS" => some .day
  | "WEEK" | "WEEKS" => some .week
  | _ => none

/-- `i64::checked_mul` of a length. -/
def times (duration factor : Int) : Option Int :=
  if -2 ^ 63 ≤ duration * factor ∧ duration * factor < 2 ^ 63 then some (duration * factor) else none

def seconds (duration : Int) (unit : Option String) : Option Int :=
  times duration (match timeUnit toolkit unit with
    | some .second => 1
    | some .minute | none => 60
    | some .hour => hour
    | some .day => day
    | some .week => 7 * day)

def durationToken (duration : Int) (unit : Option String) : String :=
  match timeUnit toolkit unit with
  | some .second => toString duration ++ "s"
  | some .hour => toString duration ++ "h"
  | some .day => toString duration ++ "d"
  | some .week => toString duration ++ "w"
  | some .minute | none =>
    if duration.tmod 60 = 0 then toString (duration.tdiv 60) ++ "h" else toString duration ++ "m"

/-- `str::contains`. -/
def mentions (text part : String) : Bool := decide (part.toList.IsInfix text.toList)

def secondsFromLabel (label : String) : Option Int :=
  let label := runtime.toLowercase label
  if mentions label "day" then some day
  else if mentions label "week" then some (7 * day)
  else if mentions label "month" then some (30 * day)
  else if mentions label "5h" || mentions label "hour" then some (5 * hour)
  else none

/-- The requests used of a limit, or what remains of it. -/
def row (data : Json) (key fallback : String) (duration : Option Int) (unit : Option String)
    (now : Timestamp) : Option NewWindow :=
  let count (key : String) := ((member data key).bind (number toolkit.toFloats)).map toolkit.floor
  let limit := count "limit"
  let used := (count "used").or do
    let limit ← limit
    let remaining ← count "remaining"
    some (toolkit.subtract limit remaining)
  if used.isNone ∧ limit.isNone then none
  else
    let used := used.getD .zero
    let limit := limit.getD .zero
    let label := (["name", "title"].findSome? fun key => (member data key).bind textOf).getD fallback
    some { noWindow with
      key
      label
      usedFraction := if Sql.Float64.zero.lt limit then some (toolkit.divide used limit) else none
      usedValue := some used
      limitValue := some limit
      unit := some requests
      windowSeconds := match duration.filter (0 < ·) with
        | some duration => seconds toolkit duration unit
        | none => secondsFromLabel runtime label
      resetsAt := ((field data ["reset_at", "resetAt", "reset_time", "resetTime"]).bind
          (instant runtime toolkit.toFloats)).or
        (["reset_in", "resetIn", "ttl"].findSome? fun key =>
          (member data key).bind (afterSeconds runtime toolkit.toFloats · now)) }

/-- One of the listed limits, by its place among them. -/
def limitWindow (item : Json) (index : Nat) (now : Timestamp) : Option NewWindow :=
  let detail := ((member item "detail").filter isObject).getD item
  let records := ((member item "window").filter isObject).toList ++ [item, detail]
  let duration := records.findSome? fun record => (member record "duration").bind integer
  let unit := records.findSome? fun record => (member record "timeUnit").bind asText
  let named := ["name", "title", "scope"].findSome? fun key =>
    ((((member item key).or (member detail key)).bind asText).map Sql.strTrim).filter (· ≠ "")
  let fallback := named.getD (match duration.filter (0 < ·) with
    | some duration => durationToken toolkit duration unit ++ " limit"
    | none => "Limit " ++ toString (index + 1))
  row runtime toolkit detail ("limit-" ++ toString index) fallback duration unit now

def windows (usage : Json) (now : Timestamp) : List NewWindow :=
  ((listed (member usage "limits")).zipIdx.filterMap fun item => limitWindow runtime toolkit item.1 item.2 now) ++
    (((member usage "usage").filter isObject).bind fun summary =>
      row runtime toolkit summary "summary" "Weekly limit" none none now).toList

end Kimi

namespace Devin

/-- `100.0`. -/
def hundred : Sql.Float64 := percent

/-- A plain decimal: digits, with at most one dot between two of them. -/
def isPlain (text : List Char) : Bool :=
  text ≠ [] && text.head? ≠ some '.' && text.getLast? ≠ some '.' &&
    text.all (fun character => character.isDigit || character = '.') && text.count '.' ≤ 1

/-- A percentage from 0 to 100, as a number or a plain decimal string. -/
def percentOf (value : Json) : Option Sql.Float64 :=
  let read := match value with
    | .number text => toolkit.asF64 text
    | .string text =>
      let text := Sql.strTrim text
      if isPlain text.toList then toolkit.parse text else none
    | _ => none
  read.filter fun percent => le .zero percent && le percent hundred

def unixSeconds (value : Json) : Option Timestamp :=
  let read := match value with
    | .number text => toolkit.asF64 text
    | .string text =>
      if (Sql.strTrim text).toList.all Char.isDigit then toolkit.parse (Sql.strTrim text) else none
    | _ => none
  (read.filter fun seconds => Sql.Float64.zero.lt seconds).bind (offset runtime toolkit.toFloats 0)

def planStatus (status : Json) : Json := (pointer status ["userStatus", "planStatus"]).getD .null

/-- One of the two windows, where its part of the status says anything. -/
def window (status : Json) (named : String × String × Int) : Option NewWindow :=
  let remaining := (member status (named.1 ++ "QuotaRemainingPercent")).bind (percentOf toolkit)
  let resetsAt := (member status (named.1 ++ "QuotaResetAtUnix")).bind (unixSeconds runtime toolkit)
  if remaining.isSome ∨ resetsAt.isSome then
    some { noWindow with
      key := named.1
      label := named.2.1
      usedFraction := remaining.map fun remaining => toolkit.subtract .one (toolkit.divide remaining hundred)
      windowSeconds := some named.2.2
      resetsAt }
  else none

def named : List (String × String × Int) := [("daily", "Daily", day), ("weekly", "Weekly", 7 * day)]

def windows (status : Json) : List NewWindow := named.filterMap (window runtime toolkit (planStatus status))

def plan (status : Json) : Option String := (pointer (planStatus status) ["planInfo", "planName"]).bind textOf

end Devin

namespace Meta

/-- A window whose object states a share or a reset. -/
def push (window : Json) (key label : String) (windowSeconds : Option Int) : Option NewWindow :=
  let used := ((member window "used_percent").bind (number toolkit.toFloats)).map (usedFromPercent toolkit.toFloats)
  let resetsAt := ((member window "resets_at").filter fun reset =>
    (number toolkit.toFloats reset).any fun reset => Sql.Float64.zero.lt reset).bind
      (instant runtime toolkit.toFloats)
  if used.isSome ∨ resetsAt.isSome then
    some { noWindow with key, label, usedFraction := used, windowSeconds, resetsAt }
  else none

/-- The quota of an answer that carries the key beside it. -/
def usage (key : Json) : Json := (member key "subs_usage").getD .null

def windows (key : Json) : List NewWindow :=
  let window (name : String) := (member (usage key) name).filter isObject
  ((window "window").bind fun rolling => push runtime toolkit rolling "window" "Rolling window"
      ((((member rolling "window_duration_mins").bind integer).filter (0 < ·)).bind (Kimi.times · 60))).toList ++
    ((window "weekly").bind fun weekly => push runtime toolkit weekly "weekly" "Weekly" (some week)).toList

def plan (key : Json) : Option String :=
  ((member key "subs_tier_name").bind textOf).or ((member (usage key) "tier").bind textOf)

end Meta

namespace Antigravity

/-- A fraction as a number, a numeric string, or a percentage string. -/
def fraction (value : Json) : Option Sql.Float64 :=
  (number toolkit.toFloats value).or do
    let text ← asText value
    let trimmed := (Sql.strTrim text).toList
    let digits ← if trimmed.getLast? = some '%' then some trimmed.dropLast else none
    let stated ← (toolkit.parse (String.ofList digits)).filter Sql.Float64.isFinite
    some (toolkit.divide stated percent)

def windowSeconds (window : String) : Option Int :=
  match runtime.toLowercase (Sql.strTrim window) with
  | "5h" | "five-hour" | "five_hour" => some fiveHours
  | "weekly" | "week" => some week
  | _ => none

/-- One bucket of a group, by its place in it. -/
def bucketWindow (groupLabel groupId : String) (bucket : Json) (index : Nat) : Option NewWindow := do
  let remaining ← (field bucket ["remainingFraction", "remaining_fraction"]).bind (fraction toolkit)
  let window := (member bucket "window").bind textOf
  let id := ((field bucket ["bucketId", "bucket_id"]).bind textOf).getD (match window with
    | some window => groupId ++ "-" ++ window
    | none => groupId ++ "-bucket-" ++ toString (index + 1))
  let label := ((field bucket ["displayName", "display_name"]).bind textOf).getD id
  some { noWindow with
    key := id
    label := groupLabel ++ ": " ++ label
    usedFraction := some (toolkit.subtract .one (remaining.clamp .zero .one))
    windowSeconds := window.bind (windowSeconds runtime)
    resetsAt := (field bucket ["resetTime", "reset_time"]).bind (instant runtime toolkit.toFloats) }

def groupWindows (group : Json) (index : Nat) : List NewWindow :=
  let label := ((field group ["displayName", "display_name"]).bind textOf).getD
    ("Quota Group " ++ toString (index + 1))
  let id := if slug runtime label = "" then "quota-group-" ++ toString (index + 1) else slug runtime label
  (listed (member group "buckets")).zipIdx.filterMap fun bucket =>
    bucketWindow runtime toolkit label id bucket.1 bucket.2

def windows (payload : Json) : List NewWindow :=
  (listed (member payload "groups")).zipIdx.flatMap fun group => groupWindows runtime toolkit group.1 group.2

/-- A tier's id and name. -/
def tier (payload : Json) (keys : List String) : Option (Option String × Option String) :=
  (field payload keys).map fun tier => ((member tier "id").bind textOf, (member tier "name").bind textOf)

/-- A paid tier outranks the current one. -/
def plan (payload : Json) : Option String := do
  let paid := (tier payload ["paidTier", "paid_tier"]).filter fun tier => tier.1.isSome
  let (id, name) ← paid.or (tier payload ["currentTier", "current_tier"])
  match id with
  | some "free-tier" => some "free"
  | some "g1-pro-tier" => some "pro"
  | some "g1-ultra-tier" => some "ultra"
  | some "g1-ultra-lite-tier" => some "ultra-lite"
  | _ => id.or name

end Antigravity

namespace Xai

def paidPrefix : String := "paid"
def cents : String := "usd_cents"

def nestedAuthKeys : List String := ["metadata", "attributes", "oauth", "raw", "credential", "auth"]

/-- The objects of a credential entry, as deep as they are looked into. -/
def collect : Nat → Json → List Json
  | 0, _ => []
  | left + 1, value =>
    if isObject value then value :: nestedAuthKeys.flatMap fun key => ((member value key).map (collect left)).getD []
    else []

/-- The entry, and two levels under it. -/
def levels : Nat := 3

def fields : Json → List (String × Json)
  | .object fields => fields
  | _ => []

/-- Whether a claim's name is `tier`, under any namespace. -/
def isTier (name : String) : Bool :=
  name = "tier" || "/tier".toList.isSuffixOf name.toList || ":tier".toList.isSuffixOf name.toList

/-- The `tier` claim of a JWT. -/
def tierOf (token : String) : Option Sql.Float64 := do
  let payload ← (token.toList.splitOn '.')[1]?
  let bytes ← Quota.Base64Url.base64Url (String.ofList payload)
  let claims ← toolkit.parseBytes bytes
  let claim ← (fields claims).find? fun claim => isTier (runtime.toLowercase claim.1)
  number toolkit.toFloats claim.2

/-- Paid when the credential routes through the official API under the `paid` prefix, or when any token it
carries states a tier of at least one. -/
def isPaid (entry : Json) : Bool :=
  let records := collect levels entry
  let official := records.any fun record =>
    ((field record ["using_api", "usingApi"]).bind (truthy runtime toolkit)).getD false
  let prefixed := records.any fun record =>
    ((member record "prefix").bind textOf).any fun found => Sql.lower found = paidPrefix
  (official && prefixed) || records.any fun record =>
    (["access_token", "accessToken", "id_token", "idToken", "token"].filterMap fun key =>
      (member record key).bind asText).any fun token => (tierOf runtime toolkit token).any fun tier => le .one tier

/-- The whole seconds between two instants in order. -/
def span (start finish : Option Timestamp) : Option Int := do
  let start ← start
  let finish ← finish
  if start < finish then some (Int.tdiv finish (10 ^ 9) - Int.tdiv start (10 ^ 9)) else none

/-- The credit window of the active period and one window per product within it. -/
def creditWindows (periodType : String) (creditPercent : Option Sql.Float64) (products : List Json)
    (start finish : Option Timestamp) : List NewWindow :=
  { noWindow with
    key := "credits"
    label := if Kimi.mentions periodType "monthly" then "Monthly credits" else "Weekly credits"
    usedFraction := creditPercent.map (usedFromPercent toolkit.toFloats)
    windowSeconds := span start finish
    resetsAt := finish } ::
  products.zipIdx.map fun product =>
    let name := ((member product.1 "product").bind textOf).getD ("Product " ++ toString (product.2 + 1))
    { noWindow with
      key := "product-" ++ slug runtime name
      label := name
      usedFraction := ((field product.1 ["usagePercent", "usage_percent"]).bind (number toolkit.toFloats)).map
        (usedFromPercent toolkit.toFloats)
      windowSeconds := span start finish
      resetsAt := finish }

/-- `f64::min` and `f64::max`, of which a NaN is never the answer where the other is a number. -/
def lesser (first second : Sql.Float64) : Sql.Float64 :=
  if first.isNan then second else if second.lt first then second else first

def greater (first second : Sql.Float64) : Sql.Float64 :=
  if first.isNan then second else if first.lt second then second else first

/-- The instant of a field, or of a field beside it. -/
def instantOf (config : Json) (keys : List String) : Option Timestamp :=
  (field config keys).bind (instant runtime toolkit.toFloats)

def centsOf (config : Json) (keys : List String) : Option Sql.Float64 :=
  (field config keys).bind fun value => number toolkit.toFloats ((member value "val").getD value)

/-- The windows one billing answer states. A weekly credit percentage is a quota window; the monthly
figures are a spend cap that rolls over with the billing period. -/
def billingWindows (config : Json) : Option (List NewWindow) :=
  let period := field config ["currentPeriod", "current_period"]
  let periodType := (((period.bind (member · "type")).bind textOf).map runtime.toLowercase).getD ""
  let creditPercent :=
    (field config ["creditUsagePercent", "credit_usage_percent"]).bind (number toolkit.toFloats)
  let billingStart := instantOf runtime toolkit config ["billingPeriodStart", "billing_period_start"]
  let billingEnd := instantOf runtime toolkit config ["billingPeriodEnd", "billing_period_end"]
  let periodStart := ((period.bind (member · "start")).bind (instant runtime toolkit.toFloats)).or billingStart
  let periodEnd := ((period.bind (member · "end")).bind (instant runtime toolkit.toFloats)).or billingEnd
  let products := listed (field config ["productUsage", "product_usage"])
  let monthlyLimit := centsOf toolkit config ["monthlyLimit", "monthly_limit"]
  let used := centsOf toolkit config ["used"]
  let onDemandCap := centsOf toolkit config ["onDemandCap", "on_demand_cap"]
  let onDemandUsed := centsOf toolkit config ["onDemandUsed", "on_demand_used"]
  let weekly := creditPercent.isSome || Kimi.mentions periodType "weekly" || !products.isEmpty
  let monthly := monthlyLimit.isSome || used.isSome || (!weekly && (onDemandCap.isSome || billingEnd.isSome))
  if !weekly && !monthly then none
  else
    let credits := if weekly then
      creditWindows runtime toolkit periodType creditPercent products periodStart periodEnd else []
    let limit := monthlyLimit.filter fun limit => Sql.Float64.zero.lt limit
    let included := used.map fun used => (limit.map (lesser used)).getD used
    let spend := { noWindow with
      key := "included-spend"
      label := "Included spend"
      usedFraction := do
        let used ← included
        let limit ← limit
        some (toolkit.divide used limit)
      usedValue := included
      limitValue := monthlyLimit
      unit := some cents
      windowSeconds := span billingStart billingEnd
      resetsAt := billingEnd }
    let onDemand := onDemandCap.map fun cap =>
      let used := onDemandUsed.or do
        let used ← used
        let limit ← monthlyLimit
        some (greater (toolkit.subtract used limit) .zero)
      { noWindow with
        key := "on-demand-spend"
        label := "On-demand spend"
        usedFraction := (used.filter fun _ => Sql.Float64.zero.lt cap).map (toolkit.divide · cap)
        usedValue := used
        limitValue := some cap
        unit := some cents
        windowSeconds := span billingStart billingEnd
        resetsAt := billingEnd }
    some (credits ++ (if monthly then [spend] else []) ++ onDemand.toList)

end Xai

/-- The plan a Codex answer names, or the credential's own token does. -/
def codexPlan (file : AuthFile) (usage : Json) : Option String :=
  (((field usage ["plan_type", "planType"]).bind textOf).or
    ((file.entry.idToken.bind (member · "plan_type")).bind textOf)).map runtime.toLowercase

/-- How the adapters read what they are told. -/
def reading : Reading where
  instant := instant runtime toolkit.toFloats
  codexWindows := CodexWindows.windows runtime toolkit.toFloats
  codexPlan := codexPlan runtime
  claudeWindows := Claude.windows runtime toolkit
  claudePlan := Claude.plan runtime toolkit
  claudeLabel := Claude.label
  antigravityBody := fun project => "\x7b\"project\":" ++ toolkit.quoted project ++ "\x7d"
  antigravityWindows := Antigravity.windows runtime toolkit
  antigravityPlan := Antigravity.plan
  kimiWindows := Kimi.windows runtime toolkit
  devinWindows := Devin.windows runtime toolkit
  devinPlan := Devin.plan
  xaiIsPaid := Xai.isPaid runtime toolkit
  xaiWindows := Xai.billingWindows runtime toolkit
  metaWindows := Meta.windows runtime toolkit
  metaPlan := Meta.plan

end MeteredUsage.Gateway.Readers
