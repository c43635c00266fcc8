import MeteredUsage.Store.Events
import MeteredUsage.Store.Quota

/-! Meta's subscription exhaustion as reported in a normal request's 429 body. Only a later
successful request or the named reset clears it. -/

namespace MeteredUsage.Store.Response
open MeteredUsage.Values MeteredUsage.Store.Schema MeteredUsage.Store.Events
open MeteredUsage.Store.Snapshots MeteredUsage.Store.Credentials MeteredUsage.Store.Windows
open MeteredUsage.Library.Transaction

structure ProviderError where
  message : Json
  code : Json
  resetsAt : Json

/-- A field of a deserialized object: nothing when it is spelled twice. -/
def objectField (fields : List (String × Json)) (name : String) : Option (Option Json) :=
  match fields.filter (·.1 = name) with
  | [] => some none
  | [found] => some (some found.2)
  | _ => none

/-- Reads `ProviderError`, whose fields all default, from an object or an array. -/
def ProviderError.read : Json → Option ProviderError
  | .object fields => do
    let message ← objectField fields "message"
    let code ← objectField fields "code"
    let resetsAt ← objectField fields "resets_at"
    return ⟨message.getD .null, code.getD .null, resetsAt.getD .null⟩
  | .array items =>
    if items.length ≤ 3 then
      some ⟨items.getD 0 .null, items.getD 1 .null, items.getD 2 .null⟩
    else none
  | _ => none

/-- Reads `ErrorBody`. -/
def readBody : Json → Option ProviderError
  | .object fields => do
    let error ← objectField fields "error"
    error.bind ProviderError.read
  | .array [error] => ProviderError.read error
  | _ => none

/-- Whether the text holds the lowercase words, whatever the case of its ASCII letters. -/
def containsIgnoringCase (text words : String) : Bool :=
  let letters := text.toList.map Char.toLower
  letters.tails.any fun rest => words.toList.isPrefixOf rest

def asDigits (digits : List Char) : Option Nat :=
  if digits ≠ [] ∧ digits.all Char.isDigit then
    some (digits.foldl (fun total digit => total * 10 + (digit.toNat - '0'.toNat)) 0)
  else none

/-- A whole number that fits 64 bits. -/
def asI64 (characters : List Char) (signs : List Char) : Option Int :=
  let value : Option Int := match characters with
    | '-' :: digits => (asDigits digits).map fun magnitude => -magnitude
    | first :: digits =>
      if first ∈ signs then (asDigits digits).map Int.ofNat
      else (asDigits (first :: digits)).map Int.ofNat
    | [] => none
  value.filter fun value => decide (-2 ^ 63 ≤ value) && decide (value < 2 ^ 63)

/-- `Value::as_i64`. A written `-0` is read as a float. -/
def asInteger : Json → Option Int
  | .number text => if text = "-0" then none else asI64 text.toList []
  | _ => none

theorem fits_asI64 {characters signs : List Char} {value : Int} (read : asI64 characters signs = some value) :
    Fits value := by
  have kept := (Option.filter_eq_some_iff.mp read).2
  rw [Bool.and_eq_true, decide_eq_true_eq, decide_eq_true_eq] at kept
  exact kept

theorem fits_asInteger {json : Json} {value : Int} (read : asInteger json = some value) : Fits value := by
  cases json with
  | number text =>
    simp only [asInteger] at read
    split at read
    case isTrue => cases read
    case isFalse => exact fits_asI64 read
  | _ => cases read

/-- The instant of the first text after the words, less its closing full stops. -/
def resetInMessage (runtime : Sql.Runtime) (message : String) : Option Timestamp :=
  let words := "Your usage window resets at ".toList
  (message.toList.tails.find? words.isPrefixOf).bind fun rest =>
    runtime.parseTimestamp
      (String.ofList ((rest.drop words.length).reverse.dropWhile (· = '.')).reverse)

/-- `ProviderError::reset`: when the named quota is full again, where the error names one. -/
def ProviderError.reset (runtime : Sql.Runtime) (error : ProviderError) : Option Timestamp :=
  let message := (asText error.message).getD ""
  let code := (asText error.code).getD ""
  let isQuotaMessage := containsIgnoringCase message "subscription quota" ||
    containsIgnoringCase message "quota exhausted"
  let isQuotaCode := Sql.lower code = "rate_limit_exceeded" || containsIgnoringCase code "quota"
  if isQuotaMessage || isQuotaCode then
    let seconds := (asInteger error.resetsAt).or
      ((asText error.resetsAt).bind fun seconds => asI64 seconds.toList ['+'])
    ((seconds.map Values.seconds).filter runtime.isTimestamp).or (resetInMessage runtime message)
  else none

def isSuccess (failed : Bool) (statusCode : Int) : Bool :=
  !failed && 200 ≤ statusCode && statusCode < 300

/-- The reset a rejected request names, where it is still to come. -/
def resetOf (runtime : Sql.Runtime) (event : NewUsageEvent) (now : Timestamp) : Option Timestamp :=
  if event.failed ∧ event.statusCode = 429 then do
    let body ← event.errorMessage
    let error ← (runtime.parseJson body).bind readBody
    (error.reset runtime).filter fun reset => decide (now < reset)
  else none

/-- Whether a success of the account is stored that happened after the event. -/
def hasNewerSuccess (accountId : AccountId) (occurredAt : Timestamp) (tables : Tables) : Bool :=
  tables.events.any fun event =>
    event.accountId = accountId && occurredAt < event.occurredAt &&
      isSuccess event.failed event.statusCode

/-- The evidence a rejected request leaves. -/
def marker (accountId : AccountId) (reset occurredAt : Timestamp) : QuotaWindow where
  accountId := accountId
  windowKey := responseKey
  label := "Subscription quota"
  usedFraction := some .one
  usedValue := none
  limitValue := none
  unit := none
  windowSeconds := none
  resetsAt := some reset
  observedAt := occurredAt
  scope := "unmetered"
  startsOnUse := false

/-- `INSERT INTO quota_window … ON CONFLICT (account_id, window_key) DO UPDATE SET … WHERE …`. -/
def upsertMarker (row : QuotaWindow) (tables : Tables) : Option (Unit × Tables) :=
  if tables.windows.any (isWindow row.accountId row.windowKey) then
    some ((), { tables with
      windows := tables.windows.map fun stored =>
        if isWindow row.accountId row.windowKey stored ∧ stored.observedAt ≤ row.observedAt then
          { stored with resetsAt := row.resetsAt, observedAt := row.observedAt }
        else stored })
  else insertWindow row tables

/-- Runs only for newly inserted records, in the same transaction as their quota changes. -/
def observe (runtime : Sql.Runtime) (accountId : AccountId) (event : NewUsageEvent)
    (now : Timestamp) : Write Unit :=
  let reset := resetOf runtime event now
  onlyIf (event.provider = "meta" ∧ (isSuccess event.failed event.statusCode ∨ reset.isSome)) do
    -- Buffered failures must not resurrect exhaustion after a newer success, nor may an older
    -- success clear a newer failure.
    let newer ← fetch (hasNewerSuccess accountId event.occurredAt)
    onlyIf (newer = false) (match reset with
      | some reset => attempt (upsertMarker (marker accountId reset event.occurredAt))
      | none => execute (deleteWindows fun window =>
          isWindow accountId responseKey window && window.observedAt ≤ event.occurredAt))

/-- An exhaustion that has passed its reset; NULL never has. -/
def isExpired (now : Timestamp) (window : QuotaWindow) : Bool :=
  window.windowKey = responseKey && window.resetsAt.any (· ≤ now)

def expireAccount (runtime : Sql.Runtime) (accountId : AccountId) : Write Unit := do
  let snapshot ← quota runtime (.account accountId)
  execute (deleteWindows (isWindow accountId responseKey))
  recordChanges runtime snapshot

/-- Deletes expired evidence with the existing `quota.updated` invalidation. The read before
the transaction only saves it where there is nothing to delete. -/
def expire (runtime : Sql.Runtime) (now : Timestamp) : Write (Ending Unit) := do
  let expired ← fetch fun tables => tables.windows.filter (isExpired now)
  if expired = [] then return .dropped ()
  else
    forM (expired.map QuotaWindow.accountId) (expireAccount runtime)
    commit (.database .query) ()

end MeteredUsage.Store.Response
