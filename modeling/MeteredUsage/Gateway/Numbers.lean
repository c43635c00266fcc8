import MeteredUsage.Store.Response

/-! How the adapters read a provider's fields, whose spelling and type vary: numbers as numbers or
text, instants as text or Unix time. -/

namespace MeteredUsage.Gateway.Numbers
open MeteredUsage.Values MeteredUsage.Store MeteredUsage.Store.Credentials
open MeteredUsage.Store.Response (asI64 asInteger)

/-- 64-bit float arithmetic, and what else the adapters do to floats. -/
structure Floats where
  /-- `Value::as_f64` of a number. -/
  asF64 : String → Option Sql.Float64
  /-- `str::parse`. -/
  parse : String → Option Sql.Float64
  divide : Sql.Float64 → Sql.Float64 → Sql.Float64
  /-- `SignedDuration::try_from_secs_f64`, in nanoseconds. -/
  duration : Sql.Float64 → Option Int

/-- Floats that are read from nothing, for small inputs. -/
def Floats.inert : Floats where
  asF64 := fun _ => none
  parse := fun _ => none
  divide := fun value _ => value
  duration := fun _ => none

/-- `100.0`. -/
def percent : Sql.Float64 := ⟨0x4059000000000000⟩

/-- `1000.0`. -/
def milliseconds : Sql.Float64 := ⟨0x408f400000000000⟩

/-- `1e11`: below it a Unix instant is in seconds, above it in milliseconds. -/
def unixMillisecondsFrom : Sql.Float64 := ⟨0x42374876e8000000⟩

variable (runtime : Sql.Runtime) (floats : Floats)

/-- A finite number, or a string holding one. -/
def number (value : Json) : Option Sql.Float64 :=
  let read := match value with
    | .number text => floats.asF64 text
    | .string text => floats.parse (Sql.strTrim text)
    | _ => none
  read.filter Sql.Float64.isFinite

def offset (start : Timestamp) (seconds : Sql.Float64) : Option Timestamp :=
  ((floats.duration seconds).map (start + ·)).filter runtime.isTimestamp

/-- An RFC 3339 instant, or Unix time in seconds or milliseconds. -/
def instant (value : Json) : Option Timestamp :=
  match (asText value).bind fun text => runtime.parseTimestamp (Sql.strTrim text) with
  | some parsed => some parsed
  | none => do
    let unix ← (number floats value).filter fun unix => Sql.Float64.zero.lt unix
    let seconds := if unix.lt unixMillisecondsFrom then unix else floats.divide unix milliseconds
    offset runtime floats 0 seconds

/-- An instant given as seconds from `now`. -/
def afterSeconds (value : Json) (now : Timestamp) : Option Timestamp := do
  let seconds ← (number floats value).filter fun seconds => Sql.Float64.zero.lt seconds
  offset runtime floats now seconds

/-- A whole number, or a string holding one. -/
def integer : Json → Option Int
  | .number text => asInteger (.number text)
  | .string text => asI64 (Sql.strTrim text).toList ['+']
  | _ => none

def usedFromPercent (used : Sql.Float64) : Sql.Float64 := (floats.divide used percent).clamp .zero .one

/-- The runs of ASCII letters and digits. -/
def words : List Char → List (List Char)
  | [] => [[]]
  | letter :: rest =>
    if letter.isAlphanum then
      match words rest with
      | [] => [[letter]]
      | word :: others => (letter :: word) :: others
    else [] :: words rest

/-- A label reduced to lowercase words joined by dashes. -/
def slug (text : String) : String :=
  String.intercalate "-" (((words (runtime.toLowercase (Sql.strTrim text)).toList).filter
    (· ≠ [])).map String.ofList)

end MeteredUsage.Gateway.Numbers
