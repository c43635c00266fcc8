import Mathlib.Data.List.Basic
import Mathlib.Data.String.Basic
import MeteredUsage.Values
import MeteredUsage.Json

/-! Values as SQLite and the standard library treat them: 64-bit floating point numbers by
their bits, SQLite's text functions, and the functions of the runtime that no statement
here depends on the inside of. -/

namespace MeteredUsage.Store.Sql
open MeteredUsage.Values

/-- A 64-bit float, by its bits. -/
structure Float64 where
  bits : BitVec 64
deriving DecidableEq, Repr

namespace Float64

def zero : Float64 := ⟨0x0000000000000000⟩
def one : Float64 := ⟨0x3ff0000000000000⟩
def negativeZero : Float64 := ⟨0x8000000000000000⟩

def isSignNegative (value : Float64) : Bool := value.bits.msb

/-- The bits without the sign, which order the magnitudes of numbers. -/
def magnitude (value : Float64) : Nat := (value.bits &&& 0x7fffffffffffffff).toNat

def isFinite (value : Float64) : Bool := value.magnitude < 0x7ff0000000000000
def isNan (value : Float64) : Bool := 0x7ff0000000000000 < value.magnitude

/-- The place of a number in the order of numbers; both zeros are at 0. -/
def place (value : Float64) : Int :=
  if value.isSignNegative then -value.magnitude else value.magnitude

/-- The comparison `<`, which a NaN is never part of. -/
def lt (first second : Float64) : Bool :=
  !first.isNan && !second.isNan && first.place < second.place

/-- The comparison `==`, in which both zeros are one number and a NaN is none. -/
def eq (first second : Float64) : Bool :=
  !first.isNan && !second.isNan && first.place = second.place

/-- `f64::clamp`, which leaves a NaN as it is. -/
def clamp (value low high : Float64) : Float64 :=
  if value.lt low then low else if high.lt value then high else value

/-- What a REAL column reads back. A whole number is stored as an integer, which keeps no sign
of zero. -/
def column (value : Float64) : Float64 := if value = negativeZero then zero else value

end Float64

/-- `LOWER`, which folds ASCII letters only. -/
def lower (text : String) : String := String.ofList (text.toList.map Char.toLower)

/-- Drops the leading and trailing characters a predicate names. -/
def trimBy (drops : Char → Bool) (text : String) : String :=
  String.ofList (((text.toList.dropWhile drops).reverse.dropWhile drops).reverse)

/-- `TRIM` with one argument, which removes spaces only. -/
def trim (text : String) : String := trimBy (· = ' ') text

/-- `LENGTH`: the characters before the first NUL. -/
def length (text : String) : Nat := (text.toList.takeWhile (· ≠ Char.ofNat 0)).length

/-- `INSTR` of one character: its place from 1, or 0. -/
def instr (text : String) (character : Char) : Nat :=
  if character ∈ text.toList then text.toList.idxOf character + 1 else 0

/-- Unicode's `White_Space`, which `str::trim` removes. -/
def isWhitespace (character : Char) : Bool :=
  let code := character.toNat
  (9 ≤ code && code ≤ 13) || code = 32 || code = 0x85 || code = 0xa0 || code = 0x1680 ||
    (0x2000 ≤ code && code ≤ 0x200a) || code = 0x2028 || code = 0x2029 || code = 0x202f ||
    code = 0x205f || code = 0x3000

def strTrim (text : String) : String := trimBy isWhitespace text

/-- The order in which the rows of a statement are visited or come. -/
structure Order (Row : Type) where
  arrange : List Row → List Row
  perm : ∀ rows, (arrange rows).Perm rows

/-- The order the rows are listed in. -/
def Order.listed (Row : Type) : Order Row := ⟨id, fun _ => .rfl⟩

/-- Functions of the standard library and of the crates the service links. -/
structure Runtime where
  /-- Unicode's lowercase mapping. -/
  toLowercase : String → String
  /-- A REAL as SQLite's JSON functions write it, to fifteen digits. -/
  jsonReal : Float64 → String
  /-- `serde_json::from_str`. -/
  parseJson : String → Option Json
  /-- An instant read from text as RFC 3339. -/
  parseTimestamp : String → Option Timestamp
  /-- An instant as RFC 3339 with nine fractional digits. -/
  printTimestamp : Timestamp → String
  /-- Instants that can be represented: `Timestamp::from_second` and the sums refuse others. -/
  isTimestamp : Timestamp → Bool
  /-- Lowercase hex blake3. -/
  blake3 : List UInt8 → String
  /-- The cost of token counts at rates per million tokens, as SQLite's floating point sums
  it. -/
  listCost : List (Int × Float64) → Float64

/-- A runtime that reads and prints nothing, for small inputs. -/
def Runtime.inert : Runtime where
  toLowercase := id
  jsonReal := fun _ => ""
  parseJson := fun _ => none
  parseTimestamp := fun _ => none
  printTimestamp := fun _ => ""
  isTimestamp := fun _ => true
  blake3 := fun _ => ""
  listCost := fun _ => .zero

end MeteredUsage.Store.Sql
