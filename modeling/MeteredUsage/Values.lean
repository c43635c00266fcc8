import Mathlib.Algebra.Order.Ring.Int
import Mathlib.Data.List.Basic

/-! The scalar types every module shares: instants, ids and the errors a statement can
answer with. -/

namespace MeteredUsage.Values

/-- Nanoseconds since the Unix epoch. A stored instant is written with nine fractional
digits, always, so from the year 0 on its order as text is its order in time, and the model
compares it as time. Of two earlier years the later one's text sorts first. -/
abbrev Timestamp := Int

def seconds (count : Int) : Int := count * 1000000000
def minutes (count : Int) : Int := seconds (count * 60)
def hours (count : Int) : Int := minutes (count * 60)

/-- The instants `Timestamp` holds, of the years -9999 to 9999 in every time zone. -/
def firstInstant : Int := -377705023201000000000
def lastInstant : Int := 253402207200999999999

/-- The numbers an `i64` holds. -/
def Fits (value : Int) : Prop := -2 ^ 63 ≤ value ∧ value < 2 ^ 63

instance (value : Int) : Decidable (Fits value) := inferInstanceAs (Decidable (_ ∧ _))

abbrev SourceId := Nat
abbrev AccountId := Nat
abbrev PlanId := Nat
abbrev EventId := Nat
abbrev PriceId := Nat
abbrev DeadLetterId := Nat

def alphabet : List Char := "0123456789ABCDEFGHIJKLMNOPQRSTUVWXYZabcdefghijklmnopqrstuvwxyz".toList

/-- The base-62 digits of a value, the last one first. -/
def digits : Nat → Nat → List Char
  | 0, _ => []
  | width + 1, value => alphabet.getD (value % 62) '0' :: digits width (value / 62)

/-- `Id::encode`: eleven base-62 digits. -/
def encode (id : Nat) : String := String.ofList (digits 11 id).reverse

inductive DatabaseError where
  /-- A statement or the commit failed: a constraint, a full disk, a lost connection. -/
  | query
  | unreadable (field : String)
deriving DecidableEq, Repr

end MeteredUsage.Values
