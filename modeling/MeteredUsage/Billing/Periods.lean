import MeteredUsage.Library.Calendar
import MeteredUsage.Values

/-! The billing periods of a plan. Each is a calendar month from the start's day of month, in UTC,
clamped to the last day of a shorter month, and every start is counted from the first. -/

namespace MeteredUsage.Billing.Periods
open MeteredUsage.Values MeteredUsage.Library.Calendar

def dayNanos : Int := 86400000000000

/-- An instant that `Timestamp` can hold. -/
def isTimestamp (instant : Timestamp) : Bool := decide (firstInstant ≤ instant) && decide (instant ≤ lastInstant)

/-- The most months a span holds. -/
def mostMonths : Nat := 239976

/-- `checked_add` of some months. -/
def monthAfter (anchor : Timestamp) (index : Nat) : Option Timestamp :=
  some (addMonths (anchor / dayNanos) index * dayNanos + anchor % dayNanos) |>.filter isTimestamp

/-- Every billing period from the given on that has started by `now`, oldest first. Nothing where
the loop asks for more months than a span holds, of which some are left, and panics. -/
def periodsFrom (anchor : Timestamp) (periodEnd : Option Timestamp) (now : Timestamp) (left index : Nat) :
    Option (List (Timestamp × Timestamp)) :=
  match monthAfter anchor index with
  | none => some []
  | some start =>
    if now < start || periodEnd.any (fun finish => decide (finish ≤ start)) then some []
    else
      match left with
      | 0 => none
      | left + 1 =>
        match monthAfter anchor (index + 1) with
        | none => some []
        | some next => (periodsFrom anchor periodEnd now left (index + 1)).map fun later =>
          (start, (periodEnd.map (min · next)).getD next) :: later

/-- The loop at a period, with months left and without. To unfold it would evaluate the months of an
unknown start. -/
theorem periodsFrom_succ (anchor : Timestamp) (periodEnd : Option Timestamp) (now : Timestamp) (left index : Nat) :
    periodsFrom anchor periodEnd now (left + 1) index =
      match monthAfter anchor index with
      | none => some []
      | some start =>
        if now < start || periodEnd.any (fun finish => decide (finish ≤ start)) then some []
        else
          match monthAfter anchor (index + 1) with
          | none => some []
          | some next => (periodsFrom anchor periodEnd now left (index + 1)).map fun later =>
            (start, (periodEnd.map (min · next)).getD next) :: later := by
  delta periodsFrom
  rfl

theorem periodsFrom_zero (anchor : Timestamp) (periodEnd : Option Timestamp) (now : Timestamp) (index : Nat) :
    periodsFrom anchor periodEnd now 0 index =
      match monthAfter anchor index with
      | none => some []
      | some start =>
        if now < start || periodEnd.any (fun finish => decide (finish ≤ start)) then some [] else none := by
  delta periodsFrom
  rfl

/-- `Plan::periods`. -/
def periods (periodStart : Timestamp) (periodEnd : Option Timestamp) (now : Timestamp) :
    Option (List (Timestamp × Timestamp)) :=
  periodsFrom periodStart periodEnd now mostMonths 0

end MeteredUsage.Billing.Periods
