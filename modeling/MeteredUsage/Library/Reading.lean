import MeteredUsage.Library.Months

/-! Reading a date and time back from its text: fields of a fixed width, with a mark between two. -/

namespace MeteredUsage.Library.Reading
open MeteredUsage.Library.FixedWidth MeteredUsage.Library.Calendar MeteredUsage.Library.Months

/-- The number some decimal digits are. -/
def readDigits (text : List Char) : Option Nat :=
  if text.all Char.isDigit then some (text.foldl (fun number digit => 10 * number + (digit.toNat - 48)) 0)
  else none

theorem digitChar_reads : ∀ digit < 10, (Nat.digitChar digit).isDigit = true ∧
    (Nat.digitChar digit).toNat - 48 = digit := by decide

theorem readDigits_padded {width number : Nat} (bounded : number < 10 ^ width) :
    readDigits (padded width number) = some number := by
  have digits (width number : Nat) : (padded width number).all Char.isDigit = true := by
    induction width generalizing number with
    | zero => rfl
    | succ width ih =>
      rw [padded, List.all_append, ih, List.all_cons, List.all_nil,
        (digitChar_reads (number % 10) (Nat.mod_lt _ (by decide))).1]
      rfl
  have value : (padded width number).foldl (fun number digit => 10 * number + (digit.toNat - 48)) 0 =
      number := by
    induction width generalizing number with
    | zero =>
      have least : number = 0 := by omega
      rw [least]
      rfl
    | succ width ih =>
      have fits : number / 10 < 10 ^ width := by
        rw [Nat.div_lt_iff_lt_mul (by decide), ← Nat.pow_succ]
        exact bounded
      rw [padded, List.foldl_append, ih fits, List.foldl_cons, List.foldl_nil,
        (digitChar_reads (number % 10) (Nat.mod_lt _ (by decide))).2]
      omega
  rw [readDigits, if_pos (digits width number), value]

/-- A field of a width, and the rest of the text. -/
def readField (width : Nat) (text : List Char) : Option (Nat × List Char) :=
  (readDigits (text.take width)).map fun number => (number, text.drop width)

theorem readField_padded {width number : Nat} (bounded : number < 10 ^ width) (rest : List Char) :
    readField width (padded width number ++ rest) = some (number, rest) := by
  unfold readField
  rw [List.take_left' (length_padded width number), List.drop_left' (length_padded width number),
    readDigits_padded bounded]
  rfl

/-- The rest of a text after a mark. -/
def readMark (mark : Char) : List Char → Option (List Char)
  | [] => none
  | first :: rest => if first = mark then some rest else none

@[simp] theorem readMark_cons (mark : Char) (rest : List Char) :
    readMark mark (mark :: rest) = some rest := if_pos rfl

/-- The second a text of the form `YYYY-MM-DDTHH:MM:SS` is of. -/
def readDateTime (text : List Char) : Option Int := do
  let (year, text) ← readField 4 text
  let text ← readMark '-' text
  let (month, text) ← readField 2 text
  let text ← readMark '-' text
  let (day, text) ← readField 2 text
  let text ← readMark 'T' text
  let (hour, text) ← readField 2 text
  let text ← readMark ':' text
  let (minute, text) ← readField 2 text
  let text ← readMark ':' text
  let (second, text) ← readField 2 text
  if text = [] ∧ 1 ≤ month ∧ month ≤ 12 ∧ 1 ≤ day ∧ day ≤ 31 ∧ hour ≤ 24 ∧ minute ≤ 59 ∧ second ≤ 59 then
    some (civilDay year month day * daySeconds + (hour * 3600 + minute * 60 + second : Nat))
  else none

theorem readDateTime_dateTime {second : Int} (printable : FourDigits second) :
    readDateTime (dateTime second) = some second := by
  have year : (yearAt second).toNat < 10 ^ 4 := by
    have below := printable.2
    omega
  have ⟨month, day⟩ := month_bounds (isLeap (yearAt second)) (ordinalAt second)
    (ordinalOf_lt_yearLength _)
  have upper := monthOf_le (isLeap (yearAt second)) (ordinalAt second)
  have time := timeAt_lt second
  have date := civilDay_date (second / daySeconds)
  change civilDay (yearAt second) (monthOf (isLeap (yearAt second)) (ordinalAt second))
    (dayOf (isLeap (yearAt second)) (ordinalAt second)) = _ at date
  unfold dateTime yearText withinYear monthDay timeOfDay readDateTime
  rw [if_pos printable.1]
  simp only [List.append_assoc, List.cons_append, List.nil_append]
  rw [readField_padded year]
  simp only [Option.bind_eq_bind, Option.bind_some, readMark_cons]
  rw [readField_padded (show monthOf _ _ < 10 ^ 2 by omega)]
  simp only [Option.bind_some, readMark_cons]
  rw [readField_padded (show dayOf _ _ < 10 ^ 2 by omega)]
  simp only [Option.bind_some, readMark_cons]
  rw [readField_padded (show timeAt second / 3600 < 10 ^ 2 by omega)]
  simp only [Option.bind_some, readMark_cons]
  rw [readField_padded (show timeAt second / 60 % 60 < 10 ^ 2 by omega)]
  simp only [Option.bind_some, readMark_cons]
  have last := readField_padded (show timeAt second % 60 < 10 ^ 2 by omega) []
  rw [List.append_nil] at last
  rw [last]
  simp only [Option.bind_some]
  have first : 1 ≤ dayOf (isLeap (yearAt second)) (ordinalAt second) := by
    unfold dayOf
    omega
  rw [if_pos ⟨trivial, month, upper, first, day, by omega, by omega, by omega⟩,
    Int.toNat_of_nonneg printable.1, date]
  unfold timeAt daySeconds at *
  congr 1
  omega

end MeteredUsage.Library.Reading
