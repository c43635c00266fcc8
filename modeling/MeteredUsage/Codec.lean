import Mathlib.Data.String.Basic
import MeteredUsage.Library.Calendar
import MeteredUsage.Values

/-! How an instant is written as text. A column holds nine fractional digits always, so its order
as text is its order in time, but for two years before the year 0, which sort backwards;
`Timestamp::to_string` writes as few as the instant needs, and two instants of one second may then
sort the wrong way round. -/

namespace MeteredUsage.Codec
open MeteredUsage.Values MeteredUsage.Library.FixedWidth MeteredUsage.Library.Calendar

def secondOf (instant : Timestamp) : Int := instant / 1000000000
def nanosOf (instant : Timestamp) : Nat := (instant % 1000000000).toNat

/-- `StoredTimestamp`: nine fractional digits and a `Z`, always. -/
def stored (instant : Timestamp) : String :=
  String.ofList (dateTime (secondOf instant) ++ ['.'] ++ padded 9 (nanosOf instant) ++ ['Z'])

/-- The fractional digits an instant needs, none for a whole second. -/
def fraction (nanos : Nat) : List Char :=
  if nanos = 0 then [] else '.' :: shortened '0' (padded 9 nanos)

/-- `Timestamp::to_string`. -/
def display (instant : Timestamp) : String :=
  String.ofList (dateTime (secondOf instant) ++ (fraction (nanosOf instant) ++ ['Z']))

def yearOfInstant (instant : Timestamp) : Int := yearAt (secondOf instant)

theorem nanosOf_lt (instant : Timestamp) : nanosOf instant < 10 ^ 9 := by
  unfold nanosOf
  omega

/-- An instant is later in its second or in a later second. -/
theorem instant_lt_iff (first second : Int) : first < second ↔ secondOf first < secondOf second ∨
    secondOf first = secondOf second ∧ nanosOf first < nanosOf second := by
  unfold secondOf nanosOf
  omega

/-- The years 0 to 9999. -/
def Printable (instant : Timestamp) : Prop := FourDigits (secondOf instant)

/-- The order of stored instants as text is their order in time. -/
theorem stored_lt_iff {first second : Timestamp} (left : Printable first) (right : Printable second) :
    stored first < stored second ↔ first < second := by
  have nanos := sorts_padded 9 (fun instant : { instant : Timestamp // Printable instant } =>
    nanosOf instant.val) fun instant => nanosOf_lt instant.val
  let whole (instant : { instant : Timestamp // Printable instant }) :
      { second : Int // FourDigits second } := ⟨secondOf instant.val, instant.property⟩
  have dates : Sorts (fun instant => dateTime (whole instant).val) _ fun instant => (whole instant).val :=
    ⟨fun instant => sorts_dateTime.length (whole instant), fun first second =>
      sorts_dateTime.lt_iff (whole first) (whole second)⟩
  have digits : Sorts (fun instant : { instant : Timestamp // Printable instant } =>
      dateTime (secondOf instant.val) ++ ['.'] ++ padded 9 (nanosOf instant.val))
      (4 + 1 + (5 + 1 + (2 + 1 + 2 + 1 + 2)) + 1 + 9)
      fun instant => instant.val := by
    refine (dates.literal ['.']).append _ _ nanos.length
      (fun first second _ => nanos.lt_iff first second) ?_
    intro first second
    rw [Nat.cast_lt]
    exact instant_lt_iff first.val second.val
  rw [String.lt_iff_toList_lt]
  unfold stored
  rw [String.toList_ofList, String.toList_ofList]
  exact (digits.literal ['Z']).lt_iff ⟨first, left⟩ ⟨second, right⟩

theorem stored_le_iff {first second : Timestamp} (left : Printable first) (right : Printable second) :
    stored first ≤ stored second ↔ first ≤ second := by
  rw [← not_lt, ← not_lt, stored_lt_iff right left]

theorem mem_padded {width number : Nat} {symbol : Char} (member : symbol ∈ padded width number) :
    '0' ≤ symbol ∧ symbol < 'Z' := by
  have digits : ∀ digit < 10, '0' ≤ Nat.digitChar digit ∧ Nat.digitChar digit < 'Z' := by decide
  induction width generalizing number with
  | zero => cases member
  | succ width ih =>
    rcases List.mem_append.mp member with earlier | last
    · exact ih earlier
    · rw [List.mem_singleton.mp last]
      exact digits _ (Nat.mod_lt number (by decide))

/-- Fractions neither of which starts the other sort as numbers. -/
theorem fraction_lt_iff {first second : Nat} (left : first < 10 ^ 9) (right : second < 10 ^ 9)
    (apart : ¬fraction first <+: fraction second) (other : ¬fraction second <+: fraction first) :
    fraction first ++ ['Z'] < fraction second ++ ['Z'] ↔ first < second := by
  unfold fraction at apart other ⊢
  split at apart
  next => exact absurd List.nil_prefix apart
  next firstSome =>
    split at other
    next => exact absurd List.nil_prefix other
    next secondSome =>
      rw [if_neg firstSome, if_neg secondSome]
      rw [if_neg secondSome, List.cons_prefix_cons] at apart
      rw [List.cons_prefix_cons] at other
      have digits := shortened_lt_iff (fun starts => apart ⟨rfl, starts⟩)
        (fun starts => other ⟨rfl, starts⟩) ['Z'] ['Z']
      rw [List.cons_append, List.cons_append, List.cons_lt_cons_iff, digits, padded_lt_iff left right]
      simp

/-- A fraction that starts another belongs to the earlier instant, and its text sorts after. -/
theorem fraction_lt_of_prefix {first second : Nat} (left : first < 10 ^ 9) (right : second < 10 ^ 9)
    (starts : fraction first <+: fraction second) (apart : fraction first ≠ fraction second) :
    first < second ∧ fraction second ++ ['Z'] < fraction first ++ ['Z'] := by
  unfold fraction at starts apart ⊢
  by_cases firstNone : first = 0
  · by_cases secondNone : second = 0
    · rw [firstNone, secondNone] at apart
      exact absurd rfl apart
    · rw [if_pos firstNone, if_neg secondNone]
      refine ⟨by omega, List.cons_lt_cons_iff.mpr (.inl (by decide))⟩
  · rw [if_neg firstNone] at starts apart ⊢
    by_cases secondNone : second = 0
    · rw [if_pos secondNone] at starts
      exact absurd (List.prefix_nil.mp starts) (List.cons_ne_nil _ _)
    · rw [if_neg secondNone] at starts apart ⊢
      have widths := (length_padded 9 first).trans (length_padded 9 second).symm
      have different : shortened '0' (padded 9 first) ≠ shortened '0' (padded 9 second) :=
        fun same => apart (congrArg ('.' :: ·) same)
      obtain ⟨before, after⟩ := lt_of_shortened_prefix widths
        (fun _ member => (mem_padded member).1) (fun _ member => (mem_padded member).2)
        (List.cons_prefix_cons.mp starts).2 different
      refine ⟨(padded_lt_iff left right).mp before, ?_⟩
      rw [List.cons_append, List.cons_append, List.cons_lt_cons_iff]
      exact .inr ⟨rfl, after⟩

/-- The years of an instant `Timestamp` can hold. -/
def Representable (instant : Timestamp) : Prop :=
  -10000 < yearOfInstant instant ∧ yearOfInstant instant < 10000

/-- Two instants whose texts are the wrong way round: of two years before the year 0, or of one
second of which one's fraction starts the other's. -/
def Crossed (first second : Timestamp) : Prop :=
  (yearOfInstant first < 0 ∧ yearOfInstant second < 0 ∧
    yearOfInstant first ≠ yearOfInstant second) ∨
  (secondOf first = secondOf second ∧ fraction (nanosOf first) ≠ fraction (nanosOf second) ∧
    (fraction (nanosOf first) <+: fraction (nanosOf second) ∨
      fraction (nanosOf second) <+: fraction (nanosOf first)))

theorem Crossed.symm {first second : Timestamp} (crossed : Crossed first second) :
    Crossed second first := by
  rcases crossed with ⟨firstSign, secondSign, years⟩ | ⟨same, fractions, starts⟩
  · exact .inl ⟨secondSign, firstSign, Ne.symm years⟩
  · exact .inr ⟨same.symm, Ne.symm fractions, starts.symm⟩

/-- The text of an instant after its year. -/
def tail (instant : Timestamp) : List Char :=
  ['-'] ++ (withinYear (secondOf instant) ++ (fraction (nanosOf instant) ++ ['Z']))

theorem display_lt (first second : Timestamp) : display first < display second ↔
    yearText (yearOfInstant first) ++ tail first < yearText (yearOfInstant second) ++ tail second := by
  have whole (instant : Timestamp) : dateTime (secondOf instant) ++
      (fraction (nanosOf instant) ++ ['Z']) = yearText (yearOfInstant instant) ++ tail instant := by
    unfold dateTime tail yearOfInstant
    simp only [List.append_assoc]
  rw [String.lt_iff_toList_lt]
  unfold display
  rw [String.toList_ofList, String.toList_ofList, whole, whole]

theorem yearText_of_nonneg {year : Int} (nonneg : 0 ≤ year) (rest : List Char) :
    ∃ digit < 10, ∃ more, yearText year ++ rest = Nat.digitChar digit :: more := by
  refine ⟨year.toNat / 10 / 10 / 10 % 10, Nat.mod_lt _ (by decide),
    (padded 4 year.toNat).tail ++ rest, ?_⟩
  rw [yearText, if_pos nonneg]
  rfl

theorem sign_lt_digit {digit : Nat} (below : digit < 10) : '-' < Nat.digitChar digit := by
  have digits : ∀ digit < 10, '-' < Nat.digitChar digit := by decide
  exact digits digit below

/-- Years sort by time but for those before the year 0, which sort in reverse. -/
theorem year_lt_iff {first second : Int} (firstLow : -10000 < first) (firstHigh : first < 10000)
    (secondLow : -10000 < second) (secondHigh : second < 10000) (apart : first ≠ second)
    (rest other : List Char) : yearText first ++ rest < yearText second ++ other ↔
      if first < 0 ∧ second < 0 then second < first else first < second := by
  rcases lt_or_ge first 0 with firstSign | firstSign
  · rcases lt_or_ge second 0 with secondSign | secondSign
    · have widths := (length_padded 6 (-first).toNat).trans (length_padded 6 (-second).toNat).symm
      have numbers : (-first).toNat ≠ (-second).toNat := by omega
      have order : padded 6 (-first).toNat < padded 6 (-second).toNat ↔
          (-first).toNat < (-second).toNat := padded_lt_iff (by omega) (by omega)
      have texts : padded 6 (-first).toNat ≠ padded 6 (-second).toNat :=
        (padded_inj (by omega) (by omega)).not.mpr numbers
      rw [if_pos ⟨firstSign, secondSign⟩, yearText, yearText, if_neg firstSign.not_ge,
        if_neg secondSign.not_ge, List.cons_append, List.cons_append, List.cons_lt_cons_iff,
        append_lt_append_iff widths, order]
      simp only [lt_irrefl, false_or, true_and, texts, false_and, or_false]
      omega
    · obtain ⟨digit, below, more, text⟩ := yearText_of_nonneg secondSign other
      rw [if_neg (fun both => absurd both.2 secondSign.not_gt), text, yearText,
        if_neg firstSign.not_ge, List.cons_append, List.cons_lt_cons_iff]
      exact iff_of_true (.inl (sign_lt_digit below)) (firstSign.trans_le secondSign)
  · rw [if_neg (fun both => absurd both.1 firstSign.not_gt)]
    rcases lt_or_ge second 0 with secondSign | secondSign
    · obtain ⟨digit, below, more, text⟩ := yearText_of_nonneg firstSign rest
      rw [text, yearText, if_neg secondSign.not_ge, List.cons_append, List.cons_lt_cons_iff]
      have sign := sign_lt_digit below
      refine iff_of_false ?_ (secondSign.trans_le firstSign).not_gt
      rintro (before | ⟨same, _⟩)
      · exact lt_asymm sign before
      · exact sign.ne same.symm
    · have widths := (length_padded 4 first.toNat).trans (length_padded 4 second.toNat).symm
      have order : padded 4 first.toNat < padded 4 second.toNat ↔ first.toNat < second.toNat :=
        padded_lt_iff (by omega) (by omega)
      have numbers : first.toNat ≠ second.toNat := by omega
      have texts : padded 4 first.toNat ≠ padded 4 second.toNat :=
        (padded_inj (by omega) (by omega)).not.mpr numbers
      rw [yearText, yearText, if_pos firstSign, if_pos secondSign, append_lt_append_iff widths, order]
      simp only [texts, false_and, or_false]
      omega

theorem fraction_inj {first second : Nat} (left : first < 10 ^ 9) (right : second < 10 ^ 9)
    (same : fraction first = fraction second) : first = second := by
  unfold fraction at same
  by_cases firstNone : first = 0
  · by_cases secondNone : second = 0
    · rw [firstNone, secondNone]
    · rw [if_pos firstNone, if_neg secondNone] at same
      cases same
  · by_cases secondNone : second = 0
    · rw [if_neg firstNone, if_pos secondNone] at same
      cases same
    · rw [if_neg firstNone, if_neg secondNone] at same
      have widths := (length_padded 9 first).trans (length_padded 9 second).symm
      exact (padded_inj left right).mp (shortened_inj widths (List.cons.inj same).2)

/-- In one second, the order of the texts is that of the fractions. -/
theorem tail_lt_of_same {first second : Int} (same : secondOf first = secondOf second) :
    tail first < tail second ↔
      fraction (nanosOf first) ++ ['Z'] < fraction (nanosOf second) ++ ['Z'] := by
  unfold tail
  rw [same, append_lt_append_iff rfl, append_lt_append_iff rfl]
  simp only [lt_irrefl, false_or, true_and]

/-- In one year, the texts of two seconds sort by time. -/
theorem tail_lt_of_apart {first second : Int} (year : yearOfInstant first = yearOfInstant second)
    (apart : secondOf first ≠ secondOf second) : tail first < tail second ↔ first < second := by
  have widths := (length_withinYear (secondOf first)).trans (length_withinYear (secondOf second)).symm
  have forward := second_lt_iff (secondOf first) (secondOf second)
  have backward := second_lt_iff (secondOf second) (secondOf first)
  have order := withinYear_lt_iff year
  have reverse := withinYear_lt_iff year.symm
  have years : yearAt (secondOf first) = yearAt (secondOf second) := year
  have texts : withinYear (secondOf first) ≠ withinYear (secondOf second) := by
    intro same
    have left := mt order.mpr (same ▸ lt_irrefl _)
    have right := mt reverse.mpr (same ▸ lt_irrefl _)
    omega
  unfold tail
  rw [append_lt_append_iff rfl, append_lt_append_iff widths, order, instant_lt_iff first second]
  simp only [lt_irrefl, false_or, true_and, texts, apart, false_and, or_false]
  omega

/-- The text of an instant sorts by time, or the other way round where the two are crossed. -/
theorem display_lt_iff {first second : Int} (left : Representable first)
    (right : Representable second) (apart : first ≠ second) :
    (¬Crossed first second → (display first < display second ↔ first < second)) ∧
      (Crossed first second → (display first < display second ↔ second < first)) := by
  rw [display_lt]
  by_cases year : yearOfInstant first = yearOfInstant second
  · rw [year, append_lt_append_iff rfl]
    simp only [lt_irrefl, false_or, true_and]
    by_cases same : secondOf first = secondOf second
    · have nanos : nanosOf first ≠ nanosOf second := by
        have forward := instant_lt_iff first second
        have backward := instant_lt_iff second first
        omega
      have different : fraction (nanosOf first) ≠ fraction (nanosOf second) := fun equal =>
        nanos (fraction_inj (nanosOf_lt first) (nanosOf_lt second) equal)
      have forward := instant_lt_iff first second
      have backward := instant_lt_iff second first
      rw [tail_lt_of_same same]
      constructor
      · intro straight
        have free : ¬(fraction (nanosOf first) <+: fraction (nanosOf second) ∨
            fraction (nanosOf second) <+: fraction (nanosOf first)) := fun starts =>
          straight (.inr ⟨same, different, starts⟩)
        rw [fraction_lt_iff (nanosOf_lt first) (nanosOf_lt second) (fun starts => free (.inl starts))
          fun starts => free (.inr starts)]
        omega
      · rintro (⟨_, _, years⟩ | ⟨_, _, starts | starts⟩)
        · exact absurd year years
        · obtain ⟨before, after⟩ := fraction_lt_of_prefix (nanosOf_lt first) (nanosOf_lt second)
            starts different
          exact iff_of_false after.not_gt (by omega)
        · obtain ⟨before, after⟩ := fraction_lt_of_prefix (nanosOf_lt second) (nanosOf_lt first)
            starts different.symm
          exact iff_of_true after (by omega)
    · rw [tail_lt_of_apart year same]
      refine ⟨fun _ => Iff.rfl, ?_⟩
      rintro (⟨_, _, years⟩ | ⟨seconds, _⟩)
      · exact absurd year years
      · exact absurd seconds same
  · have order := second_lt_iff (secondOf first) (secondOf second)
    have reverse := second_lt_iff (secondOf second) (secondOf first)
    have instants := instant_lt_iff first second
    have backwards := instant_lt_iff second first
    have years : yearAt (secondOf first) ≠ yearAt (secondOf second) := year
    rw [year_lt_iff left.1 left.2 right.1 right.2 year]
    unfold Crossed yearOfInstant
    split
    next signs => exact ⟨fun straight => absurd (.inl ⟨signs.1, signs.2, years⟩) straight,
      fun _ => by omega⟩
    next signs =>
      refine ⟨fun _ => by omega, ?_⟩
      rintro (⟨leftSign, rightSign, _⟩ | ⟨seconds, _⟩)
      · exact absurd ⟨leftSign, rightSign⟩ signs
      · exact absurd (congrArg yearAt seconds) years

/-- Instants compare as their texts do exactly where they are not crossed. -/
theorem display_le_iff {first second : Int} (left : Representable first)
    (right : Representable second) :
    (display first ≤ display second ↔ first ≤ second) ↔ ¬Crossed first second := by
  by_cases apart : first = second
  · subst apart
    have straight : ¬Crossed first first := by
      rintro (⟨_, _, years⟩ | ⟨_, fractions, _⟩)
      · exact years rfl
      · exact fractions rfl
    exact iff_of_true (iff_of_true le_rfl le_rfl) straight
  · obtain ⟨straight, crossed⟩ := display_lt_iff right left (Ne.symm apart)
    rw [← not_lt, ← not_lt]
    constructor
    · intro agree cross
      have reversed := crossed cross.symm
      rcases lt_or_gt_of_ne apart with before | after
      · exact agree.mpr before.not_gt (reversed.mpr before)
      · exact agree.mp (fun text => after.not_gt (reversed.mp text)) after
    · intro free
      rw [straight fun cross => free cross.symm]

/-- What a stored instant is written as after its year, before the fraction. -/
theorem toList_stored (instant : Timestamp) : (stored instant).toList =
    yearText (yearOfInstant instant) ++ ('-' :: (withinYear (secondOf instant) ++
      ('.' :: (padded 9 (nanosOf instant) ++ ['Z'])))) := by
  unfold stored dateTime yearOfInstant
  rw [String.toList_ofList]
  simp only [List.append_assoc, List.cons_append, List.nil_append]

theorem yearAt_of_stored {first second : Timestamp} (left : Representable first)
    (right : Representable second) (same : stored first = stored second) :
    yearOfInstant first = yearOfInstant second := by
  by_contra apart
  have texts := congrArg String.toList same
  rw [toList_stored, toList_stored] at texts
  have forward := year_lt_iff left.1 left.2 right.1 right.2 apart
  have backward := year_lt_iff right.1 right.2 left.1 left.2 (Ne.symm apart)
  have before := (forward _ _).not.mp texts.not_lt
  have after := (backward _ _).not.mp texts.symm.not_lt
  split at before <;> split at after <;> omega

theorem secondOf_of_withinYear {first second : Int} (year : yearAt first = yearAt second)
    (same : withinYear first = withinYear second) : first = second := by
  have forward := mt (withinYear_lt_iff year).mpr (same ▸ lt_irrefl _)
  have backward := mt (withinYear_lt_iff year.symm).mpr (same ▸ lt_irrefl _)
  have before := second_lt_iff first second
  have after := second_lt_iff second first
  omega

/-- Instants are told apart by what they are stored as. -/
theorem stored_injective {first second : Int} (left : Representable first)
    (right : Representable second) (same : stored first = stored second) : first = second := by
  have year := yearAt_of_stored left right same
  have texts := congrArg String.toList same
  have widths := (length_withinYear (secondOf first)).trans (length_withinYear (secondOf second)).symm
  have lengths := (length_padded 9 (nanosOf first)).trans (length_padded 9 (nanosOf second)).symm
  rw [toList_stored, toList_stored, year, List.append_cancel_left_eq, List.cons.injEq] at texts
  obtain ⟨places, rest⟩ := List.append_inj texts.2 widths
  obtain ⟨fractions, _⟩ := List.append_inj (List.cons.inj rest).2 lengths
  have seconds := secondOf_of_withinYear year places
  have nanos := (padded_inj (nanosOf_lt first) (nanosOf_lt second)).mp fractions
  have before := instant_lt_iff first second
  have after := instant_lt_iff second first
  omega

theorem length_stored_le (instant : Timestamp) : (stored instant).toList.length ≤ 35 := by
  have year : (yearText (yearOfInstant instant)).length ≤ 7 := by
    unfold yearText
    split
    next => rw [length_padded]; omega
    next => rw [List.length_cons, length_padded]
  simp only [toList_stored, List.length_append, List.length_cons, length_withinYear, length_padded,
    List.length_nil]
  omega

end MeteredUsage.Codec
