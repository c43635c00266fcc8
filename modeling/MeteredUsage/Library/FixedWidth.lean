import Mathlib.Data.Char
import Mathlib.Data.List.DropRight
import Mathlib.Data.List.Lex
import Mathlib.Order.Basic
import Mathlib.Tactic.Ring

/-! Texts of one width and what they sort by. Two such texts compare by their parts, and decimal
numbers printed to one width compare as numbers. -/

namespace MeteredUsage.Library.FixedWidth

variable {Symbol Item : Type*} [LinearOrder Symbol]

theorem append_lt_append_iff {first second : List Symbol} (same : first.length = second.length)
    (rest other : List Symbol) :
    first ++ rest < second ++ other ↔ first < second ∨ first = second ∧ rest < other := by
  induction first generalizing second with
  | nil =>
    obtain rfl := List.length_eq_zero_iff.mp same.symm
    simp
  | cons head tail ih =>
    cases second with
    | nil => cases same
    | cons next later =>
      have lengths : tail.length = later.length := by simpa using same
      simp only [List.cons_append, List.cons_lt_cons_iff, ih lengths, List.cons.injEq]
      tauto

/-- Where neither text starts the other, what follows them does not matter. -/
theorem append_lt_append_of_apart {first second : List Symbol} (left : ¬first <+: second)
    (right : ¬second <+: first) (rest other : List Symbol) :
    first ++ rest < second ++ other ↔ first < second := by
  induction first generalizing second with
  | nil => exact absurd (List.nil_prefix) left
  | cons head tail ih =>
    cases second with
    | nil => exact absurd (List.nil_prefix) right
    | cons next later =>
      rw [List.cons_append, List.cons_append, List.cons_lt_cons_iff, List.cons_lt_cons_iff]
      apply or_congr_right
      apply and_congr_right
      rintro rfl
      apply ih
      · exact mt (fun starts => List.cons_prefix_cons.mpr ⟨rfl, starts⟩) left
      · exact mt (fun starts => List.cons_prefix_cons.mpr ⟨rfl, starts⟩) right

/-- No text sorts before the one of its width with a least symbol throughout. -/
theorem not_lt_replicate {least : Symbol} {text : List Symbol}
    (above : ∀ symbol ∈ text, least ≤ symbol) : ¬text < List.replicate text.length least := by
  induction text with
  | nil => exact lt_irrefl _
  | cons head tail ih =>
    rw [List.length_cons, List.replicate_succ, List.cons_lt_cons_iff]
    rintro (below | ⟨_, later⟩)
    · exact (above head List.mem_cons_self).not_gt below
    · exact ih (fun symbol member => above symbol (List.mem_cons_of_mem _ member)) later

/-- A text of one width for every item, which sorts as a number of the item does. -/
structure Sorts (text : Item → List Symbol) (width : Nat) (key : Item → Int) : Prop where
  length : ∀ item, (text item).length = width
  lt_iff : ∀ first second, text first < text second ↔ key first < key second

variable {text : Item → List Symbol} {width more : Nat} {key whole : Item → Int}

theorem Sorts.eq_iff (sorts : Sorts text width key) (first second : Item) :
    text first = text second ↔ key first = key second := by
  have below := sorts.lt_iff first second
  have above := sorts.lt_iff second first
  constructor
  · intro same
    rw [same] at below above
    have not_below := mt below.mpr (lt_irrefl _)
    have not_above := mt above.mpr (lt_irrefl _)
    omega
  · intro same
    rw [same] at below above
    exact le_antisymm (not_lt.mp (mt above.mp (lt_irrefl _))) (not_lt.mp (mt below.mp (lt_irrefl _)))

/-- A text after another orders the items the first does not tell apart. -/
theorem Sorts.append (sorts : Sorts text width key) (rest : Item → List Symbol) (minor : Item → Int)
    (length : ∀ item, (rest item).length = more)
    (inner : ∀ first second, key first = key second →
      (rest first < rest second ↔ minor first < minor second))
    (order : ∀ first second, whole first < whole second ↔
      key first < key second ∨ key first = key second ∧ minor first < minor second) :
    Sorts (fun item => text item ++ rest item) (width + more) whole where
  length item := by rw [List.length_append, sorts.length, length]
  lt_iff first second := by
    have widths := (sorts.length first).trans (sorts.length second).symm
    rw [append_lt_append_iff widths, sorts.lt_iff, sorts.eq_iff, order]
    exact or_congr_right (and_congr_right (inner first second))

theorem Sorts.literal (sorts : Sorts text width key) (part : List Symbol) :
    Sorts (fun item => text item ++ part) (width + part.length) key := by
  apply sorts.append (fun _ => part) (fun _ => 0) fun _ => rfl
  · intro first second _
    exact iff_of_false (lt_irrefl part) (lt_irrefl 0)
  · intro first second
    omega

/-- The last decimal digits of a number. -/
def padded : Nat → Nat → List Char
  | 0, _ => []
  | width + 1, number => padded width (number / 10) ++ [Nat.digitChar (number % 10)]

theorem length_padded (width number : Nat) : (padded width number).length = width := by
  induction width generalizing number with
  | zero => rfl
  | succ width ih => rw [padded, List.length_append, ih, List.length_singleton]

theorem digit_lt_iff {first second : Nat} (left : first < 10) (right : second < 10) :
    Nat.digitChar first < Nat.digitChar second ↔ first < second := by
  have digits : ∀ first < 10, ∀ second < 10,
      (Nat.digitChar first < Nat.digitChar second ↔ first < second) := by decide
  exact digits first left second right

theorem padded_compare {width first second : Nat} (left : first < 10 ^ width)
    (right : second < 10 ^ width) : (padded width first < padded width second ↔ first < second) ∧
      (padded width first = padded width second ↔ first = second) := by
  induction width generalizing first second with
  | zero =>
    obtain rfl : first = 0 := by omega
    obtain rfl : second = 0 := by omega
    simp [padded]
  | succ width ih =>
    rw [pow_succ] at left right
    obtain ⟨below, same⟩ := @ih (first / 10) (second / 10) (by omega) (by omega)
    have widths := (length_padded width (first / 10)).trans (length_padded width (second / 10)).symm
    have digits := digit_lt_iff (Nat.mod_lt first (by decide)) (Nat.mod_lt second (by decide))
    have reverse := digit_lt_iff (Nat.mod_lt second (by decide)) (Nat.mod_lt first (by decide))
    have single : [Nat.digitChar (first % 10)] < [Nat.digitChar (second % 10)] ↔
        first % 10 < second % 10 := by
      rw [List.cons_lt_cons_iff, digits]
      simp
    have digit : Nat.digitChar (first % 10) = Nat.digitChar (second % 10) ↔
        first % 10 = second % 10 := by
      constructor
      · intro equal
        have left := mt digits.mpr (equal ▸ lt_irrefl _)
        have right := mt reverse.mpr (equal ▸ lt_irrefl _)
        omega
      · exact congrArg Nat.digitChar
    constructor
    · rw [padded, padded, append_lt_append_iff widths, below, same, single]
      omega
    · constructor
      · intro equal
        obtain ⟨heads, last⟩ := List.append_inj equal widths
        have heads := same.mp heads
        have last := digit.mp (List.cons.inj last).1
        omega
      · exact congrArg (padded (width + 1))

theorem padded_lt_iff {width first second : Nat} (left : first < 10 ^ width)
    (right : second < 10 ^ width) : padded width first < padded width second ↔ first < second :=
  (padded_compare left right).1

theorem padded_inj {width first second : Nat} (left : first < 10 ^ width)
    (right : second < 10 ^ width) : padded width first = padded width second ↔ first = second :=
  (padded_compare left right).2

section Shortened

variable {least : Symbol} {first second : List Symbol}

/-- A text without the least symbols it ends in. -/
def shortened (least : Symbol) (text : List Symbol) : List Symbol := text.rdropWhile (· = least)

theorem shortened_append (least : Symbol) (text : List Symbol) :
    ∃ count, text = shortened least text ++ List.replicate count least := by
  have rest : text.rtakeWhile (· = least) =
      List.replicate (text.rtakeWhile (· = least)).length least :=
    List.eq_replicate_length.mpr fun symbol member => by simpa using List.mem_rtakeWhile_imp member
  refine ⟨(text.rtakeWhile (· = least)).length, ?_⟩
  rw [← rest]
  exact List.rdropWhile_append_rtakeWhile.symm

/-- Any number of the least symbol after a text without it. -/
theorem shortened_of_padded {text : List Symbol} (kept : ∀ symbol ∈ text, symbol ≠ least)
    (count : Nat) : shortened least (text ++ List.replicate count least) = text := by
  unfold shortened
  induction count with
  | zero =>
    rw [List.replicate_zero, List.append_nil]
    apply List.rdropWhile_eq_self_iff.mpr
    intro some
    have last := kept _ (List.getLast_mem some)
    simpa using last
  | succ count ih =>
    rw [List.replicate_succ', ← List.append_assoc, List.rdropWhile_concat_pos _ _ _ (by simp)]
    exact ih

theorem shortened_inj (width : first.length = second.length)
    (same : shortened least first = shortened least second) : first = second := by
  obtain ⟨count, whole⟩ := shortened_append least first
  obtain ⟨number, entire⟩ := shortened_append least second
  have left := congrArg List.length whole
  have right := congrArg List.length entire
  rw [List.length_append, List.length_replicate] at left right
  rw [same] at left
  have counts : count = number := by omega
  rw [whole, same, counts]
  exact entire.symm

/-- Texts of one width compare as they do shortened, where neither then starts the other. -/
theorem shortened_lt_iff (left : ¬shortened least first <+: shortened least second)
    (right : ¬shortened least second <+: shortened least first) (rest other : List Symbol) :
    shortened least first ++ rest < shortened least second ++ other ↔ first < second := by
  obtain ⟨count, whole⟩ := shortened_append least first
  obtain ⟨number, entire⟩ := shortened_append least second
  conv_rhs => rw [whole, entire]
  rw [append_lt_append_of_apart left right, append_lt_append_of_apart left right]

/-- A shortened text that starts another belongs to the lesser of two texts of one width, and sorts
after it before a symbol greater than any of theirs. -/
theorem lt_of_shortened_prefix {last : Symbol} (width : first.length = second.length)
    (above : ∀ symbol ∈ second, least ≤ symbol) (below : ∀ symbol ∈ second, symbol < last)
    (starts : shortened least first <+: shortened least second)
    (apart : shortened least first ≠ shortened least second) :
    first < second ∧ shortened least second ++ [last] < shortened least first ++ [last] := by
  obtain ⟨more, longer⟩ := starts
  obtain ⟨count, whole⟩ := shortened_append least first
  obtain ⟨number, entire⟩ := shortened_append least second
  have within {symbol : Symbol} (member : symbol ∈ more) : symbol ∈ second := by
    rw [entire, ← longer]
    simp [member]
  have extended : second = shortened least first ++ (more ++ List.replicate number least) := by
    rw [← List.append_assoc, longer]
    exact entire
  constructor
  · have different : first ≠ second := fun same => apart (congrArg (shortened least) same)
    have counts : (more ++ List.replicate number least).length = count := by
      have left := congrArg List.length whole
      have right := congrArg List.length extended
      rw [List.length_append, List.length_replicate] at left
      rw [List.length_append] at right
      omega
    apply lt_of_le_of_ne (not_lt.mp ?_) different
    intro before
    rw [whole, extended, append_lt_append_iff rfl, ← counts] at before
    rcases before with sooner | ⟨_, sooner⟩
    · exact lt_irrefl _ sooner
    · refine not_lt_replicate (fun symbol member => above symbol ?_) sooner
      rw [extended]
      exact List.mem_append_right _ member
  · rw [← longer, List.append_assoc, append_lt_append_iff rfl]
    refine .inr ⟨rfl, ?_⟩
    cases more with
    | nil => exact absurd ((List.append_nil _).symm.trans longer) apart
    | cons symbol rest => exact List.cons_lt_cons_iff.mpr (.inl (below symbol (within (by simp))))

end Shortened

end MeteredUsage.Library.FixedWidth
