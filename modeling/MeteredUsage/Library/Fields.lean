import Mathlib.Data.List.DropRight
import Mathlib.Data.List.TakeWhile

/-! Texts of several fields between separators, each with blanks around it: what is written so is read
back field by field, also where it came in several lines that were joined. -/

namespace MeteredUsage.Library.Fields

variable {Symbol : Type*}

/-- Drops the blanks on either side. -/
def strip (blank : Symbol → Bool) (text : List Symbol) : List Symbol := (text.dropWhile blank).rdropWhile blank

/-- A text that neither begins nor ends with a blank. -/
structure Solid (blank : Symbol → Bool) (text : List Symbol) : Prop where
  begins : ∀ first ∈ text.head?, blank first = false
  ends : ∀ last ∈ text.getLast?, blank last = false

variable {blank : Symbol → Bool} {text before after : List Symbol}

theorem dropWhile_append_of_all (blanks : ∀ symbol ∈ before, blank symbol = true) :
    (before ++ text).dropWhile blank = text.dropWhile blank := by
  rw [List.dropWhile_append, List.dropWhile_eq_nil_iff.mpr blanks]
  rfl

theorem Solid.dropWhile (solid : Solid blank text) : text.dropWhile blank = text := by
  cases text with
  | nil => rfl
  | cons first rest => exact List.dropWhile_cons_of_neg (Bool.eq_false_iff.mp (solid.begins first rfl))

theorem Solid.reverse (solid : Solid blank text) : Solid blank text.reverse where
  begins first member := solid.ends first (by rwa [List.head?_reverse] at member)
  ends last member := solid.begins last (by rwa [List.getLast?_reverse] at member)

/-- Blanks around a text that has none on either side are dropped, and nothing else. -/
theorem strip_padded (solid : Solid blank text) (left : ∀ symbol ∈ before, blank symbol = true)
    (right : ∀ symbol ∈ after, blank symbol = true) : strip blank (before ++ text ++ after) = text := by
  unfold strip
  rw [List.append_assoc, dropWhile_append_of_all left]
  cases text with
  | nil =>
    rw [List.nil_append, List.dropWhile_eq_nil_iff.mpr right]
    rfl
  | cons first rest =>
    have kept : (first :: rest ++ after).dropWhile blank = first :: rest ++ after :=
      List.dropWhile_cons_of_neg (Bool.eq_false_iff.mp (solid.begins first rfl))
    have ended : ∀ symbol ∈ after.reverse, blank symbol = true := fun symbol member =>
      right symbol (List.mem_reverse.mp member)
    rw [kept, List.rdropWhile, List.reverse_append, dropWhile_append_of_all ended, solid.reverse.dropWhile,
      List.reverse_reverse]

theorem strip_solid (solid : Solid blank text) : strip blank text = text := by
  have padded : strip blank ([] ++ text ++ []) = text :=
    strip_padded solid (fun _ member => nomatch member) (fun _ member => nomatch member)
  rwa [List.append_nil] at padded

/-- What is left has no blank on either side. -/
theorem solid_strip (blank : Symbol → Bool) (text : List Symbol) : Solid blank (strip blank text) where
  begins first member := by
    obtain ⟨more, same⟩ := List.rdropWhile_prefix blank (text.dropWhile blank)
    have front : (text.dropWhile blank).head? = some first := by
      rw [← same, List.head?_append]
      exact congrArg (·.or more.head?) member
    have kept := List.head?_dropWhile_not blank text
    rw [front] at kept
    exact Bool.eq_false_iff.mpr (by simpa using kept)
  ends last member := by
    have filled : strip blank text ≠ [] := List.ne_nil_of_mem (List.mem_of_getLast? member)
    have shown := List.rdropWhile_last_not blank (text.dropWhile blank) filled
    rw [Option.mem_def, List.getLast?_eq_some_getLast filled, Option.some.injEq] at member
    exact Bool.eq_false_iff.mpr (member ▸ shown)

theorem solid_of_strip (same : strip blank text = text) : Solid blank text := same ▸ solid_strip blank text

/-- What is left is of the text. -/
theorem mem_of_mem_strip {symbol : Symbol} (member : symbol ∈ strip blank text) : symbol ∈ text :=
  (List.dropWhile_sublist blank).subset ((List.rdropWhile_prefix blank _).subset member)

section Split
variable [BEq Symbol] [LawfulBEq Symbol] {separator : Symbol}

theorem splitOn_join {parts : List (List Symbol)} (some_part : parts ≠ []) :
    ([separator].intercalate parts).splitOn separator = parts.flatMap (List.splitOn separator) := by
  induction parts with
  | nil => exact absurd rfl some_part
  | cons first rest ih =>
    cases rest with
    | nil => simp
    | cons next others =>
      rw [List.intercalate_cons_cons, List.append_assoc, List.singleton_append, List.splitOn_append_cons_self,
        ih (List.cons_ne_nil _ _)]
      rfl

/-- The fields of several joined lines are those of each line; a line of none, or no line, has one that
is empty. -/
theorem mem_splitOn_lines {lines : List (List (List Symbol))} {field : List Symbol}
    (whole : ∀ line ∈ lines, ∀ part ∈ line, separator ∉ part) :
    field ∈ ([separator].intercalate (lines.map [separator].intercalate)).splitOn separator ↔
      (∃ line ∈ lines, field ∈ line) ∨ field = [] ∧ (lines = [] ∨ [] ∈ lines) := by
  have each (line : List (List Symbol)) (member : line ∈ lines) :
      ([separator].intercalate line).splitOn separator = if line = [] then [[]] else line := by
    split
    next empty =>
      subst empty
      rfl
    next filled => exact List.splitOn_intercalate separator (whole line member) filled
  by_cases empty : lines = []
  · subst empty
    simp
  · rw [splitOn_join (by simpa using empty), List.mem_flatMap]
    constructor
    · rintro ⟨joined, held, member⟩
      obtain ⟨line, listed, rfl⟩ := List.mem_map.mp held
      rw [each line listed] at member
      split at member
      next none_there =>
        subst none_there
        exact .inr ⟨List.mem_singleton.mp member, .inr listed⟩
      next => exact .inl ⟨line, listed, member⟩
    · rintro (⟨line, listed, member⟩ | ⟨rfl, none_there⟩)
      · refine ⟨_, List.mem_map_of_mem listed, ?_⟩
        rwa [each line listed, if_neg (List.ne_nil_of_mem member)]
      · have listed : [] ∈ lines := none_there.resolve_left empty
        refine ⟨_, List.mem_map_of_mem listed, ?_⟩
        rw [each [] listed, if_pos rfl]
        exact List.mem_singleton_self _

end Split

theorem mem_join {parts : List (List Symbol)} {separator symbol : Symbol}
    (member : symbol ∈ [separator].intercalate parts) :
    symbol = separator ∨ ∃ part ∈ parts, symbol ∈ part := by
  induction parts with
  | nil => cases member
  | cons first rest ih =>
    cases rest with
    | nil => exact .inr ⟨first, List.mem_singleton_self _, by simpa using member⟩
    | cons next others =>
      rw [List.intercalate_cons_cons, List.append_assoc, List.mem_append] at member
      rcases member with here | later
      · exact .inr ⟨first, List.mem_cons_self, here⟩
      · rcases List.mem_append.mp later with separates | inside
        · exact .inl (List.mem_singleton.mp separates)
        · exact (ih inside).imp_right fun ⟨part, held, same⟩ => ⟨part, List.mem_cons_of_mem _ held, same⟩

end MeteredUsage.Library.Fields
