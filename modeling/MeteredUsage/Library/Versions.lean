import Mathlib.Data.List.Induction
import Mathlib.Order.Lattice

/-! Rows that are only ever added, each a version of what its key holds, in the order of their
stamps. A log of the values as they were noted, the last one first, answers what each key holds
now. -/

namespace MeteredUsage.Library.Versions

variable {Row Key Value Stamp : Type*} [LinearOrder Stamp]

/-- The row of a key with the greatest stamp. -/
structure Latest (key : Row → Key) (stamp : Row → Stamp) (rows : List Row) (wanted : Key)
    (row : Row) : Prop where
  member : row ∈ rows
  same : key row = wanted
  last : ∀ other ∈ rows, key other = wanted → stamp other ≤ stamp row

variable {key : Row → Key} {stamp : Row → Stamp} {value : Row → Value} {rows : List Row}
  {wanted : Key} {row : Row}

theorem Latest.stamp_eq {other : Row} (first : Latest key stamp rows wanted row)
    (second : Latest key stamp rows wanted other) : stamp row = stamp other :=
  le_antisymm (second.last row first.member first.same) (first.last other second.member second.same)

/-- A later row of another key changes nothing. -/
theorem Latest.beside (latest : Latest key stamp rows wanted row) {other : Row}
    (apart : key other ≠ wanted) : Latest key stamp (rows ++ [other]) wanted row where
  member := List.mem_append_left _ latest.member
  same := latest.same
  last := by
    intro third member same
    rcases List.mem_append.mp member with earlier | here
    · exact latest.last third earlier same
    · rw [List.mem_singleton.mp here] at same
      exact absurd same apart

/-- A row no older than those of its key is their latest. -/
theorem latest_append (newest : ∀ other ∈ rows, key other = key row → stamp other ≤ stamp row) :
    Latest key stamp (rows ++ [row]) (key row) row where
  member := by simp
  same := rfl
  last := by
    intro other member same
    rcases List.mem_append.mp member with earlier | here
    · exact newest other earlier same
    · rw [List.mem_singleton.mp here]

variable [BEq Key] [LawfulBEq Key]

/-- The log answers the value of the latest row of each key, and nothing for a key without one. -/
structure Notes (key : Row → Key) (stamp : Row → Stamp) (value : Row → Value)
    (log : List (Key × Value)) (rows : List Row) : Prop where
  found : ∀ wanted noted, log.lookup wanted = some noted →
    ∃ row, Latest key stamp rows wanted row ∧ value row = noted
  absent : ∀ wanted, log.lookup wanted = none → ∀ row ∈ rows, key row ≠ wanted

variable {log : List (Key × Value)}

omit [LawfulBEq Key] in
theorem Notes.nil : Notes key stamp value [] ([] : List Row) := ⟨nofun, fun _ _ => nofun⟩

theorem Notes.append (notes : Notes key stamp value log rows)
    (newest : ∀ other ∈ rows, key other = key row → stamp other ≤ stamp row) :
    Notes key stamp value ((key row, value row) :: log) (rows ++ [row]) where
  found := by
    intro wanted noted answered
    by_cases same : wanted = key row
    · subst same
      rw [List.lookup_cons_self] at answered
      exact ⟨row, latest_append newest, Option.some.inj answered⟩
    · have apart : (wanted == key row) = false := beq_false_of_ne same
      rw [List.lookup_cons, apart] at answered
      obtain ⟨known, latest, payload⟩ := notes.found wanted noted answered
      exact ⟨known, latest.beside (Ne.symm same), payload⟩
  absent := by
    intro wanted answered other member same
    by_cases here : wanted = key row
    · rw [here, List.lookup_cons_self] at answered
      cases answered
    · have apart : (wanted == key row) = false := beq_false_of_ne here
      rw [List.lookup_cons, apart] at answered
      rcases List.mem_append.mp member with earlier | last
      · exact notes.absent wanted answered other earlier same
      · rw [List.mem_singleton.mp last] at same
        exact here same.symm

/-- Values noted in the order of their stamps. -/
theorem notes_of_sorted (sorted : rows.Pairwise fun first second => stamp first ≤ stamp second) :
    Notes key stamp value (rows.map fun row => (key row, value row)).reverse rows := by
  induction rows using List.reverseRecOn with
  | nil => exact Notes.nil
  | append_singleton rows row ih =>
    obtain ⟨before, _, older⟩ := List.pairwise_append.mp sorted
    rw [List.map_append, List.reverse_append]
    exact (ih before).append fun other member _ => older other member row (by simp)

omit [LawfulBEq Key] in
/-- The log speaks of the rows in any order. -/
theorem Notes.perm (notes : Notes key stamp value log rows) {others : List Row}
    (same : ∀ row, row ∈ others ↔ row ∈ rows) : Notes key stamp value log others where
  found wanted noted answered := by
    obtain ⟨row, latest, payload⟩ := notes.found wanted noted answered
    exact ⟨row, ⟨(same row).mpr latest.member, latest.same, fun other member =>
      latest.last other ((same other).mp member)⟩, payload⟩
  absent wanted answered row member := notes.absent wanted answered row ((same row).mp member)

end MeteredUsage.Library.Versions
