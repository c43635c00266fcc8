import Mathlib.Data.List.Forall2
import Mathlib.Data.List.Induction
import Mathlib.Data.List.Pairwise
import Mathlib.Order.Basic

/-! Rows of a table as a list without two rows of one key: what looking a key up answers,
and how it follows an insert, an update that leaves the keys alone and a delete. -/

namespace MeteredUsage.Library.Keyed

variable {Row Key : Type*} (key : Row → Key)

/-- No two rows have one key. -/
def Distinct (rows : List Row) : Prop := rows.Pairwise fun first second => key first ≠ key second

variable {key}

theorem Distinct.eq_of_key {rows : List Row} (distinct : Distinct key rows) {first second : Row}
    (left : first ∈ rows) (right : second ∈ rows) (same : key first = key second) :
    first = second := by
  by_contra differs
  have symmetric : Std.Symm fun first second : Row => key first ≠ key second :=
    ⟨fun _ _ apart => apart.symm⟩
  exact distinct.forall left right differs same

theorem Distinct.map {rows : List Row} (distinct : Distinct key rows) {change : Row → Row}
    (same : ∀ row, key (change row) = key row) : Distinct key (rows.map change) :=
  List.pairwise_map.mpr (distinct.imp fun {first second} apart => by
    rw [same, same]
    exact apart)

theorem Distinct.append_singleton {rows : List Row} (distinct : Distinct key rows) {row : Row}
    (free : ∀ other ∈ rows, key other ≠ key row) : Distinct key (rows ++ [row]) := by
  refine List.pairwise_append.mpr ⟨distinct, List.pairwise_singleton _ _, ?_⟩
  intro first earlier second later
  rw [List.mem_singleton.mp later]
  exact free first earlier

theorem Distinct.append {first second : List Row} (left : Distinct key first)
    (right : Distinct key second) (apart : ∀ row ∈ first, ∀ other ∈ second, key row ≠ key other) :
    Distinct key (first ++ second) := List.pairwise_append.mpr ⟨left, right, apart⟩

/-- A change that leaves the rows of a kind alone, and makes no other row one of them, leaves
what there is of the kind. -/
theorem filter_map_fixed {kind : Row → Bool} {change : Row → Row} {rows : List Row}
    (fixed : ∀ row ∈ rows, kind row = true → change row = row)
    (apart : ∀ row ∈ rows, kind row = false → kind (change row) = false) :
    (rows.map change).filter kind = rows.filter kind := by
  induction rows with
  | nil => rfl
  | cons row rest ih =>
    have later := ih (fun other member => fixed other (List.mem_cons_of_mem _ member))
      (fun other member => apart other (List.mem_cons_of_mem _ member))
    cases named : kind row with
    | true => simp [named, fixed row (by simp) named, later]
    | false => simp [named, apart row (by simp) named, later]

theorem filter_append_apart {kind : Row → Bool} (rows : List Row) {row : Row}
    (apart : kind row = false) : (rows ++ [row]).filter kind = rows.filter kind := by
  simp [apart]

theorem filter_filter_kept {kind kept : Row → Bool} {rows : List Row}
    (keeps : ∀ row ∈ rows, kind row = true → kept row = true) :
    (rows.filter kept).filter kind = rows.filter kind := by
  rw [List.filter_filter]
  apply List.filter_congr
  intro row member
  cases named : kind row with
  | true => simp [keeps row member named]
  | false => rfl

variable [DecidableEq Key] (key)

def lookup (rows : List Row) (name : Key) : Option Row := rows.find? fun row => key row = name

/-- The first row of each key, in order. -/
def firsts (rows : List Row) : List Row :=
  rows.foldl (fun kept row => if kept.any fun other => key other = key row then kept
    else kept ++ [row]) []

variable {key}

theorem firsts_append_singleton (rows : List Row) (row : Row) :
    firsts key (rows ++ [row]) =
      if (firsts key rows).any fun other => key other = key row then firsts key rows
      else firsts key rows ++ [row] := by
  rw [firsts, List.foldl_append]
  rfl

theorem mem_of_mem_firsts {rows : List Row} {row : Row} (member : row ∈ firsts key rows) :
    row ∈ rows := by
  induction rows using List.reverseRecOn with
  | nil => exact member
  | append_singleton rows last ih =>
    rw [firsts_append_singleton] at member
    rw [List.mem_append]
    split at member
    next => exact .inl (ih member)
    next => exact (List.mem_append.mp member).imp_left ih

theorem exists_mem_firsts {rows : List Row} {name : Key} :
    (∃ row ∈ firsts key rows, key row = name) ↔ ∃ row ∈ rows, key row = name := by
  refine ⟨fun ⟨row, member, named⟩ => ⟨row, mem_of_mem_firsts member, named⟩, ?_⟩
  induction rows using List.reverseRecOn with
  | nil => exact id
  | append_singleton rows last ih =>
    rintro ⟨row, member, rfl⟩
    rw [firsts_append_singleton]
    rcases List.mem_append.mp member with earlier | here
    · obtain ⟨first, stored, same⟩ := ih ⟨row, earlier, rfl⟩
      split
      next => exact ⟨first, stored, same⟩
      next => exact ⟨first, List.mem_append_left _ stored, same⟩
    · obtain rfl := List.mem_singleton.mp here
      split
      next known => simpa using known
      next => exact ⟨row, by simp, rfl⟩

theorem distinct_firsts (rows : List Row) : Distinct key (firsts key rows) := by
  induction rows using List.reverseRecOn with
  | nil => exact List.Pairwise.nil
  | append_singleton rows last ih =>
    rw [firsts_append_singleton]
    split
    next => exact ih
    next fresh =>
      apply ih.append_singleton
      intro other member same
      exact fresh (List.any_eq_true.mpr ⟨other, member, decide_eq_true same⟩)

theorem any_key_forall₂ {Related : Row → Row → Prop}
    (named : ∀ first second, Related first second → key first = key second) (name : Key)
    {rows others : List Row} (related : List.Forall₂ Related rows others) :
    (rows.any fun row => key row = name) = others.any fun row => key row = name := by
  induction related with
  | nil => rfl
  | cons same _ ih => rw [List.any_cons, List.any_cons, ih, named _ _ same]

/-- Rows that are related one by one, under the same keys, have first rows related one by one. -/
theorem forall₂_firsts {Related : Row → Row → Prop}
    (named : ∀ first second, Related first second → key first = key second)
    {rows others : List Row} (related : List.Forall₂ Related rows others) :
    List.Forall₂ Related (firsts key rows) (firsts key others) := by
  have folds (kept keptOthers : List Row) (start : List.Forall₂ Related kept keptOthers) :
      List.Forall₂ Related
        (rows.foldl (fun kept row => if kept.any fun other => key other = key row then kept
          else kept ++ [row]) kept)
        (others.foldl (fun kept row => if kept.any fun other => key other = key row then kept
          else kept ++ [row]) keptOthers) := by
    induction related generalizing kept keptOthers with
    | nil => exact start
    | @cons row other rows others same _ ih =>
      rw [List.foldl_cons, List.foldl_cons, any_key_forall₂ named (key row) start, named row other same]
      apply ih
      split
      next => exact start
      next => exact List.rel_append start (.cons same .nil)
  exact folds [] [] .nil

theorem firsts_of_distinct {rows : List Row} (distinct : Distinct key rows) :
    firsts key rows = rows := by
  induction rows using List.reverseRecOn with
  | nil => rfl
  | append_singleton rows last ih =>
    obtain ⟨earlier, -, apart⟩ := List.pairwise_append.mp distinct
    rw [firsts_append_singleton, ih earlier, if_neg]
    simpa using fun row member => apart row member last (by simp)

theorem lookup_mem {rows : List Row} {name : Key} {row : Row}
    (found : lookup key rows name = some row) : row ∈ rows ∧ key row = name :=
  ⟨List.mem_of_find?_eq_some found, by simpa using List.find?_some found⟩

theorem lookup_eq_some {rows : List Row} (distinct : Distinct key rows) {name : Key} {row : Row} :
    lookup key rows name = some row ↔ row ∈ rows ∧ key row = name := by
  refine ⟨lookup_mem, ?_⟩
  rintro ⟨member, named⟩
  cases found : lookup key rows name with
  | none => exact absurd named (by simpa using List.find?_eq_none.mp found row member)
  | some other =>
    obtain ⟨stored, same⟩ := lookup_mem found
    rw [distinct.eq_of_key stored member (same.trans named.symm)]

theorem lookup_eq_none {rows : List Row} {name : Key} :
    lookup key rows name = none ↔ ∀ row ∈ rows, key row ≠ name := by
  simp [lookup, List.find?_eq_none]

theorem lookup_isSome {rows : List Row} {name : Key} :
    (lookup key rows name).isSome = true ↔ ∃ row ∈ rows, key row = name := by
  simp [lookup]

theorem lookup_append (first second : List Row) (name : Key) :
    lookup key (first ++ second) name = (lookup key first name).or (lookup key second name) :=
  List.find?_append

theorem lookup_singleton (row : Row) (name : Key) :
    lookup key [row] name = if key row = name then some row else none := by
  by_cases same : key row = name <;> simp [lookup, same]

theorem lookup_map {change : Row → Row} (same : ∀ row, key (change row) = key row)
    (rows : List Row) (name : Key) :
    lookup key (rows.map change) name = (lookup key rows name).map change := by
  simp only [lookup, List.find?_map, Function.comp_def, same]

theorem lookup_filter {rows : List Row} (distinct : Distinct key rows) (kept : Row → Bool)
    (name : Key) :
    lookup key (rows.filter kept) name = (lookup key rows name).filter kept := by
  have left : Distinct key (rows.filter kept) := distinct.filter kept
  refine Option.ext fun row => ?_
  rw [lookup_eq_some left, Option.filter_eq_some_iff, lookup_eq_some distinct, List.mem_filter]
  exact ⟨fun ⟨⟨member, keeps⟩, named⟩ => ⟨⟨member, named⟩, keeps⟩,
    fun ⟨⟨member, named⟩, keeps⟩ => ⟨⟨member, keeps⟩, named⟩⟩

end MeteredUsage.Library.Keyed
