import Mathlib.Algebra.BigOperators.Group.List.Basic
import Mathlib.Data.List.Induction
import Mathlib.Data.List.Sort
import MeteredUsage.Library.OrderedMap

/-! What is counted under keys as it comes: a map whose entries are made when their key is first met
and changed ever after holds under each key what the items of that key alone would have made, in
whatever order those of different keys came. -/

namespace MeteredUsage.Library.Tally
open MeteredUsage.Library.OrderedMap

variable {Key Value Item Sum : Type*} [LinearOrder Key]

/-- Changes what is under a key, or makes it where nothing is. -/
def upsert (change : Option Value → Value) (key : Key) : List (Key × Value) → List (Key × Value)
  | [] => [(key, change none)]
  | entry :: rest =>
    if key < entry.1 then (key, change none) :: entry :: rest
    else if key = entry.1 then (key, change (some entry.2)) :: rest
    else entry :: upsert change key rest

/-- The map that items leave, each under its key. -/
def collect (key : Item → Key) (change : Item → Option Value → Value) (items : List Item) :
    List (Key × Value) :=
  items.foldl (fun entries item => upsert (change item) (key item) entries) []

variable {change : Option Value → Value} {key other : Key} {entries : List (Key × Value)}

theorem mem_keys_upsert {entry : Key × Value} (member : entry ∈ upsert change key entries) :
    entry.1 = key ∨ ∃ old ∈ entries, entry.1 = old.1 := by
  induction entries with
  | nil => exact .inl (congrArg Prod.fst (List.mem_singleton.mp member))
  | cons first rest ih =>
    unfold upsert at member
    split at member
    next =>
      rcases List.mem_cons.mp member with rfl | held
      · exact .inl rfl
      · exact .inr ⟨entry, held, rfl⟩
    next =>
      split at member
      next =>
        rcases List.mem_cons.mp member with rfl | held
        · exact .inl rfl
        · exact .inr ⟨entry, List.mem_cons_of_mem _ held, rfl⟩
      next =>
        rcases List.mem_cons.mp member with rfl | held
        · exact .inr ⟨entry, List.mem_cons_self, rfl⟩
        · rcases ih held with same | ⟨old, stored, same⟩
          · exact .inl same
          · exact .inr ⟨old, List.mem_cons_of_mem _ stored, same⟩

theorem ordered_upsert (ordered : Ordered entries) : Ordered (upsert change key entries) := by
  induction entries with
  | nil => exact List.pairwise_singleton _ _
  | cons first rest ih =>
    unfold upsert
    split
    next before =>
      refine List.pairwise_cons.mpr ⟨?_, ordered⟩
      intro entry member
      rcases List.mem_cons.mp member with rfl | later
      · exact before
      · exact before.trans (ordered.lt_of_mem later)
    next =>
      split
      next same =>
        refine List.pairwise_cons.mpr ⟨?_, ordered.tail⟩
        intro entry member
        exact same.trans_lt (ordered.lt_of_mem member)
      next early apart =>
        refine List.pairwise_cons.mpr ⟨?_, ih ordered.tail⟩
        intro entry member
        rcases mem_keys_upsert member with same | ⟨old, stored, same⟩
        · rw [same]
          exact lt_of_le_of_ne (not_lt.mp early) (Ne.symm apart)
        · rw [same]
          exact ordered.lt_of_mem stored

theorem lookup_upsert (ordered : Ordered entries) : (upsert change key entries).lookup other =
    if other = key then some (change (entries.lookup key)) else entries.lookup other := by
  induction entries with
  | nil => rw [upsert, lookup_cons, List.lookup_nil, List.lookup_nil]
  | cons first rest ih =>
    unfold upsert
    split
    next before =>
      have absent : (first :: rest).lookup key = none := by
        cases found : (first :: rest).lookup key with
        | none => rfl
        | some value =>
          rcases List.mem_cons.mp (mem_of_lookup found) with here | later
          · exact absurd (congrArg Prod.fst here) before.ne
          · exact absurd (ordered.lt_of_mem later) before.asymm
      rw [absent, lookup_cons]
    next =>
      split
      next same =>
        subst same
        rw [lookup_cons, lookup_cons, lookup_cons, if_pos rfl]
        split <;> rfl
      next early apart =>
        rw [lookup_cons, ih ordered.tail, lookup_cons, if_neg apart, lookup_cons]
        by_cases named : other = first.1
        · rw [if_pos named, if_pos named, if_neg fun same : other = key => apart (same.symm.trans named)]
        · rw [if_neg named, if_neg named]

/-- A change of what is under a key is told by what is there. -/
theorem upsert_congr {again : Option Value → Value} (ordered : Ordered entries)
    (same : change (entries.lookup key) = again (entries.lookup key)) :
    upsert change key entries = upsert again key entries := by
  apply (ordered_upsert ordered).eq_of_lookup (ordered_upsert ordered)
  intro other
  rw [lookup_upsert ordered, lookup_upsert ordered, same]

section Collect
variable {name : Item → Key} {make : Item → Option Value → Value}

theorem collect_append_singleton (items : List Item) (item : Item) :
    collect name make (items ++ [item]) = upsert (make item) (name item) (collect name make items) := by
  rw [collect, List.foldl_append]
  rfl

theorem ordered_collect (items : List Item) : Ordered (collect name make items) := by
  induction items using List.reverseRecOn with
  | nil => exact List.Pairwise.nil
  | append_singleton items item ih =>
    rw [collect_append_singleton]
    exact ordered_upsert ih

/-- Under each key is what the items of that key make, one after another. -/
theorem lookup_collect (items : List Item) (key : Key) : (collect name make items).lookup key =
    (items.filter (name · = key)).foldl (fun held item => some (make item held)) none := by
  induction items using List.reverseRecOn with
  | nil => rfl
  | append_singleton items item ih =>
    rw [collect_append_singleton, lookup_upsert (ordered_collect items), List.filter_append,
      List.foldl_append]
    by_cases same : key = name item
    · subst same
      rw [if_pos rfl, ih]
      simp
    · rw [if_neg same, ih]
      simp [Ne.symm same]

theorem keys_upsert (change : Option Value → Value) (key other : Key) (entries : List (Key × Value)) :
    other ∈ (upsert change key entries).map Prod.fst ↔ other = key ∨ other ∈ entries.map Prod.fst := by
  induction entries with
  | nil => simp [upsert]
  | cons entry rest ih =>
    unfold upsert
    split
    next => simp
    next =>
      split
      next same => simp [same]
      next =>
        rw [List.map_cons, List.mem_cons, ih, List.map_cons, List.mem_cons]
        exact or_left_comm

theorem keys_collect (items : List Item) (key : Key) :
    key ∈ (collect name make items).map Prod.fst ↔ key ∈ items.map name := by
  induction items using List.reverseRecOn with
  | nil => simp [collect]
  | append_singleton items item ih =>
    rw [collect_append_singleton, keys_upsert, ih, List.map_append, List.mem_append, List.map_singleton,
      List.mem_singleton, or_comm]

end Collect

section Sums
variable [AddCommMonoid Sum] (name : Item → Key) (value : Item → Sum)

/-- The sums of the items' values under each key. -/
def sums (items : List Item) : List (Key × Sum) :=
  collect name (fun item held => held.getD 0 + value item) items

variable {name value}

theorem ordered_sums (items : List Item) : Ordered (sums name value items) := ordered_collect items

theorem foldl_some_add (held : Sum) (items : List Item) :
    items.foldl (fun held item => some (held.getD 0 + value item)) (some held) =
      some (held + (items.map value).sum) := by
  induction items generalizing held with
  | nil => simp
  | cons item rest ih => rw [List.foldl_cons, ih, List.map_cons, List.sum_cons, Option.getD_some, add_assoc]

theorem lookup_sums (items : List Item) (key : Key) : (sums name value items).lookup key =
    if key ∈ items.map name then some (((items.filter (name · = key)).map value).sum) else none := by
  rw [sums, lookup_collect]
  cases matching : items.filter (name · = key) with
  | nil =>
    have absent : key ∉ items.map name := by
      intro member
      obtain ⟨item, held, named⟩ := List.mem_map.mp member
      have kept : item ∈ items.filter (name · = key) := List.mem_filter.mpr ⟨held, decide_eq_true named⟩
      rw [matching] at kept
      cases kept
    rw [if_neg absent]
    rfl
  | cons item rest =>
    have kept : item ∈ items.filter (name · = key) := by
      rw [matching]
      exact List.mem_cons_self
    obtain ⟨held, named⟩ := List.mem_filter.mp kept
    rw [if_pos (List.mem_map.mpr ⟨item, held, of_decide_eq_true named⟩), List.foldl_cons, foldl_some_add,
      List.map_cons, List.sum_cons, Option.getD_none, zero_add]

omit [AddCommMonoid Sum] in
theorem filter_eq_singleton {items : List Item} (once : (items.map name).Nodup) {item : Item}
    (held : item ∈ items) : items.filter (name · = name item) = [item] := by
  induction items with
  | nil => cases held
  | cons first rest ih =>
    obtain ⟨fresh, later⟩ := List.nodup_cons.mp once
    have apart : ∀ other ∈ rest, name other ≠ name first := fun other member same =>
      fresh (same ▸ List.mem_map_of_mem member)
    rcases List.mem_cons.mp held with rfl | member
    · have none_left : rest.filter (name · = name item) = [] :=
        List.filter_eq_nil_iff.mpr fun other stored => by simpa using apart other stored
      rw [List.filter_cons_of_pos (by simp), none_left]
    · rw [List.filter_cons_of_neg (by simpa using (apart item member).symm), ih later member]

/-- Items of different keys, put in the order of their keys, are their own sums. -/
theorem insertionSort_eq_sums {items : List Item} (once : (items.map name).Nodup) :
    (items.map fun item => (name item, value item)).insertionSort (fun first second => first.1 ≤ second.1) =
      sums name value items := by
  let entries := items.map fun item => (name item, value item)
  have total : Std.Total fun first second : Key × Sum => first.1 ≤ second.1 :=
    ⟨fun first second => le_total first.1 second.1⟩
  have trans : IsTrans (Key × Sum) fun first second => first.1 ≤ second.1 := ⟨fun _ _ _ => le_trans⟩
  have perm := List.perm_insertionSort (fun first second : Key × Sum => first.1 ≤ second.1) entries
  have names : entries.map Prod.fst = items.map name := by
    rw [List.map_map]
    rfl
  have apart : ((entries.insertionSort fun first second => first.1 ≤ second.1).map Prod.fst).Nodup := by
    rw [(perm.map Prod.fst).nodup_iff, names]
    exact once
  have sorted : Ordered (entries.insertionSort fun first second => first.1 ≤ second.1) :=
    ((List.pairwise_insertionSort _ entries).and (List.pairwise_map.mp apart)).imp fun both =>
      lt_of_le_of_ne both.1 both.2
  apply sorted.eq_of_lookup (ordered_sums items)
  intro key
  rw [lookup_sums]
  by_cases member : key ∈ items.map name
  · obtain ⟨item, held, rfl⟩ := List.mem_map.mp member
    rw [if_pos member, filter_eq_singleton once held, List.map_singleton, List.sum_singleton]
    exact sorted.lookup_of_mem (perm.mem_iff.mpr (List.mem_map_of_mem held))
  · rw [if_neg member]
    cases found : (entries.insertionSort fun first second => first.1 ≤ second.1).lookup key with
    | none => rfl
    | some value =>
      have stored := perm.mem_iff.mp (mem_of_lookup found)
      have key_mem : key ∈ entries.map Prod.fst := List.mem_map_of_mem (f := Prod.fst) stored
      rw [names] at key_mem
      exact absurd key_mem member

end Sums

end MeteredUsage.Library.Tally
