import Mathlib.Data.List.Nodup
import Mathlib.Data.List.Pairwise
import Mathlib.Order.Lattice

/-! Maps as lists of entries in the order of their keys, each key once: such a list is what
looking its keys up answers. -/

namespace MeteredUsage.Library.OrderedMap

variable {Key Value Other : Type*} [LinearOrder Key]

/-- Each key once, in order. -/
def Ordered (entries : List (Key × Value)) : Prop :=
  entries.Pairwise fun first second => first.1 < second.1

instance (entries : List (Key × Value)) : Decidable (Ordered entries) :=
  inferInstanceAs (Decidable (List.Pairwise _ _))

variable {entries first second : List (Key × Value)} {key : Key} {value : Value}

/-- The entries of the keys to keep. -/
def restrict (keep : Key → Bool) (entries : List (Key × Value)) : List (Key × Value) :=
  entries.filter fun entry => keep entry.1

/-- What there is to say of each entry, under its key. -/
def choose (describe : Key → Value → Option Other) (entries : List (Key × Value)) :
    List (Key × Other) :=
  entries.filterMap fun entry => (describe entry.1 entry.2).map (entry.1, ·)

theorem ordered_iff_keys : Ordered entries ↔ (entries.map Prod.fst).Pairwise (· < ·) :=
  List.pairwise_map.symm

theorem Ordered.tail {entry : Key × Value} (ordered : Ordered (entry :: entries)) :
    Ordered entries := (List.pairwise_cons.mp ordered).2

theorem Ordered.lt_of_mem {entry other : Key × Value} (ordered : Ordered (entry :: entries))
    (member : other ∈ entries) : entry.1 < other.1 := (List.pairwise_cons.mp ordered).1 other member

theorem Ordered.nodup (ordered : Ordered entries) : entries.Nodup :=
  ordered.imp fun before same => absurd (congrArg Prod.fst same) before.ne

theorem Ordered.restrict (ordered : Ordered entries) (keep : Key → Bool) :
    Ordered (restrict keep entries) := ordered.filter _

theorem lookup_cons (entry : Key × Value) :
    (entry :: entries).lookup key = if key = entry.1 then some entry.2 else entries.lookup key := by
  rw [List.lookup_cons]
  by_cases same : key = entry.1
  · simp [same]
  · simp [beq_false_of_ne same, same]

theorem mem_of_lookup (found : entries.lookup key = some value) : (key, value) ∈ entries := by
  induction entries with
  | nil => cases found
  | cons entry rest ih =>
    rw [lookup_cons] at found
    split at found
    next same =>
      cases found
      rw [same]
      exact List.mem_cons_self
    next => exact List.mem_cons_of_mem _ (ih found)

theorem Ordered.lookup_of_mem (ordered : Ordered entries) (member : (key, value) ∈ entries) :
    entries.lookup key = some value := by
  induction entries with
  | nil => cases member
  | cons entry rest ih =>
    rw [lookup_cons]
    rcases List.mem_cons.mp member with rfl | later
    · exact if_pos rfl
    · rw [if_neg (ordered.lt_of_mem later).ne']
      exact ih ordered.tail later

theorem Ordered.lookup_eq_some_iff (ordered : Ordered entries) :
    entries.lookup key = some value ↔ (key, value) ∈ entries :=
  ⟨mem_of_lookup, ordered.lookup_of_mem⟩

/-- Two maps that answer every key alike are one. -/
theorem Ordered.eq_of_lookup (left : Ordered first) (right : Ordered second)
    (same : ∀ key, first.lookup key = second.lookup key) : first = second := by
  have members : ∀ entry, entry ∈ first ↔ entry ∈ second := by
    intro entry
    rw [← left.lookup_eq_some_iff, ← right.lookup_eq_some_iff, same]
  apply List.Perm.eq_of_pairwise _ left right
  · exact (List.perm_ext_iff_of_nodup left.nodup right.nodup).mpr members
  · intro entry other _ _ before after
    exact absurd after before.asymm

theorem lookup_restrict (keep : Key → Bool) :
    (restrict keep entries).lookup key = if keep key then entries.lookup key else none := by
  induction entries with
  | nil => simp [restrict]
  | cons entry rest ih =>
    rw [restrict, List.filter_cons]
    by_cases kept : keep entry.1 = true
    · rw [if_pos kept, lookup_cons, lookup_cons]
      change (if key = entry.1 then _ else (restrict keep rest).lookup key) = _
      rw [ih]
      by_cases same : key = entry.1
      · simp [same, kept]
      · simp [same]
    · rw [if_neg kept, lookup_cons]
      change (restrict keep rest).lookup key = _
      rw [ih]
      by_cases same : key = entry.1
      · simp [same, kept]
      · simp [same]

omit [LinearOrder Key] in
theorem mem_choose {describe : Key → Value → Option Other} {described : Key × Other} :
    described ∈ choose describe entries ↔
      ∃ value, (described.1, value) ∈ entries ∧ describe described.1 value = some described.2 := by
  rw [choose, List.mem_filterMap]
  constructor
  · rintro ⟨⟨name, value⟩, member, named⟩
    obtain ⟨other, chosen, rfl⟩ := Option.map_eq_some_iff.mp named
    exact ⟨value, member, chosen⟩
  · rintro ⟨value, member, chosen⟩
    exact ⟨(described.1, value), member, by rw [chosen]; rfl⟩

theorem Ordered.choose (ordered : Ordered entries) (describe : Key → Value → Option Other) :
    Ordered (choose describe entries) := by
  apply List.Pairwise.filterMap _ _ ordered
  rintro earlier later before described named other called
  obtain ⟨_, _, rfl⟩ := Option.map_eq_some_iff.mp named
  obtain ⟨_, _, rfl⟩ := Option.map_eq_some_iff.mp called
  exact before

theorem Ordered.lookup_choose (ordered : Ordered entries) (describe : Key → Value → Option Other) :
    (OrderedMap.choose describe entries).lookup key = (entries.lookup key).bind (describe key) := by
  ext described
  rw [(ordered.choose describe).lookup_eq_some_iff, mem_choose, Option.bind_eq_some_iff]
  simp only [ordered.lookup_eq_some_iff]

theorem Ordered.head?_restrict (ordered : Ordered entries)
    (early : ∃ entry ∈ entries, entry.1 < key) :
    (OrderedMap.restrict (· < key) entries).head? = entries.head? := by
  obtain ⟨entry, member, before⟩ := early
  cases entries with
  | nil => cases member
  | cons head rest =>
    have first : head.1 < key := by
      rcases List.mem_cons.mp member with rfl | later
      · exact before
      · exact (ordered.lt_of_mem later).trans before
    rw [OrderedMap.restrict, List.filter_cons_of_pos (by simpa using first)]
    rfl

/-- Maps that agree on the keys before one have the same first entry where it is before it. -/
theorem Ordered.head?_eq_of_before (left : Ordered first) (right : Ordered second)
    (same : ∀ other < key, first.lookup other = second.lookup other)
    (early : ∃ entry ∈ first, entry.1 < key) : first.head? = second.head? := by
  have restricted : OrderedMap.restrict (· < key) first = OrderedMap.restrict (· < key) second := by
    apply (left.restrict _).eq_of_lookup (right.restrict _)
    intro other
    rw [lookup_restrict, lookup_restrict]
    by_cases before : other < key
    · rw [if_pos (by simpa using before), if_pos (by simpa using before), same other before]
    · rw [if_neg (by simpa using before), if_neg (by simpa using before)]
  have also : ∃ entry ∈ second, entry.1 < key := by
    obtain ⟨entry, member, before⟩ := early
    have found := left.lookup_of_mem member
    rw [same entry.1 before] at found
    exact ⟨entry, mem_of_lookup found, before⟩
  rw [← left.head?_restrict early, restricted, right.head?_restrict also]

end MeteredUsage.Library.OrderedMap
