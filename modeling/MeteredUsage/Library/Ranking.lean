import Mathlib.Data.List.Induction
import Mathlib.Data.List.Sort
import Mathlib.Order.Basic

/-! Named items in the order of a measure, the largest first, and of their names where it is the same:
items of different names have one such order, however they come, and one of them is the first. -/

namespace MeteredUsage.Library.Ranking

variable {Item Name Measure : Type*} [LinearOrder Name] [LinearOrder Measure]

/-- The larger measure first, then the lesser name. -/
def Before (name : Item → Name) (measure : Item → Measure) (left right : Item) : Prop :=
  measure right < measure left ∨ measure left = measure right ∧ name left ≤ name right

variable {name : Item → Name} {measure : Item → Measure}

instance : DecidableRel (Before name measure) := fun _ _ => inferInstanceAs (Decidable (_ ∨ _ ∧ _))

instance total_before : Std.Total (Before name measure) where
  total left right := by
    rcases lt_trichotomy (measure left) (measure right) with less | same | more
    · exact .inr (.inl less)
    · rcases le_total (name left) (name right) with before | after
      · exact .inl (.inr ⟨same, before⟩)
      · exact .inr (.inr ⟨same.symm, after⟩)
    · exact .inl (.inl more)

instance trans_before : IsTrans Item (Before name measure) where
  trans := by
    rintro first second third (more | ⟨same, before⟩) (larger | ⟨equal, earlier⟩)
    · exact .inl (larger.trans more)
    · exact .inl (equal ▸ more)
    · exact .inl (same ▸ larger)
    · exact .inr ⟨same.trans equal, before.trans earlier⟩

/-- Two items that rank before each other have one name. -/
theorem name_eq_of_before {left right : Item} (before : Before name measure left right)
    (after : Before name measure right left) : name left = name right := by
  rcases before with more | ⟨same, least⟩
  · rcases after with larger | ⟨equal, _⟩
    · exact absurd larger more.asymm
    · exact absurd equal more.ne
  · rcases after with larger | ⟨_, other⟩
    · exact absurd same larger.ne
    · exact le_antisymm least other

/-- The items by rank. -/
def ranked (name : Item → Name) (measure : Item → Measure) (items : List Item) : List Item :=
  items.insertionSort (Before name measure)

theorem perm_ranked (items : List Item) : (ranked name measure items).Perm items :=
  List.perm_insertionSort _ items

/-- In a ranking of different names, each item ranks strictly before those after it. -/
theorem ranked_sorted {items : List Item} (once : (items.map name).Nodup) :
    (ranked name measure items).Pairwise fun left right =>
      measure right < measure left ∨ measure left = measure right ∧ name left < name right := by
  have sorted := List.pairwise_insertionSort (Before name measure) items
  have apart : ((ranked name measure items).map name).Nodup :=
    ((perm_ranked items).map name).nodup_iff.mpr once
  apply (sorted.and (List.pairwise_map.mp apart)).imp
  rintro left right ⟨more | ⟨same, least⟩, differ⟩
  · exact .inl more
  · exact .inr ⟨same, lt_of_le_of_ne least differ⟩

/-- Items of different names have one ranking, in whatever order they come. -/
theorem ranked_eq_of_perm {first second : List Item} (once : (first.map name).Nodup)
    (perm : first.Perm second) : ranked name measure first = ranked name measure second := by
  apply List.Perm.eq_of_pairwise _ (List.pairwise_insertionSort (Before name measure) first)
    (List.pairwise_insertionSort (Before name measure) second)
  · exact (perm_ranked first).trans (perm.trans (perm_ranked second).symm)
  · intro left right member held before after
    have same := name_eq_of_before before after
    have leftHeld := (List.perm_insertionSort _ first).mem_iff.mp member
    have rightHeld := perm.mem_iff.mpr ((List.perm_insertionSort _ second).mem_iff.mp held)
    exact List.inj_on_of_nodup_map once leftHeld rightHeld same

/-- The item that ranks first, the last come of those that rank alike. -/
def leading (name : Item → Name) (measure : Item → Measure) : List Item → Option Item
  | [] => none
  | first :: rest =>
    some (rest.foldl (fun held item => if Before name measure item held then item else held) first)

theorem foldl_before (first : Item) (rest : List Item) :
    let found := rest.foldl (fun held item => if Before name measure item held then item else held) first
    found ∈ first :: rest ∧ ∀ item ∈ first :: rest, Before name measure found item := by
  induction rest generalizing first with
  | nil =>
    refine ⟨List.mem_singleton_self _, ?_⟩
    intro item member
    rw [List.mem_singleton.mp member]
    exact (total_before.total first first).elim id id
  | cons next rest ih =>
    rw [List.foldl_cons]
    by_cases ahead : Before name measure next first
    · rw [if_pos ahead]
      obtain ⟨member, least⟩ := ih next
      refine ⟨List.mem_cons_of_mem _ member, ?_⟩
      intro item held
      rcases List.mem_cons.mp held with rfl | later
      · exact trans_before.trans _ _ _ (least next List.mem_cons_self) ahead
      · exact least item later
    · rw [if_neg ahead]
      obtain ⟨member, least⟩ := ih first
      have kept := least first List.mem_cons_self
      have behind : Before name measure first next := (total_before.total first next).resolve_right ahead
      refine ⟨List.cons_subset_cons _ (List.subset_cons_self _ _) member, ?_⟩
      intro item held
      rcases List.mem_cons.mp held with rfl | later
      · exact kept
      · rcases List.mem_cons.mp later with rfl | after
        · exact trans_before.trans _ _ _ kept behind
        · exact least item (List.mem_cons_of_mem _ after)

/-- What leads is one of the items and ranks before every other; nothing leads only where there is none. -/
theorem leading_spec (name : Item → Name) (measure : Item → Measure) (items : List Item) :
    (leading name measure items).elim (items = []) fun found =>
      found ∈ items ∧ ∀ item ∈ items, Before name measure found item := by
  cases items with
  | nil => rfl
  | cons first rest => exact foldl_before first rest

/-- The item held so far, unless one exceeds it. -/
def exceeding (measure : Item → Measure) (held : Option Item) (item : Item) : Option Item :=
  if held.all fun best => measure best < measure item then some item else held

/-- Of items in the order of their names, what nothing exceeded ranks before every other. -/
theorem foldl_exceeding {items : List Item} (ordered : items.Pairwise fun left right => name left ≤ name right) :
    (items.foldl (exceeding measure) none).elim (items = []) fun found =>
      found ∈ items ∧ ∀ item ∈ items, Before name measure found item := by
  induction items using List.reverseRecOn with
  | nil => rfl
  | append_singleton items last ih =>
    obtain ⟨before, -, after⟩ := List.pairwise_append.mp ordered
    have held := ih before
    have alike : Before name measure last last := (total_before.total last last).elim id id
    rw [List.foldl_append, List.foldl_cons, List.foldl_nil]
    cases found : items.foldl (exceeding measure) none with
    | none =>
      rw [found] at held
      obtain rfl : items = [] := held
      refine ⟨List.mem_singleton_self _, fun item member => ?_⟩
      rwa [List.mem_singleton.mp member]
    | some best =>
      rw [found] at held
      obtain ⟨member, least⟩ := held
      by_cases exceeds : measure best < measure last
      · rw [exceeding, if_pos (by simpa using exceeds)]
        refine ⟨List.mem_append_right _ (List.mem_singleton_self _), fun item known => ?_⟩
        rcases List.mem_append.mp known with earlier | here
        · exact trans_before.trans _ _ _ (.inl exceeds) (least item earlier)
        · rwa [List.mem_singleton.mp here]
      · rw [exceeding, if_neg (by simpa using exceeds)]
        refine ⟨List.mem_append_left _ member, fun item known => ?_⟩
        rcases List.mem_append.mp known with earlier | here
        · exact least item earlier
        · rw [List.mem_singleton.mp here]
          rcases (not_lt.mp exceeds).lt_or_eq with less | same
          · exact .inl less
          · exact .inr ⟨same.symm, after best member last (List.mem_singleton_self _)⟩

end MeteredUsage.Library.Ranking
