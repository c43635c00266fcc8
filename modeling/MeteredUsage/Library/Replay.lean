import Mathlib.Data.List.Induction

/-! Updates of which only the last one of its kind counts, as a value that is overwritten or a
bound that is widened. A state such a sequence of updates has left stays as it is when the
sequence, or the end of it, is replayed. -/

namespace MeteredUsage.Library.Replay

variable {Item State : Type} {apply : State → Item → State}

/-- A state that no update of a sequence changes. -/
theorem foldl_unmoved {items : List Item} {state : State}
    (unmoved : ∀ item ∈ items, apply state item = state) : items.foldl apply state = state := by
  induction items with
  | nil => rfl
  | cons item rest ih =>
    rw [List.foldl_cons, unmoved item (by simp)]
    exact ih fun later member => unmoved later (by simp [member])

/-- An update that comes again leaves no trace of its earlier turn, whatever came between. -/
structure Overwrites (apply : State → Item → State) : Prop where
  again : ∀ state item, apply (apply state item) item = apply state item
  between : ∀ state item other,
    apply (apply (apply state item) other) item = apply (apply state other) item

theorem Overwrites.after (overwrites : Overwrites apply) (item : Item) (items : List Item)
    (state : State) :
    apply (items.foldl apply (apply state item)) item = apply (items.foldl apply state) item := by
  induction items using List.reverseRecOn with
  | nil => exact overwrites.again state item
  | append_singleton earlier other ih =>
    simp only [List.foldl_append, List.foldl_cons, List.foldl_nil]
    calc apply (apply (earlier.foldl apply (apply state item)) other) item
        = apply (apply (apply (earlier.foldl apply (apply state item)) item) other) item :=
          (overwrites.between _ _ _).symm
      _ = apply (apply (apply (earlier.foldl apply state) item) other) item := by rw [ih]
      _ = apply (apply (earlier.foldl apply state) other) item := overwrites.between _ _ _

/-- A state that a replay leaves as it is stays one after the next update joins the sequence. -/
theorem Overwrites.settled (overwrites : Overwrites apply) {items : List Item} {state : State}
    (settled : items.foldl apply state = state) (item : Item) :
    (items ++ [item]).foldl apply (apply state item) = apply state item := by
  rw [List.foldl_append, List.foldl_cons, List.foldl_nil, overwrites.after, settled]

theorem Overwrites.foldl_foldl (overwrites : Overwrites apply) (items : List Item)
    (state : State) :
    items.foldl apply (items.foldl apply state) = items.foldl apply state := by
  induction items using List.reverseRecOn with
  | nil => rfl
  | append_singleton earlier item ih =>
    simp only [List.foldl_append, List.foldl_cons, List.foldl_nil]
    rw [overwrites.after, ih]

/-- A state that a replay leaves as it is also stays when only the end is replayed. -/
theorem Overwrites.settled_suffix (overwrites : Overwrites apply) {earlier later : List Item}
    {state : State} (settled : (earlier ++ later).foldl apply state = state) :
    later.foldl apply state = state := by
  rw [List.foldl_append] at settled
  calc later.foldl apply state
      = later.foldl apply (later.foldl apply (earlier.foldl apply state)) := by rw [settled]
    _ = later.foldl apply (earlier.foldl apply state) := overwrites.foldl_foldl later _
    _ = state := settled

end MeteredUsage.Library.Replay
