import Mathlib.Logic.Relation
import Mathlib.Order.Bounds.Basic

/-! Windows in a row, each opened by the first request at or after the end of the one before it. A
request is an instant of an order, and the window it opens is closed at an instant of its own. -/

namespace MeteredUsage.Library.GreedyWindows

variable {Time : Type} [PartialOrder Time]

/-- The first request at or after an instant. -/
def Opens (requests : Set Time) (since first : Time) : Prop :=
  IsLeast {request | request ∈ requests ∧ since ≤ request} first

/-- The end of the window that is opened after an end. -/
def Follows (requests : Set Time) (close : Time → Time) (last next : Time) : Prop :=
  ∃ first, Opens requests last first ∧ close first = next

/-- The ends of the windows in a row, from the given one on. -/
def Ended (requests : Set Time) (close : Time → Time) : Time → Time → Prop :=
  Relation.ReflTransGen (Follows requests close)

/-- The last end at or before now. -/
def LastEnd (requests : Set Time) (close : Time → Time) (start now last : Time) : Prop :=
  IsGreatest {finish | Ended requests close start finish ∧ finish ≤ now} last

/-- The window of the row that holds now. -/
structure Holding (requests : Set Time) (close : Time → Time) (start now first finish : Time) : Prop where
  chained : ∃ last, Ended requests close start last ∧ Opens requests last first
  closed : close first = finish
  begun : first ≤ now
  running : now < finish

variable {requests : Set Time} {close : Time → Time} {start now last first finish : Time}

theorem follows_unique : Relator.RightUnique (Follows requests close) := by
  rintro last next other ⟨first, opens, rfl⟩ ⟨second, also, rfl⟩
  rw [opens.unique also]

theorem Follows.lt (closesLater : ∀ request ∈ requests, request < close request) {next : Time}
    (follows : Follows requests close last next) : last < next := by
  obtain ⟨first, opens, rfl⟩ := follows
  exact opens.1.2.trans_lt (closesLater first opens.1.1)

theorem Ended.le (closesLater : ∀ request ∈ requests, request < close request)
    (ended : Ended requests close start last) : start ≤ last := by
  induction ended with
  | refl => exact le_refl start
  | tail _ follows ih => exact ih.trans (follows.lt closesLater).le

/-- An end at or before now is the last one where the next window ends after now. -/
theorem lastEnd_of_ended (closesLater : ∀ request ∈ requests, request < close request)
    (ended : Ended requests close start last) (past : last ≤ now)
    (later : ∀ next, Follows requests close last next → now < next) :
    LastEnd requests close start now last := by
  refine ⟨⟨ended, past⟩, ?_⟩
  rintro other ⟨reached, before⟩
  rcases Relation.ReflTransGen.total_of_right_unique follows_unique reached ended with leads | leads
  · exact Ended.le closesLater leads
  · rcases leads.cases_head with same | ⟨next, follows, leads⟩
    · exact same.ge
    · have after : next ≤ other := Ended.le closesLater leads
      exact absurd ((later next follows).trans_le after) before.not_gt

theorem Holding.after_lastEnd (closesLater : ∀ request ∈ requests, request < close request)
    (holds : Holding requests close start now first finish) :
    ∃ last, LastEnd requests close start now last ∧ Opens requests last first := by
  obtain ⟨last, ended, opens⟩ := holds.chained
  refine ⟨last, lastEnd_of_ended closesLater ended (opens.1.2.trans holds.begun) ?_, opens⟩
  rintro next ⟨other, also, rfl⟩
  rw [also.unique opens, holds.closed]
  exact holds.running

theorem Holding.unique (closesLater : ∀ request ∈ requests, request < close request) {first' finish' : Time}
    (holds : Holding requests close start now first finish)
    (also : Holding requests close start now first' finish') : first = first' ∧ finish = finish' := by
  obtain ⟨last, greatest, opens⟩ := holds.after_lastEnd closesLater
  obtain ⟨last', greatest', opens'⟩ := also.after_lastEnd closesLater
  obtain rfl := greatest.unique greatest'
  obtain rfl := opens.unique opens'
  exact ⟨rfl, holds.closed.symm.trans also.closed⟩

end MeteredUsage.Library.GreedyWindows
