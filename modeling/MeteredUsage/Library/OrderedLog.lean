import Mathlib.Data.List.Basic
import Mathlib.Order.Lattice

/-! Lists kept in strictly increasing order of a key, read in windows of the key: the part
of the list between two keys, pages of it, and how windows that touch fit together. -/

namespace MeteredUsage.Library.OrderedLog

variable {Entry Key : Type*} [LinearOrder Key] (key : Entry → Key)

/-- Every entry's key is below those of the entries after it. -/
def Ordered (log : List Entry) : Prop := log.Pairwise fun first second => key first < key second

/-- The entries after one key, up to another, that a reader wants. -/
def window (log : List Entry) (after upTo : Key) (wanted : Entry → Bool) : List Entry :=
  log.filter fun entry => after < key entry && key entry ≤ upTo && wanted entry

variable {key}

theorem mem_window {log : List Entry} {after upTo : Key} {wanted : Entry → Bool} {entry : Entry} :
    entry ∈ window key log after upTo wanted ↔
      entry ∈ log ∧ after < key entry ∧ key entry ≤ upTo ∧ wanted entry = true := by
  simp only [window, List.mem_filter, Bool.and_eq_true, decide_eq_true_eq, and_assoc]

theorem window_append (first second : List Entry) (after upTo : Key) (wanted : Entry → Bool) :
    window key (first ++ second) after upTo wanted =
      window key first after upTo wanted ++ window key second after upTo wanted :=
  List.filter_append first second

theorem window_eq_nil {log : List Entry} {after upTo : Key} {wanted : Entry → Bool}
    (outside : ∀ entry ∈ log, after < key entry → key entry ≤ upTo → wanted entry = false) :
    window key log after upTo wanted = [] := by
  refine List.filter_eq_nil_iff.mpr fun entry member found => ?_
  simp only [Bool.and_eq_true, decide_eq_true_eq] at found
  rw [outside entry member found.1.1 found.1.2] at found
  exact Bool.false_ne_true found.2

/-- Reading on from where a window ended reads the rest of the wider window, in order. -/
theorem window_trans {log : List Entry} (ordered : Ordered key log) {start middle finish : Key}
    (lower : start ≤ middle) (upper : middle ≤ finish) (wanted : Entry → Bool) :
    window key log start middle wanted ++ window key log middle finish wanted =
      window key log start finish wanted := by
  induction log with
  | nil => rfl
  | cons first rest ih =>
    obtain ⟨before, tail⟩ := List.pairwise_cons.mp ordered
    have joined := ih tail
    by_cases low : key first ≤ middle
    · have inner : ¬ middle < key first := not_lt.mpr low
      have within : key first ≤ finish := low.trans upper
      simp only [window, List.filter_cons, low, inner, within, decide_true, decide_false,
        Bool.and_true, Bool.false_and, Bool.false_eq_true, if_false] at joined ⊢
      split <;> simp [joined]
    · have inner : middle < key first := not_le.mp low
      have empty : window key (first :: rest) start middle wanted = [] := by
        refine window_eq_nil fun entry member _ bound => ?_
        rcases List.mem_cons.mp member with rfl | later
        · exact absurd bound low
        · exact absurd (inner.trans (before entry later)) (not_lt.mpr bound)
      rw [empty, List.nil_append]
      refine List.filter_congr fun entry member => ?_
      have above : middle < key entry := by
        rcases List.mem_cons.mp member with rfl | later
        · exact inner
        · exact inner.trans (before entry later)
      simp only [above, lower.trans_lt above, decide_true]

/-- The first entries of an ordered list are those up to the last of them. -/
theorem take_eq_filter {log : List Entry} (ordered : Ordered key log) {count : Nat} {last : Entry}
    (final : (log.take count).getLast? = some last) :
    log.take count = log.filter fun entry => key entry ≤ key last := by
  obtain ⟨shorter, shape⟩ := List.getLast?_eq_some_iff.mp final
  have parts : log = (shorter ++ [last]) ++ log.drop count := by
    rw [← shape, List.take_append_drop]
  have sorted := ordered
  rw [Ordered, parts] at sorted
  obtain ⟨front, _, across⟩ := List.pairwise_append.mp sorted
  have kept : (shorter ++ [last]).filter (fun entry => key entry ≤ key last) = shorter ++ [last] := by
    refine List.filter_eq_self.mpr fun entry member => decide_eq_true ?_
    rcases List.mem_append.mp member with early | final
    · exact ((List.pairwise_append.mp front).2.2 entry early last (by simp)).le
    · rw [List.mem_singleton.mp final]
  have dropped : (log.drop count).filter (fun entry => key entry ≤ key last) = [] := by
    refine List.filter_eq_nil_iff.mpr fun entry member found => ?_
    exact absurd (across last (by simp) entry member) (not_lt.mpr (of_decide_eq_true found))
  rw [shape]
  conv_rhs => rw [parts, List.filter_append, kept, dropped, List.append_nil]

/-- A page of the entries after a key is the window that ends at the page's last entry. -/
theorem take_eq_window {log : List Entry} (ordered : Ordered key log) {after : Key}
    {wanted : Entry → Bool} {count : Nat} {last : Entry}
    (final : ((log.filter fun entry => after < key entry && wanted entry).take count).getLast? =
      some last) :
    (log.filter fun entry => after < key entry && wanted entry).take count =
      window key log after (key last) wanted := by
  have sorted : Ordered key (log.filter fun entry => after < key entry && wanted entry) :=
    ordered.filter _
  rw [take_eq_filter sorted final, List.filter_filter]
  refine List.filter_congr fun entry _ => ?_
  rw [Bool.and_right_comm, Bool.and_comm (decide (key entry ≤ key last))]

/-- A window that ends at or above every key leaves nothing out. -/
theorem filter_eq_window {log : List Entry} {after upTo : Key} {wanted : Entry → Bool}
    (bounded : ∀ entry ∈ log, key entry ≤ upTo) :
    (log.filter fun entry => after < key entry && wanted entry) =
      window key log after upTo wanted := by
  refine List.filter_congr fun entry member => ?_
  simp [bounded entry member]

end MeteredUsage.Library.OrderedLog
