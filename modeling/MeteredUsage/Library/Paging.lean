import Mathlib.Data.List.Infix
import Mathlib.Data.List.Sort
import MeteredUsage.Library.Keyed
import MeteredUsage.Library.OrderedLog

/-! Reading a log page by page, each from the last entry of the one before it. A walk through a log
that stays as it is ends with the first page that is not full. A reader of a log that grows at its end
misses nothing and reads nothing twice, and has caught up whenever a page is not full. -/

namespace MeteredUsage.Library.Paging
open MeteredUsage.Library.Keyed MeteredUsage.Library.OrderedLog

variable {Entry Key : Type*} [LinearOrder Key] {key : Entry → Key} {limit : Nat}

section Sorted

variable {rows first second : List Entry}

/-- The rows of a table in order of their key. -/
def sorted (key : Entry → Key) (rows : List Entry) : List Entry :=
  rows.insertionSort fun first second => key first ≤ key second

theorem sorted_perm : (sorted key rows).Perm rows := List.perm_insertionSort _ _

theorem mem_sorted {entry : Entry} : entry ∈ sorted key rows ↔ entry ∈ rows := sorted_perm.mem_iff

theorem length_sorted : (sorted key rows).length = rows.length := sorted_perm.length_eq

theorem ordered_sorted (distinct : Distinct key rows) : Ordered key (sorted key rows) := by
  have total : Std.Total fun first second : Entry => key first ≤ key second :=
    ⟨fun first second => le_total (key first) (key second)⟩
  have trans : IsTrans Entry fun first second => key first ≤ key second :=
    ⟨fun _ _ _ below above => below.trans above⟩
  have apart : Distinct key (sorted key rows) :=
    sorted_perm.symm.pairwise distinct fun apart => apart.symm
  exact (apart.and (List.pairwise_insertionSort _ rows)).imp fun both => lt_of_le_of_ne both.2 both.1

theorem eq_of_ordered (left : Ordered key first) (right : Ordered key second)
    (perm : first.Perm second) : first = second :=
  perm.eq_of_pairwise (fun _ _ _ _ below above => absurd above below.asymm) left right

theorem filter_sorted (distinct : Distinct key rows) (kept : Entry → Bool) :
    (sorted key rows).filter kept = sorted key (rows.filter kept) :=
  eq_of_ordered ((ordered_sorted distinct).filter kept) (ordered_sorted (distinct.filter kept))
    ((sorted_perm.filter kept).trans sorted_perm.symm)

theorem sorted_append (distinct : Distinct key (first ++ second))
    (across : ∀ entry ∈ first, ∀ other ∈ second, key entry < key other) :
    sorted key (first ++ second) = sorted key first ++ sorted key second := by
  obtain ⟨front, back, _⟩ := List.pairwise_append.mp distinct
  apply eq_of_ordered (ordered_sorted distinct)
  · refine List.pairwise_append.mpr ⟨ordered_sorted front, ordered_sorted back, ?_⟩
    intro entry early other late
    exact across entry (mem_sorted.mp early) other (mem_sorted.mp late)
  · exact sorted_perm.trans (sorted_perm.symm.append sorted_perm.symm)

end Sorted

/-- The pages of a reader who goes on while they are full, as `read` answers at each turn. -/
def walk (key : Entry → Key) (limit : Nat) (read : Nat → Option Key → List Entry) :
    Nat → Nat → Option Key → List (List Entry)
  | 0, _, _ => []
  | fuel + 1, turn, cursor =>
    let page := read turn cursor
    page :: if page.length = limit then
      page.getLast?.elim [] fun last => walk key limit read fuel (turn + 1) (some (key last))
    else []

/-- The pages of a reader who goes on from the last entry it has, full or not. -/
def follow (key : Entry → Key) (read : Nat → Key → List Entry) :
    Nat → Nat → Key → List (List Entry)
  | 0, _, _ => []
  | count + 1, turn, cursor =>
    let page := read turn cursor
    page :: follow key read count (turn + 1) ((page.getLast?.map key).getD cursor)

/-- What comes after the last entry of a part is what comes after the part. -/
theorem filter_after {first rest : List Entry} {last : Entry}
    (ordered : Ordered key (first ++ rest)) (final : first.getLast? = some last) :
    ((first ++ rest).filter fun entry => key last < key entry) = rest := by
  have member := List.mem_of_getLast? final
  obtain ⟨front, _, across⟩ := List.pairwise_append.mp ordered
  obtain ⟨shorter, shape⟩ := List.getLast?_eq_some_iff.mp final
  have dropped : (first.filter fun entry => key last < key entry) = [] := by
    rw [List.filter_eq_nil_iff]
    intro entry here above
    rw [shape] at here front
    have less := of_decide_eq_true above
    rcases List.mem_append.mp here with early | same
    · exact lt_asymm less ((List.pairwise_append.mp front).2.2 entry early last (by simp))
    · rw [List.mem_singleton.mp same] at less
      exact lt_irrefl _ less
  have kept : (rest.filter fun entry => key last < key entry) = rest := by
    rw [List.filter_eq_self]
    exact fun entry here => decide_eq_true (across last member entry here)
  rw [List.filter_append, dropped, kept, List.nil_append]

/-- The beginning of a log that reaches a key holds every entry up to it. -/
theorem mem_start_of_le {start log : List Entry} (ordered : Ordered key log) (starts : start <+: log)
    {entry reached : Entry} (member : entry ∈ log) (shown : reached ∈ start)
    (below : key entry ≤ key reached) : entry ∈ start := by
  obtain ⟨rest, whole⟩ := starts
  rw [← whole] at ordered member
  rcases List.mem_append.mp member with here | beyond
  · exact here
  · exact absurd ((List.pairwise_append.mp ordered).2.2 reached shown entry beyond) below.not_gt

section Walk

variable {log : List Entry} {read : Nat → Option Key → List Entry}

/-- A walk from anywhere in a log reads the rest of it, each entry once and in order, in one page more
than are full, and ends with a page that is not. -/
theorem walk_reads (ordered : Ordered key log) (positive : 0 < limit)
    (reads : ∀ turn, ∀ entry ∈ log, read turn (some (key entry)) =
      (log.filter fun later => key entry < key later).take limit)
    (fuel turn : Nat) (cursor : Option Key) {done rest : List Entry} (parts : log = done ++ rest)
    (first : read turn cursor = rest.take limit) (enough : rest.length / limit < fuel) :
    (walk key limit read fuel turn cursor).flatten = rest ∧
      (walk key limit read fuel turn cursor).length = rest.length / limit + 1 ∧
      ∃ last, (walk key limit read fuel turn cursor).getLast? = some last ∧ last.length < limit := by
  induction fuel generalizing turn cursor done rest with
  | zero => exact absurd enough (Nat.not_lt_zero _)
  | succ fuel ih =>
    rw [walk, first]
    by_cases full : limit ≤ rest.length
    · have width : (rest.take limit).length = limit := by
        rw [List.length_take]
        omega
      have some : rest.take limit ≠ [] := by
        intro empty
        rw [empty] at width
        exact positive.ne width
      have final := List.getLast?_eq_some_getLast some
      have whole : log = (done ++ rest.take limit) ++ rest.drop limit := by
        rw [List.append_assoc, List.take_append_drop]
        exact parts
      have last : (done ++ rest.take limit).getLast? = .some ((rest.take limit).getLast some) := by
        rw [List.getLast?_append, final]
        rfl
      have member : (rest.take limit).getLast some ∈ log := by
        rw [whole]
        exact List.mem_append_left _ (List.mem_append_right _ (List.getLast_mem some))
      have next := reads (turn + 1) _ member
      have later := filter_after (whole ▸ ordered) last
      rw [← whole] at later
      rw [later] at next
      have fewer : rest.length / limit = (rest.drop limit).length / limit + 1 := by
        rw [List.length_drop]
        exact Nat.div_eq_sub_div positive full
      obtain ⟨pages, count, ends⟩ := ih (turn + 1) _ whole next (by omega)
      simp only [width, if_true, final, Option.elim_some]
      refine ⟨?_, ?_, ?_⟩
      · rw [List.flatten_cons, pages, List.take_append_drop]
      · rw [List.length_cons, count, fewer]
      · obtain ⟨short, end_, width⟩ := ends
        refine ⟨short, ?_, width⟩
        rw [List.getLast?_cons, end_]
        rfl
    · have page : rest.take limit = rest := List.take_of_length_le (by omega)
      have short : rest.length ≠ limit := by omega
      rw [page]
      simp only [short, if_false]
      refine ⟨List.flatten_singleton, ?_, rest, rfl, by omega⟩
      rw [List.length_singleton, Nat.div_eq_of_lt (by omega)]

end Walk

section Follow

omit [LinearOrder Key] in
theorem length_follow (read : Nat → Key → List Entry) (count turn : Nat) (cursor : Key) :
    (follow key read count turn cursor).length = count := by
  induction count generalizing turn cursor with
  | zero => rfl
  | succ count ih => rw [follow, List.length_cons, ih]

/-- What a log holds after a cursor. -/
def after (key : Entry → Key) (log : List Entry) (cursor : Key) : List Entry :=
  log.filter fun entry => cursor < key entry

/-- Where a reader goes on after a page. -/
def advanced (key : Entry → Key) (cursor : Key) (page : List Entry) : Key :=
  (page.getLast?.map key).getD cursor

/-- A page comes before what the log holds after it, however the log has grown. -/
theorem after_eq_append {log : List Entry} (ordered : Ordered key log) {cursor : Key}
    {page : List Entry} (starts : page <+: after key log cursor) :
    after key log cursor = page ++ after key log (advanced key cursor page) := by
  obtain ⟨rest, whole⟩ := starts
  rw [← whole, List.append_cancel_left_eq]
  unfold advanced
  cases final : page.getLast? with
  | none =>
    rw [List.getLast?_eq_none_iff.mp final, List.nil_append] at whole
    rw [Option.map_none, Option.getD_none, whole]
  | some last =>
    have sorted : Ordered key (page ++ rest) := whole.symm ▸ ordered.filter _
    have member : last ∈ after key log cursor := by
      rw [← whole]
      exact List.mem_append_left _ (List.mem_of_getLast? final)
    have above : cursor < key last := of_decide_eq_true (List.mem_filter.mp member).2
    have later := filter_after sorted final
    rw [Option.map_some, Option.getD_some, ← later, whole]
    unfold after
    rw [List.filter_filter]
    refine List.filter_congr fun entry _ => ?_
    by_cases beyond : key last < key entry
    · simp [beyond, above.trans beyond]
    · simp [beyond]

theorem after_starts {first second : List Entry} (grows : first <+: second) (cursor : Key) :
    after key first cursor <+: after key second cursor := grows.filter _

/-- A log that grows at its end, and pages of it that are read after a cursor. -/
structure Served (key : Entry → Key) (limit : Nat) (logs : Nat → List Entry)
    (read : Nat → Key → List Entry) : Prop where
  ordered : ∀ turn, Ordered key (logs turn)
  grows : ∀ turn, logs turn <+: logs (turn + 1)
  reads : ∀ turn cursor, read turn cursor = (after key (logs turn) cursor).take limit

variable {logs : Nat → List Entry} {read : Nat → Key → List Entry}
  (served : Served key limit logs read)
include served

theorem Served.logs_start {first second : Nat} (later : first ≤ second) :
    logs first <+: logs second := by
  induction later with
  | refl => exact List.prefix_rfl
  | step _ ih => exact ih.trans (served.grows _)

theorem Served.read_starts {turn later : Nat} (order : turn ≤ later) (cursor : Key) :
    read turn cursor <+: after key (logs later) cursor := by
  rw [served.reads]
  exact (List.take_prefix _ _).trans (after_starts (served.logs_start order) cursor)

/-- What a follower has is the beginning of what the log holds by then after where it began. -/
theorem Served.follow_starts (count turn : Nat) (cursor : Key) {later : Nat}
    (order : turn + count ≤ later + 1) :
    (follow key read count turn cursor).flatten <+: after key (logs later) cursor := by
  induction count generalizing turn cursor with
  | zero => exact List.nil_prefix
  | succ count ih =>
    have page := served.read_starts (by omega : turn ≤ later) cursor
    have rest := ih (turn + 1) (advanced key cursor (read turn cursor)) (by omega)
    rw [follow, List.flatten_cons, after_eq_append (served.ordered later) page]
    exact (List.prefix_append_right_inj _).mpr rest

/-- So many pages have what the log held after where they began when the first was read, as far as so
many pages go. -/
theorem Served.take_prefix_follow (count turn : Nat) (cursor : Key) :
    (after key (logs turn) cursor).take (count * limit) <+:
      (follow key read count turn cursor).flatten := by
  induction count generalizing turn cursor with
  | zero =>
    rw [Nat.zero_mul, List.take_zero]
    exact List.nil_prefix
  | succ count ih =>
    have page := served.reads turn cursor
    rw [follow, List.flatten_cons]
    by_cases full : limit ≤ (after key (logs turn) cursor).length
    · have width : (read turn cursor).length = limit := by
        rw [page, List.length_take]
        omega
      have rest : (count + 1) * limit - (read turn cursor).length = count * limit := by
        rw [width, Nat.succ_mul]
        omega
      have short : (read turn cursor).length ≤ (count + 1) * limit := by
        rw [width]
        exact Nat.le_mul_of_pos_left _ (Nat.succ_pos _)
      have grown : after key (logs turn) (advanced key cursor (read turn cursor)) <+:
          after key (logs (turn + 1)) (advanced key cursor (read turn cursor)) :=
        after_starts (served.grows turn) _
      rw [after_eq_append (served.ordered turn) (served.read_starts (le_refl turn) cursor),
        List.take_append, List.take_of_length_le short, rest]
      exact (List.prefix_append_right_inj _).mpr
        ((grown.take _).trans (ih (turn + 1) (advanced key cursor (read turn cursor))))
    · have whole : read turn cursor = after key (logs turn) cursor := by
        rw [page]
        exact List.take_of_length_le (by omega)
      rw [whole]
      exact (List.take_prefix _ _).trans (List.prefix_append _ _)

/-- A page that is not full is the last of what the log held when it was read. -/
theorem Served.follow_eq_of_short (count turn : Nat) (cursor : Key) {last : List Entry}
    (final : (follow key read (count + 1) turn cursor).getLast? = some last)
    (short : last.length < limit) :
    (follow key read (count + 1) turn cursor).flatten = after key (logs (turn + count)) cursor := by
  induction count generalizing turn cursor with
  | zero =>
    rw [follow, follow, List.getLast?_singleton, Option.some.injEq, served.reads] at final
    rw [follow, follow, List.flatten_singleton, served.reads, Nat.add_zero]
    apply List.take_of_length_le
    rw [← final, List.length_take] at short
    omega
  | succ count ih =>
    have later : (follow key read (count + 1) (turn + 1)
        (advanced key cursor (read turn cursor))).getLast? = some last := by
      rw [follow, List.getLast?_cons, follow, List.getLast?_cons, Option.getD_some] at final
      rw [follow, List.getLast?_cons]
      exact final
    have rest := ih (turn + 1) _ later
    have order : turn + 1 + count = turn + (count + 1) := by omega
    rw [order] at rest
    rw [follow, List.flatten_cons,
      after_eq_append (served.ordered _) (served.read_starts (by omega : turn ≤ turn + (count + 1)) cursor)]
    exact congrArg (read turn cursor ++ ·) rest

end Follow

end MeteredUsage.Library.Paging
