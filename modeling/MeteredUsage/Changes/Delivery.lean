import MeteredUsage.Changes.Table
import MeteredUsage.Library.Execution
import MeteredUsage.Library.OrderedLog

/-! Readers of the change feed beside its writers. Writes are serialised and read a copy
of their own; every read sees what is committed. The service remembers what it committed
and every cursor it answered, so a reader's changes can be compared with them. -/

namespace MeteredUsage.Changes.Delivery
open MeteredUsage.Values MeteredUsage.Changes.Table
open MeteredUsage.Library.Execution MeteredUsage.Library.OrderedLog

/-- An open write transaction: its copy of the feed and the changes it has recorded. -/
structure Writer where
  feed : Feed
  recorded : List Change

/-- A consumer that follows the feed from a cursor, with the kinds it asks for. -/
structure Reader where
  start : Nat
  kinds : List ChangeKind
  cursor : Nat
  received : List Change
  expired : Bool

structure Service where
  feed : Feed
  writer : Option Writer
  committed : List Change
  given : List Nat
  reader : Option Reader

def Service.initial : Service := ⟨Feed.empty, none, [], [], none⟩

inductive Action where
  | begin
  | record (subject : Subject) (recordedAt : Timestamp)
  | prune (now : Timestamp)
  | commit
  | rollback
  /-- `Change::latest` by anyone. -/
  | latest
  /-- `Change::after` by anyone, from any cursor. -/
  | read (cursor : Nat) (kinds : List ChangeKind)
  | start (cursor : Nat) (kinds : List ChangeKind)
  | follow
deriving DecidableEq, Repr

def Reader.receive (reader : Reader) : Page → Reader
  | .changes changes cursor =>
    { reader with cursor := cursor, received := reader.received ++ changes }
  | .expired _ _ => { reader with expired := true }

def step (service : Service) : Action → Option Service
  | .begin => if service.writer.isSome then none else
      some { service with writer := some ⟨service.feed, []⟩ }
  | .record subject recordedAt => service.writer.map fun writer =>
      let change := writer.feed.next subject recordedAt
      { service with
        writer := some ⟨writer.feed.record subject recordedAt, writer.recorded ++ [change]⟩ }
  | .prune now => service.writer.map fun writer =>
      { service with writer := some ⟨writer.feed.prune now, writer.recorded⟩ }
  | .commit => service.writer.map fun writer =>
      { service with
        feed := writer.feed, committed := service.committed ++ writer.recorded, writer := none }
  | .rollback => service.writer.map fun _ => { service with writer := none }
  | .latest => some { service with given := service.feed.latest :: service.given }
  | .read cursor kinds =>
    match service.feed.after cursor kinds with
    | .ok page => some { service with given := page.next :: service.given }
    | .error _ => some service
  | .start cursor kinds =>
    if service.reader.isSome ∨ cursor ∉ service.given then none else
      some { service with reader := some ⟨cursor, kinds, cursor, [], false⟩ }
  | .follow => service.reader.bind fun reader =>
    if reader.expired then none else
      match service.feed.after reader.cursor reader.kinds with
      | .ok page => some { service with
          reader := some (reader.receive page), given := page.next :: service.given }
      | .error _ => some service

/-- The changes of the kinds a reader asks for. -/
def wantedChange (kinds : List ChangeKind) (change : Change) : Bool :=
  wanted kinds change.subject.kind.stored

/-- The feed still holds every logged change above its horizon, and answers the cursor
of the last one logged as its latest. -/
structure Keeps (feed : Feed) (log : List Change) : Prop where
  ordered : Ordered Change.cursor log
  bounded : ∀ change ∈ log, change.cursor ≤ feed.sequence
  latest : feed.latest = feed.sequence
  kept : feed.changes.filter (fun row => feed.prunedThrough < row.cursor) =
    (log.map Change.row).filter fun row => feed.prunedThrough < row.cursor

theorem keeps_empty : Keeps Feed.empty [] where
  ordered := List.Pairwise.nil
  bounded := by simp
  latest := rfl
  kept := rfl

theorem keeps_record {feed : Feed} {log : List Change} (keeps : Keeps feed log)
    (subject : Subject) (recordedAt : Timestamp) :
    Keeps (feed.record subject recordedAt) (log ++ [feed.next subject recordedAt]) where
  ordered := by
    refine List.pairwise_append.mpr ⟨keeps.ordered, List.pairwise_singleton _ _, ?_⟩
    intro first earlier second later
    rw [List.mem_singleton.mp later]
    exact Nat.lt_succ_of_le (keeps.bounded first earlier)
  bounded := by
    intro change member
    rcases List.mem_append.mp member with earlier | later
    · exact Nat.le_succ_of_le (keeps.bounded change earlier)
    · rw [List.mem_singleton.mp later]
      exact le_rfl
  latest := by
    refine le_antisymm (Feed.latest_le_sequence _) ?_
    have inserted : (feed.next subject recordedAt).row ∈ (feed.record subject recordedAt).changes := by
      simp [Feed.record]
    exact (feed.record subject recordedAt).cursor_le_latest inserted
  kept := by
    change (feed.changes ++ [_]).filter
      (fun row : StoredChange => feed.prunedThrough < row.cursor) = _
    rw [List.map_append, List.filter_append, List.filter_append, keeps.kept]
    rfl

theorem keeps_prune {feed : Feed} {log : List Change} (keeps : Keeps feed log) (now : Timestamp) :
    Keeps (feed.prune now) log where
  ordered := keeps.ordered
  bounded := keeps.bounded
  latest := le_antisymm (Feed.latest_le_sequence _)
    (keeps.latest.symm.le.trans (Feed.latest_prune feed now))
  kept := by
    have raised : feed.prunedThrough ≤ (feed.prune now).prunedThrough := Nat.le_max_left _ _
    have above (rows : List StoredChange) :
        rows.filter (fun row => (feed.prune now).prunedThrough < row.cursor) =
          (rows.filter fun row => feed.prunedThrough < row.cursor).filter
            fun row => (feed.prune now).prunedThrough < row.cursor := by
      rw [List.filter_filter]
      refine List.filter_congr fun row _ => ?_
      simp only [← Bool.decide_and, decide_eq_decide]
      omega
    have survives : (feed.prune now).changes.filter
          (fun row => (feed.prune now).prunedThrough < row.cursor) =
        feed.changes.filter fun row => (feed.prune now).prunedThrough < row.cursor := by
      simp only [Feed.prune, List.filter_filter]
      refine List.filter_congr fun row member => ?_
      by_cases old : row.recordedAt < now - retention
      · have covered : row.cursor ≤ (feed.prune now).prunedThrough := by
          refine le_trans (cursor_le_maxCursor ?_) (Nat.le_max_right _ _)
          simp [member, old]
        have outside : ¬ (feed.prune now).prunedThrough < row.cursor := not_lt.mpr covered
        simp only [Feed.prune] at outside
        simp [outside]
      · simp [old]
    rw [survives, above feed.changes, keeps.kept, ← above]

theorem mapM_read_row (changes : List Change) :
    (changes.map Change.row).mapM StoredChange.read = .ok changes := by
  induction changes with
  | nil => rfl
  | cons first rest ih =>
    simp only [List.map_cons, List.mapM_cons, Change.read_row, ih]
    rfl

/-- From a cursor at or above the horizon the rows are those of the log. -/
theorem rowsAfter_eq {feed : Feed} {log : List Change} (keeps : Keeps feed log) {cursor : Nat}
    (covered : feed.prunedThrough ≤ cursor) (kinds : List ChangeKind) :
    feed.rowsAfter cursor kinds = ((log.filter fun change =>
      cursor < change.cursor && wantedChange kinds change).take page).map Change.row := by
  have narrowed (rows : List StoredChange) :
      rows.filter (fun row => cursor < row.cursor && wanted kinds row.kind) =
        (rows.filter fun row => feed.prunedThrough < row.cursor).filter
          fun row => cursor < row.cursor && wanted kinds row.kind := by
    rw [List.filter_filter]
    refine List.filter_congr fun row _ => ?_
    by_cases above : cursor < row.cursor
    · simp [above, covered.trans_lt above]
    · simp [above]
  rw [Feed.rowsAfter, narrowed, keeps.kept, ← narrowed, List.filter_map, List.map_take]
  rfl

/-- An answer to a cursor the feed still covers is the window up to the cursor it hands
on, which is the latest one unless a full page stopped short of it. -/
theorem after_covered {feed : Feed} {log : List Change} (keeps : Keeps feed log) {cursor : Nat}
    (covered : feed.prunedThrough ≤ cursor) (bound : cursor ≤ feed.sequence)
    (kinds : List ChangeKind) :
    ∃ changes next, feed.after cursor kinds = .ok (.changes changes next) ∧
      cursor ≤ next ∧ next ≤ feed.sequence ∧
      changes = window Change.cursor log cursor next (wantedChange kinds) ∧
      (next = feed.sequence ∨ changes.length = page) := by
  have current : ¬(cursor < feed.prunedThrough ∨ cursor > feed.latest) := by
    rw [keeps.latest]
    omega
  let changes := (log.filter fun change =>
    cursor < change.cursor && wantedChange kinds change).take page
  have whole (short : changes.length ≠ page) :
      changes = window Change.cursor log cursor feed.sequence (wantedChange kinds) := by
    rw [← filter_eq_window keeps.bounded]
    refine List.take_of_length_le ?_
    have taken := List.length_take (i := page) (l := log.filter fun change =>
      cursor < change.cursor && wantedChange kinds change)
    change changes.length = _ at taken
    omega
  cases final : changes.getLast? with
  | none =>
    have empty : changes = [] := List.getLast?_eq_none_iff.mp final
    have short : changes.length ≠ page := by rw [empty]; decide
    have answered : feed.after cursor kinds = .ok (.changes changes feed.latest) := by
      simp only [Feed.after, if_neg current, rowsAfter_eq keeps covered, mapM_read_row]
      exact congrArg (fun next => Except.ok (Page.changes changes next)) (by rw [final])
    exact ⟨changes, feed.latest, answered, keeps.latest ▸ bound, keeps.latest.le,
      keeps.latest ▸ whole short, Or.inl keeps.latest⟩
  | some last =>
    by_cases full : changes.length = page
    · have member : last ∈ changes := List.mem_of_getLast? final
      have found := List.mem_filter.mp (List.mem_of_mem_take member)
      simp only [Bool.and_eq_true, decide_eq_true_eq] at found
      have answered : feed.after cursor kinds = .ok (.changes changes last.cursor) := by
        simp only [Feed.after, if_neg current, rowsAfter_eq keeps covered, mapM_read_row]
        exact congrArg (fun next => Except.ok (Page.changes changes next)) (by rw [final]; exact if_pos full)
      exact ⟨changes, last.cursor, answered, found.2.1.le, keeps.bounded last found.1,
        take_eq_window keeps.ordered final, Or.inr full⟩
    · have answered : feed.after cursor kinds = .ok (.changes changes feed.latest) := by
        simp only [Feed.after, if_neg current, rowsAfter_eq keeps covered, mapM_read_row]
        exact congrArg (fun next => Except.ok (Page.changes changes next)) (by rw [final]; exact if_neg full)
      exact ⟨changes, feed.latest, answered, keeps.latest ▸ bound, keeps.latest.le,
        keeps.latest ▸ whole full, Or.inl keeps.latest⟩

theorem length_after_le {feed : Feed} {log : List Change} (keeps : Keeps feed log) {cursor : Nat}
    (covered : feed.prunedThrough ≤ cursor) (bound : cursor ≤ feed.sequence)
    {kinds : List ChangeKind} {changes : List Change} {next : Nat}
    (answered : feed.after cursor kinds = .ok (.changes changes next)) : changes.length ≤ page := by
  have current : ¬(cursor < feed.prunedThrough ∨ cursor > feed.latest) := by
    rw [keeps.latest]
    omega
  simp only [Feed.after, if_neg current, rowsAfter_eq keeps covered, mapM_read_row] at answered
  cases answered
  exact List.length_take_le _ _

theorem after_expired {feed : Feed} {cursor : Nat}
    (outside : cursor < feed.prunedThrough ∨ cursor > feed.latest) (kinds : List ChangeKind) :
    feed.after cursor kinds = .ok (.expired feed.prunedThrough feed.latest) := by
  simp only [Feed.after, if_pos outside]
  rfl

/-- A reader has received the wanted changes between its start and its cursor. -/
structure Reading (feed : Feed) (log : List Change) (reader : Reader) : Prop where
  reached : reader.start ≤ reader.cursor
  bound : reader.cursor ≤ feed.sequence
  exact : reader.received =
    window Change.cursor log reader.start reader.cursor (wantedChange reader.kinds)
  expired : reader.expired = true → reader.cursor < feed.prunedThrough

/-- An open write goes on from what is committed. -/
structure Writing (feed : Feed) (log : List Change) (writer : Writer) : Prop where
  keeps : Keeps writer.feed (log ++ writer.recorded)
  later : feed.sequence ≤ writer.feed.sequence
  horizon : feed.prunedThrough ≤ writer.feed.prunedThrough
  fresh : ∀ change ∈ writer.recorded, feed.sequence < change.cursor

structure Invariant (service : Service) : Prop where
  keeps : Keeps service.feed service.committed
  writing : ∀ writer ∈ service.writer, Writing service.feed service.committed writer
  given : ∀ cursor ∈ service.given, cursor ≤ service.feed.sequence
  reading : ∀ reader ∈ service.reader, Reading service.feed service.committed reader

theorem invariant_initial : Invariant Service.initial where
  keeps := keeps_empty
  writing := by simp [Service.initial]
  given := by simp [Service.initial]
  reading := by simp [Service.initial]

/-- Changes committed above a reader's cursor are not yet its own. -/
theorem reading_commit {feed later : Feed} {log recorded : List Change} {reader : Reader}
    (reading : Reading feed log reader) (grown : feed.sequence ≤ later.sequence)
    (raised : feed.prunedThrough ≤ later.prunedThrough)
    (fresh : ∀ change ∈ recorded, feed.sequence < change.cursor) :
    Reading later (log ++ recorded) reader where
  reached := reading.reached
  bound := reading.bound.trans grown
  exact := by
    have unread : window Change.cursor recorded reader.start reader.cursor
        (wantedChange reader.kinds) = [] := by
      refine window_eq_nil fun change member _ low => ?_
      have above := fresh change member
      have bound := reading.bound
      omega
    rw [window_append, unread, List.append_nil]
    exact reading.exact
  expired := fun gone => (reading.expired gone).trans_le raised

/-- The cursor of an answer was committed. -/
theorem next_le_sequence {feed : Feed} {log : List Change} (keeps : Keeps feed log) {cursor : Nat}
    {kinds : List ChangeKind} {answer : Page} (answered : feed.after cursor kinds = .ok answer) :
    answer.next ≤ feed.sequence := by
  by_cases outside : cursor < feed.prunedThrough ∨ cursor > feed.latest
  · rw [after_expired outside] at answered
    cases answered
    exact feed.latest_le_sequence
  · rw [keeps.latest] at outside
    obtain ⟨changes, next, same, -, bound, -⟩ :=
      after_covered keeps (by omega) (by omega : cursor ≤ feed.sequence) kinds
    rw [same] at answered
    cases answered
    exact bound

/-- One read goes on exactly where the reader stood. -/
theorem reading_receive {feed : Feed} {log : List Change} (keeps : Keeps feed log)
    {reader : Reader} (reading : Reading feed log reader) (active : ¬reader.expired = true)
    {answer : Page} (answered : feed.after reader.cursor reader.kinds = .ok answer) :
    Reading feed log (reader.receive answer) := by
  by_cases covered : feed.prunedThrough ≤ reader.cursor
  · obtain ⟨changes, next, same, lower, upper, exact, -⟩ :=
      after_covered keeps covered reading.bound reader.kinds
    rw [same] at answered
    cases answered
    refine ⟨reading.reached.trans lower, upper, ?_, fun gone => absurd gone active⟩
    change reader.received ++ changes = _
    rw [reading.exact, exact]
    exact window_trans keeps.ordered reading.reached lower _
  · rw [after_expired (Or.inl (not_le.mp covered))] at answered
    cases answered
    exact ⟨reading.reached, reading.bound, reading.exact, fun _ => not_le.mp covered⟩

theorem invariant_step {service next : Service} {action : Action} (held : Invariant service)
    (taken : step service action = some next) : Invariant next := by
  cases action with
  | begin =>
    simp only [step, Option.ite_none_left_eq_some] at taken
    obtain ⟨-, taken⟩ := taken
    cases taken
    refine ⟨held.keeps, ?_, held.given, held.reading⟩
    rintro writer ⟨⟩
    exact ⟨by simpa using held.keeps, le_rfl, le_rfl, by simp⟩
  | record subject recordedAt =>
    simp only [step, Option.map_eq_some_iff] at taken
    obtain ⟨writer, writes, rfl⟩ := taken
    have writing := held.writing writer writes
    refine ⟨held.keeps, ?_, held.given, held.reading⟩
    rintro writer ⟨⟩
    refine ⟨?_, writing.later.trans (Nat.le_succ _), writing.horizon, ?_⟩
    · rw [← List.append_assoc]
      exact keeps_record writing.keeps subject recordedAt
    · intro change member
      rcases List.mem_append.mp member with earlier | final
      · exact writing.fresh change earlier
      · rw [List.mem_singleton.mp final]
        exact Nat.lt_succ_of_le writing.later
  | prune now =>
    simp only [step, Option.map_eq_some_iff] at taken
    obtain ⟨writer, writes, rfl⟩ := taken
    have writing := held.writing writer writes
    refine ⟨held.keeps, ?_, held.given, held.reading⟩
    rintro writer ⟨⟩
    exact ⟨keeps_prune writing.keeps now, writing.later,
      writing.horizon.trans (Nat.le_max_left _ _), writing.fresh⟩
  | commit =>
    simp only [step, Option.map_eq_some_iff] at taken
    obtain ⟨writer, writes, rfl⟩ := taken
    have writing := held.writing writer writes
    refine ⟨writing.keeps, by simp, fun cursor member =>
      (held.given cursor member).trans writing.later, fun reader reads => ?_⟩
    exact reading_commit (held.reading reader reads) writing.later writing.horizon writing.fresh
  | rollback =>
    simp only [step, Option.map_eq_some_iff] at taken
    obtain ⟨-, -, rfl⟩ := taken
    exact ⟨held.keeps, by simp, held.given, held.reading⟩
  | latest =>
    cases taken
    refine ⟨held.keeps, held.writing, fun cursor member => ?_, held.reading⟩
    rcases List.mem_cons.mp member with rfl | member
    · exact service.feed.latest_le_sequence
    · exact held.given cursor member
  | read cursor kinds =>
    simp only [step] at taken
    cases answered : service.feed.after cursor kinds with
    | error reason =>
      rw [answered] at taken
      cases taken
      exact held
    | ok answer =>
      rw [answered] at taken
      cases taken
      refine ⟨held.keeps, held.writing, fun cursor member => ?_, held.reading⟩
      rcases List.mem_cons.mp member with rfl | member
      · exact next_le_sequence held.keeps answered
      · exact held.given cursor member
  | start cursor kinds =>
    simp only [step, Option.ite_none_left_eq_some, not_or, not_not] at taken
    obtain ⟨⟨-, member⟩, taken⟩ := taken
    cases taken
    refine ⟨held.keeps, held.writing, held.given, ?_⟩
    rintro reader ⟨⟩
    refine ⟨le_rfl, held.given cursor member, ?_, by simp⟩
    refine (window_eq_nil fun change _ low high => ?_).symm
    exact absurd (low.trans_le high) (lt_irrefl _)
  | follow =>
    simp only [step, Option.bind_eq_some_iff, Option.ite_none_left_eq_some] at taken
    obtain ⟨reader, reads, active, taken⟩ := taken
    cases answered : service.feed.after reader.cursor reader.kinds with
    | error reason =>
      rw [answered] at taken
      cases taken
      exact held
    | ok answer =>
      rw [answered] at taken
      cases taken
      refine ⟨held.keeps, held.writing, fun cursor member => ?_, ?_⟩
      · rcases List.mem_cons.mp member with rfl | member
        · exact next_le_sequence held.keeps answered
        · exact held.given cursor member
      · rintro receiving ⟨⟩
        exact reading_receive held.keeps (held.reading reader reads) active answered

/-- What a later state keeps of an earlier one: its committed changes come first, all others
lie above its sequence, and a reader goes on under the start and kinds it began with. -/
structure Extends (service next : Service) : Prop where
  grown : service.feed.sequence ≤ next.feed.sequence
  committed : ∃ recorded, next.committed = service.committed ++ recorded ∧
    ∀ change ∈ recorded, service.feed.sequence < change.cursor
  reader : ∀ reader ∈ service.reader, ∃ later ∈ next.reader,
    later.start = reader.start ∧ later.kinds = reader.kinds ∧
      (reader.expired = true → later = reader)

theorem Extends.refl (service : Service) : Extends service service :=
  ⟨le_rfl, ⟨[], by simp, by simp⟩, fun reader reads => ⟨reader, reads, rfl, rfl, fun _ => rfl⟩⟩

theorem Extends.trans {service middle next : Service} (first : Extends service middle)
    (second : Extends middle next) : Extends service next where
  grown := first.grown.trans second.grown
  committed := by
    obtain ⟨early, earlier, above⟩ := first.committed
    obtain ⟨late, later, higher⟩ := second.committed
    refine ⟨early ++ late, by rw [later, earlier, List.append_assoc], fun change member => ?_⟩
    rcases List.mem_append.mp member with member | member
    · exact above change member
    · exact first.grown.trans_lt (higher change member)
  reader := by
    intro reader reads
    obtain ⟨between, going, start, kinds, gone⟩ := first.reader reader reads
    obtain ⟨later, ends, start', kinds', gone'⟩ := second.reader between going
    refine ⟨later, ends, start'.trans start, kinds'.trans kinds, fun expired => ?_⟩
    have same := gone expired
    rw [← same] at expired ⊢
    exact gone' expired

/-- Only a read of its own moves a reader. -/
theorem reader_step {service next : Service} {action : Action} {reader : Reader}
    (taken : step service action = some next) (other : action ≠ .follow)
    (reads : service.reader = some reader) : next.reader = some reader := by
  cases action with
  | follow => exact absurd rfl other
  | start cursor kinds => simp [step, reads] at taken
  | begin =>
    simp only [step, Option.ite_none_left_eq_some] at taken
    cases taken.2
    exact reads
  | latest =>
    cases taken
    exact reads
  | read cursor kinds =>
    simp only [step] at taken
    split at taken <;> cases taken <;> exact reads
  | record | prune | commit | rollback =>
    simp only [step, Option.map_eq_some_iff] at taken
    obtain ⟨-, -, rfl⟩ := taken
    exact reads

theorem follow_cases {service next : Service} (held : Invariant service)
    (taken : step service .follow = some next) :
    ∃ reader answer, service.reader = some reader ∧ reader.expired = false ∧
      service.feed.after reader.cursor reader.kinds = .ok answer ∧
      next = { service with
        reader := some (reader.receive answer), given := answer.next :: service.given } := by
  simp only [step, Option.bind_eq_some_iff, Option.ite_none_left_eq_some] at taken
  obtain ⟨reader, reads, active, taken⟩ := taken
  have answers : ∃ answer, service.feed.after reader.cursor reader.kinds = .ok answer := by
    by_cases covered : service.feed.prunedThrough ≤ reader.cursor
    · obtain ⟨changes, following, same, -⟩ :=
        after_covered held.keeps covered (held.reading reader reads).bound reader.kinds
      exact ⟨_, same⟩
    · exact ⟨_, after_expired (Or.inl (not_le.mp covered)) _⟩
  obtain ⟨answer, answered⟩ := answers
  rw [answered] at taken
  cases taken
  exact ⟨reader, answer, reads, by simpa using active, answered, rfl⟩

theorem extends_step {service next : Service} {action : Action} (held : Invariant service)
    (taken : step service action = some next) : Extends service next := by
  by_cases follows : action = .follow
  · subst follows
    obtain ⟨reader, answer, reads, active, -, rfl⟩ := follow_cases held taken
    refine ⟨le_rfl, ⟨[], by simp, by simp⟩, fun other same => ?_⟩
    rw [reads] at same
    cases same
    refine ⟨_, rfl, ?_, ?_, fun gone => absurd gone (by simp [active])⟩ <;> cases answer <;> rfl
  · have readers : ∀ reader ∈ service.reader, ∃ later ∈ next.reader,
        later.start = reader.start ∧ later.kinds = reader.kinds ∧
          (reader.expired = true → later = reader) := fun reader reads =>
      ⟨reader, reader_step taken follows reads, rfl, rfl, fun _ => rfl⟩
    by_cases commits : action = .commit
    · subst commits
      simp only [step, Option.map_eq_some_iff] at taken
      obtain ⟨writer, writes, rfl⟩ := taken
      have writing := held.writing writer writes
      exact ⟨writing.later, ⟨writer.recorded, rfl, writing.fresh⟩, readers⟩
    · have still : next.feed = service.feed ∧ next.committed = service.committed := by
        cases action with
        | follow => exact absurd rfl follows
        | commit => exact absurd rfl commits
        | begin | start =>
          simp only [step, Option.ite_none_left_eq_some] at taken
          cases taken.2
          exact ⟨rfl, rfl⟩
        | latest =>
          cases taken
          exact ⟨rfl, rfl⟩
        | read cursor kinds =>
          simp only [step] at taken
          split at taken <;> cases taken <;> exact ⟨rfl, rfl⟩
        | record | prune | rollback =>
          simp only [step, Option.map_eq_some_iff] at taken
          obtain ⟨-, -, rfl⟩ := taken
          exact ⟨rfl, rfl⟩
      exact ⟨still.1 ▸ le_rfl, ⟨[], by simpa using still.2, by simp⟩, readers⟩

theorem extends_run {service finish : Service} {actions : List Action} (held : Invariant service)
    (reached : run step service actions = some finish) : Extends service finish := by
  have preserved (start : Service) (action : Action) (next : Service)
      (known : Invariant start ∧ Extends service start) (taken : step start action = some next) :
      Invariant next ∧ Extends service next :=
    ⟨invariant_step known.1 taken, known.2.trans (extends_step known.1 taken)⟩
  exact (invariant_run_free preserved ⟨held, Extends.refl service⟩ reached).2

/-- The wanted changes up to a cursor that a reader has still to receive. -/
def pending (log : List Change) (target : Nat) (reader : Reader) : List Change :=
  window Change.cursor log reader.cursor target (wantedChange reader.kinds)

/-- One answered read leaves nothing pending, or a page less. -/
theorem pending_follow {service : Service} (held : Invariant service) {reader : Reader}
    (reads : service.reader = some reader) {answer : Page}
    (answered : service.feed.after reader.cursor reader.kinds = .ok answer)
    (active : (reader.receive answer).expired = false) {target : Nat}
    (bound : target ≤ service.feed.sequence) :
    (pending service.committed target (reader.receive answer)).length ≤
      (pending service.committed target reader).length - page := by
  have reading := held.reading reader reads
  by_cases covered : service.feed.prunedThrough ≤ reader.cursor
  · obtain ⟨changes, next, same, lower, -, exact, rest⟩ :=
      after_covered held.keeps covered reading.bound reader.kinds
    rw [same] at answered
    cases answered
    by_cases ends : target ≤ next
    · have drained : pending service.committed target (reader.receive (.changes changes next)) = [] :=
        window_eq_nil fun change _ low high => absurd (low.trans_le high) (not_lt.mpr ends)
      rw [drained]
      exact Nat.zero_le _
    · have full := rest.resolve_left (by omega)
      have joined := window_trans held.keeps.ordered lower (not_le.mp ends).le
        (wantedChange reader.kinds)
      have lengths := congrArg List.length joined
      rw [List.length_append, ← exact, full] at lengths
      change (window Change.cursor service.committed next target (wantedChange reader.kinds)).length ≤
        (window Change.cursor service.committed reader.cursor target _).length - page
      omega
  · rw [after_expired (Or.inl (not_le.mp covered))] at answered
    cases answered
    exact absurd active (by simp [Reader.receive])

/-- Reading on often enough, whatever happens in between, leaves nothing pending. -/
theorem pending_run {service finish : Service} {actions : List Action} (held : Invariant service)
    {reader last : Reader} (reads : service.reader = some reader)
    (reached : run step service actions = some finish) (ends : finish.reader = some last)
    (active : last.expired = false) {target : Nat} (bound : target ≤ service.feed.sequence)
    (enough : (pending service.committed target reader).length ≤ page * actions.count .follow) :
    pending finish.committed target last = [] := by
  induction actions generalizing service reader with
  | nil =>
    cases reached
    rw [reads] at ends
    cases ends
    exact List.length_eq_zero_iff.mp (by simpa using enough)
  | cons action rest ih =>
    obtain ⟨next, taken, later⟩ := (run_cons step _ _ _ _).mp reached
    have grown := extends_step held taken
    have kept := invariant_step held taken
    by_cases follows : action = .follow
    · subst follows
      obtain ⟨reader, answer, same, -, answered, rfl⟩ := follow_cases held taken
      rw [reads] at same
      cases same
      have alive : (reader.receive answer).expired = false := by
        by_contra gone
        obtain ⟨still, final, -, -, unmoved⟩ := (extends_run kept later).reader _ rfl
        rw [ends] at final
        cases final
        have expired : (reader.receive answer).expired = true := by simpa using gone
        rw [unmoved expired, expired] at active
        cases active
      have shorter := pending_follow held reads answered alive bound
      refine ih kept rfl later bound ?_
      simp only [List.count_cons_self, Nat.mul_add, Nat.mul_one] at enough
      change (pending service.committed target (reader.receive answer)).length ≤ _
      omega
    · obtain ⟨recorded, committed, above⟩ := grown.committed
      refine ih kept (reader_step taken follows reads) later (bound.trans grown.grown) ?_
      have unread : window Change.cursor recorded reader.cursor target
          (wantedChange reader.kinds) = [] := by
        refine window_eq_nil fun change member _ high => ?_
        have fresh := above change member
        omega
      rw [List.count_cons_of_ne follows] at enough
      rw [pending, committed, window_append, unread, List.append_nil]
      exact enough

/-- A reader that starts from a cursor it was given and reads on has received, once and in
cursor order, exactly the changes of its kinds between its start and its cursor; what is
committed after it starts lies above its start; enough reads reach everything committed
before them; and an answer is `Expired` only when changes above the cursor were pruned. -/
theorem reader_receives_every_change {before later : List Action}
    {service begun finish : Service} {cursor : Nat} {kinds : List ChangeKind}
    (reached : run step Service.initial before = some service)
    (started : step service (.start cursor kinds) = some begun)
    (continued : run step begun later = some finish) :
    ∃ reader, finish.reader = some reader ∧
      reader.received = (finish.committed.filter fun change => cursor < change.cursor &&
        change.cursor ≤ reader.cursor && wantedChange kinds change) ∧
      finish.committed.Pairwise (fun first second => first.cursor < second.cursor) ∧
      (∃ recorded, finish.committed = service.committed ++ recorded ∧
        ∀ change ∈ recorded, cursor < change.cursor) ∧
      (∀ first second middle, later = first ++ second → run step begun first = some middle →
        reader.expired = false → middle.committed.length ≤ page * second.count .follow →
        ∀ change ∈ middle.committed, cursor < change.cursor → wantedChange kinds change = true →
          change ∈ reader.received) ∧
      (reader.expired = true → reader.cursor < finish.feed.prunedThrough) := by
  have held := invariant_run_free (fun _ _ _ => invariant_step) invariant_initial reached
  have kept := invariant_step held started
  have final := invariant_run_free (fun _ _ _ => invariant_step) kept continued
  simp only [step, Option.ite_none_left_eq_some, not_or, not_not] at started
  obtain ⟨⟨-, member⟩, started⟩ := started
  cases started
  have grown := extends_run kept continued
  obtain ⟨reader, ends, rfl, rfl, -⟩ := grown.reader _ rfl
  have reading := final.reading reader ends
  refine ⟨reader, ends, reading.exact, final.keeps.ordered, ?_, ?_, reading.expired⟩
  · obtain ⟨recorded, committed, above⟩ := grown.committed
    exact ⟨recorded, committed, fun change later =>
      (held.given _ member).trans_lt (above change later)⟩
  · intro first second middle split halfway active enough change committed above wants
    subst split
    obtain ⟨_, halfway', rest⟩ := (run_append step _ _ _ _).mp continued
    rw [halfway] at halfway'
    cases halfway'
    have midway := invariant_run_free (fun _ _ _ => invariant_step) kept halfway
    obtain ⟨between, going, -, kinds, -⟩ := (extends_run kept halfway).reader _ rfl
    have few : (pending middle.committed middle.feed.sequence between).length ≤
        page * second.count .follow := (List.length_filter_le _ _).trans enough
    have drained := pending_run midway going rest ends active le_rfl few
    obtain ⟨recorded, all, -⟩ := (extends_run midway rest).committed
    have present : change ∈ finish.committed := by
      rw [all]
      exact List.mem_append_left _ committed
    rw [reading.exact]
    refine mem_window.mpr ⟨present, above, ?_, wants⟩
    by_contra beyond
    have found : change ∈ pending finish.committed middle.feed.sequence reader :=
      mem_window.mpr ⟨present, not_le.mp beyond, midway.keeps.bounded change committed, wants⟩
    rw [drained] at found
    cases found

/-- A reader that starts after the first change, and of two more commits asks only for
account changes. -/
theorem reader_receives_account_change :
    ∃ service begun finish reader,
      run step Service.initial [.begin, .record .usage 0, .commit, .latest] = some service ∧
      step service (.start 1 [.accountChanged]) = some begun ∧
      run step begun [.begin, .record (.account 7) 5, .record .usage 5, .commit, .follow] =
        some finish ∧
      finish.reader = some reader ∧ reader.received = [⟨2, 5, .account 7⟩] := by
  obtain ⟨reader, ends, received, -⟩ := @reader_receives_every_change
    [.begin, .record .usage 0, .commit, .latest]
    [.begin, .record (.account 7) 5, .record .usage 5, .commit, .follow]
    _ _ _ 1 [.accountChanged] rfl rfl rfl
  refine ⟨_, _, _, reader, rfl, rfl, rfl, ends, received.trans ?_⟩
  cases ends
  decide

end MeteredUsage.Changes.Delivery
