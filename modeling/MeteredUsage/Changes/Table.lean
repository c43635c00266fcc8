import Mathlib.Data.Prod.Lex
import Mathlib.Data.List.Sort
import Mathlib.Data.String.Basic
import MeteredUsage.Values

/-! The change feed: the `change` table with its AUTOINCREMENT cursor, the horizon pruning
raises, and the reads and writes of both. A feed carries the facts SQLite keeps for it,
so a table out of cursor order or a cursor above its sequence cannot be built. -/

namespace MeteredUsage.Changes.Table
open MeteredUsage.Values

inductive ChangeKind where
  | quotaUpdated
  | resetUpdated
  | priceChanged
  | accountChanged
  | planChanged
  | usageUpdated
  | requestArrived
  | quotaAction
deriving DecidableEq, Repr

def ChangeKind.all : List ChangeKind :=
  [.quotaUpdated, .resetUpdated, .priceChanged, .accountChanged, .planChanged, .usageUpdated,
    .quotaAction, .requestArrived]

def ChangeKind.stored : ChangeKind → String
  | .quotaUpdated => "quota.updated"
  | .resetUpdated => "reset.updated"
  | .priceChanged => "price.changed"
  | .accountChanged => "account.changed"
  | .planChanged => "plan.changed"
  | .usageUpdated => "usage.updated"
  | .requestArrived => "request.arrived"
  | .quotaAction => "quota.action"

def ChangeKind.fromStr (text : String) : Option ChangeKind :=
  ChangeKind.all.find? fun kind => kind.stored = text

theorem ChangeKind.fromStr_stored (kind : ChangeKind) : fromStr kind.stored = some kind := by
  cases kind <;> decide

theorem ChangeKind.stored_injective : Function.Injective ChangeKind.stored := by
  intro first second same
  have parsed := congrArg fromStr same
  rw [fromStr_stored, fromStr_stored] at parsed
  exact Option.some.inj parsed

/-- What changed, or which account received a request. -/
inductive Subject where
  | account (accountId : AccountId)
  | window (accountId : AccountId) (windowKey : String)
  | resets (accountId : AccountId)
  | price (model : String)
  | plan (planId : PlanId)
  | usage
  | quotaAction
  | arrival (accountId : AccountId) (failed : Bool)
deriving DecidableEq, Repr

def Subject.kind : Subject → ChangeKind
  | .account _ => .accountChanged
  | .window _ _ => .quotaUpdated
  | .resets _ => .resetUpdated
  | .price _ => .priceChanged
  | .plan _ => .planChanged
  | .usage => .usageUpdated
  | .quotaAction => .quotaAction
  | .arrival _ _ => .requestArrived

/-- The derived order of the enumeration: the variant first, then its fields. -/
def Subject.rank : Subject → ℕ ×ₗ ℕ ×ₗ String
  | .account accountId => toLex (0, toLex (accountId, ""))
  | .window accountId windowKey => toLex (1, toLex (accountId, windowKey))
  | .resets accountId => toLex (2, toLex (accountId, ""))
  | .price model => toLex (3, toLex (0, model))
  | .plan planId => toLex (4, toLex (planId, ""))
  | .usage => toLex (5, toLex (0, ""))
  | .quotaAction => toLex (6, toLex (0, ""))
  | .arrival accountId failed => toLex (7, toLex (accountId, if failed then "true" else "false"))

structure Change where
  cursor : Nat
  recordedAt : Timestamp
  subject : Subject
deriving DecidableEq, Repr

/-- A row of the `change` table. -/
structure StoredChange where
  cursor : Nat
  kind : String
  accountId : Option AccountId
  windowKey : Option String
  model : Option String
  planId : Option PlanId
  failed : Option Bool
  recordedAt : Timestamp
deriving DecidableEq, Repr

/-- The row `record` inserts for a subject. -/
def Change.row (change : Change) : StoredChange :=
  let columns : Option AccountId × Option String × Option String × Option PlanId × Option Bool :=
    match change.subject with
    | .account accountId | .resets accountId => (some accountId, none, none, none, none)
    | .window accountId windowKey => (some accountId, some windowKey, none, none, none)
    | .price model => (none, none, some model, none, none)
    | .plan planId => (none, none, none, some planId, none)
    | .usage | .quotaAction => (none, none, none, none, none)
    | .arrival accountId failed => (some accountId, none, none, none, some failed)
  { cursor := change.cursor
    kind := change.subject.kind.stored
    accountId := columns.1
    windowKey := columns.2.1
    model := columns.2.2.1
    planId := columns.2.2.2.1
    failed := columns.2.2.2.2
    recordedAt := change.recordedAt }

/-- Reads a row back; columns its kind does not have make it unreadable. -/
def StoredChange.read (stored : StoredChange) : Except DatabaseError Change := do
  let unreadable := DatabaseError.unreadable "change"
  let kind ← (ChangeKind.fromStr stored.kind).elim (.error unreadable) .ok
  let subject ←
    match kind, stored.accountId, stored.windowKey, stored.model, stored.planId, stored.failed with
    | .accountChanged, some accountId, none, none, none, none => .ok (Subject.account accountId)
    | .quotaUpdated, some accountId, some windowKey, none, none, none =>
      .ok (.window accountId windowKey)
    | .resetUpdated, some accountId, none, none, none, none => .ok (.resets accountId)
    | .priceChanged, none, none, some model, none, none => .ok (.price model)
    | .planChanged, none, none, none, some planId, none => .ok (.plan planId)
    | .usageUpdated, none, none, none, none, none => .ok .usage
    | .quotaAction, none, none, none, none, none => .ok .quotaAction
    | .requestArrived, some accountId, none, none, none, some failed =>
      .ok (.arrival accountId failed)
    | _, _, _, _, _, _ => .error unreadable
  .ok ⟨stored.cursor, stored.recordedAt, subject⟩

theorem Change.read_row (change : Change) : change.row.read = .ok change := by
  obtain ⟨cursor, recordedAt, subject⟩ := change
  cases subject <;>
    simp only [Change.row, StoredChange.read, Subject.kind, ChangeKind.fromStr_stored,
      Option.elim_some] <;> rfl

@[simp] theorem Change.row_cursor (change : Change) : change.row.cursor = change.cursor := rfl
@[simp] theorem Change.row_recordedAt (change : Change) :
    change.row.recordedAt = change.recordedAt := rfl
@[simp] theorem Change.row_kind (change : Change) :
    change.row.kind = change.subject.kind.stored := rfl

/-- How long a change is kept. -/
def retention : Int := hours (7 * 24)
/-- The most changes one read answers. -/
def page : Nat := 500

/-- `COALESCE(MAX(cursor), 0)` over some rows. -/
def maxCursor (changes : List StoredChange) : Nat := (changes.map StoredChange.cursor).foldr max 0

theorem cursor_le_maxCursor {changes : List StoredChange} {change : StoredChange}
    (member : change ∈ changes) : change.cursor ≤ maxCursor changes := by
  induction changes with
  | nil => cases member
  | cons first rest ih =>
    rcases List.mem_cons.mp member with same | later
    · subst same
      exact Nat.le_max_left _ _
    · exact (ih later).trans (Nat.le_max_right _ _)

theorem maxCursor_le {changes : List StoredChange} {bound : Nat}
    (bounded : ∀ change ∈ changes, change.cursor ≤ bound) : maxCursor changes ≤ bound := by
  induction changes with
  | nil => exact Nat.zero_le _
  | cons first rest ih =>
    exact Nat.max_le.mpr ⟨bounded first (by simp),
      ih fun change member => bounded change (List.mem_cons_of_mem _ member)⟩

/-- The `change` table in cursor order, its AUTOINCREMENT sequence and `change_horizon`. -/
structure Feed where
  changes : List StoredChange
  sequence : Nat
  prunedThrough : Nat
  ordered : changes.Pairwise fun first second => first.cursor < second.cursor
  bounded : ∀ change ∈ changes, change.cursor ≤ sequence
  horizon : prunedThrough ≤ sequence

def Feed.empty : Feed where
  changes := []
  sequence := 0
  prunedThrough := 0
  ordered := List.Pairwise.nil
  bounded := by simp
  horizon := le_rfl

/-- The change the next `record` inserts. -/
def Feed.next (feed : Feed) (subject : Subject) (recordedAt : Timestamp) : Change :=
  ⟨feed.sequence + 1, recordedAt, subject⟩

/-- Records the change in the write's transaction, so it commits with what changed. -/
def Feed.record (feed : Feed) (subject : Subject) (recordedAt : Timestamp) : Feed where
  changes := feed.changes ++ [(feed.next subject recordedAt).row]
  sequence := feed.sequence + 1
  prunedThrough := feed.prunedThrough
  ordered := by
    refine List.pairwise_append.mpr ⟨feed.ordered, List.pairwise_singleton _ _, ?_⟩
    intro first earlier second later
    rw [List.mem_singleton.mp later]
    exact Nat.lt_succ_of_le (feed.bounded first earlier)
  bounded := by
    intro change member
    rcases List.mem_append.mp member with earlier | later
    · exact Nat.le_succ_of_le (feed.bounded change earlier)
    · rw [List.mem_singleton.mp later]
      exact le_rfl
  horizon := Nat.le_succ_of_le feed.horizon

/-- The subjects recorded since a state of the feed, oldest first. -/
def Feed.since (feed before : Feed) : List Subject :=
  (feed.changes.filter fun change => before.sequence < change.cursor).filterMap fun change =>
    change.read.toOption.map Change.subject

/-- The feed after some subjects, each recorded at its time. -/
def Feed.recordAll (feed : Feed) (entries : List (Subject × Timestamp)) : Feed :=
  entries.foldl (fun feed entry => feed.record entry.1 entry.2) feed

/-- The cursor of the last change committed, or of the last one pruned when none is kept. -/
def Feed.latest (feed : Feed) : Nat := max (maxCursor feed.changes) feed.prunedThrough

/-- Deletes every change recorded before `now` less the retention and raises the horizon
over them. -/
def Feed.prune (feed : Feed) (now : Timestamp) : Feed where
  changes := feed.changes.filter fun change => ¬change.recordedAt < now - retention
  sequence := feed.sequence
  prunedThrough := max feed.prunedThrough
    (maxCursor (feed.changes.filter fun change => change.recordedAt < now - retention))
  ordered := feed.ordered.filter _
  bounded := fun change member => feed.bounded change (List.mem_of_mem_filter member)
  horizon := Nat.max_le.mpr ⟨feed.horizon, maxCursor_le fun change member =>
    feed.bounded change (List.mem_of_mem_filter member)⟩

/-- What a reader finds after its cursor. -/
inductive Page where
  | changes (changes : List Change) (cursor : Nat)
  | expired (oldest latest : Nat)
deriving DecidableEq, Repr

/-- The cursor an answer hands its caller to go on from. -/
def Page.next : Page → Nat
  | .changes _ cursor => cursor
  | .expired _ latest => latest

/-- The kinds a read keeps: those it names, or every one when it names none. -/
def wanted (kinds : List ChangeKind) (kind : String) : Bool :=
  kinds.isEmpty || (kinds.map ChangeKind.stored).contains kind

/-- The rows after `cursor` of the given kinds, oldest first, at most a page of them. -/
def Feed.rowsAfter (feed : Feed) (cursor : Nat) (kinds : List ChangeKind) : List StoredChange :=
  (feed.changes.filter fun change => cursor < change.cursor && wanted kinds change.kind).take page

/-- The changes after `cursor` of the given kinds, or of every kind when none is given. -/
def Feed.after (feed : Feed) (cursor : Nat) (kinds : List ChangeKind) :
    Except DatabaseError Page := do
  let oldest := feed.prunedThrough
  let latest := feed.latest
  if cursor < oldest ∨ cursor > latest then
    return .expired oldest latest
  let changes ← (feed.rowsAfter cursor kinds).mapM StoredChange.read
  let cursor := match changes.getLast? with
    | some last => if changes.length = page then last.cursor else latest
    | none => latest
  return .changes changes cursor

theorem Feed.latest_le_sequence (feed : Feed) : feed.latest ≤ feed.sequence :=
  Nat.max_le.mpr ⟨maxCursor_le feed.bounded, feed.horizon⟩

theorem Feed.cursor_le_latest (feed : Feed) {change : StoredChange}
    (member : change ∈ feed.changes) : change.cursor ≤ feed.latest :=
  (cursor_le_maxCursor member).trans (Nat.le_max_left _ _)

theorem Feed.latest_prune (feed : Feed) (now : Timestamp) : feed.latest ≤ (feed.prune now).latest := by
  refine Nat.max_le.mpr ⟨maxCursor_le fun change member => ?_,
    (Nat.le_max_left _ _).trans (Nat.le_max_right _ _)⟩
  by_cases old : change.recordedAt < now - retention
  · have kept : change ∈ feed.changes.filter fun change => change.recordedAt < now - retention := by
      simp [member, old]
    exact (cursor_le_maxCursor kept).trans ((Nat.le_max_right _ _).trans (Nat.le_max_right _ _))
  · refine (feed.prune now).cursor_le_latest ?_
    simp only [Feed.prune, List.mem_filter, member, decide_eq_true_eq, true_and]
    exact old

theorem Feed.since_self (feed : Feed) : feed.since feed = [] := by
  have none_later : feed.changes.filter (fun change => decide (feed.sequence < change.cursor)) = [] := by
    apply List.filter_eq_nil_iff.mpr
    intro change member
    simpa using feed.bounded change member
  rw [Feed.since, none_later, List.filterMap_nil]

theorem Feed.since_record {feed before : Feed} (later : before.sequence ≤ feed.sequence)
    (subject : Subject) (recordedAt : Timestamp) :
    (feed.record subject recordedAt).since before = feed.since before ++ [subject] := by
  have newer : before.sequence < feed.sequence + 1 := Nat.lt_succ_of_le later
  simp [Feed.since, Feed.record, Feed.next, newer, Change.read_row, Except.toOption]

theorem Feed.recordAll_append (feed : Feed) (first rest : List (Subject × Timestamp)) :
    feed.recordAll (first ++ rest) = (feed.recordAll first).recordAll rest := List.foldl_append

theorem Feed.since_recordAll {feed before : Feed} (later : before.sequence ≤ feed.sequence)
    (entries : List (Subject × Timestamp)) :
    (feed.recordAll entries).since before = feed.since before ++ entries.map Prod.fst := by
  induction entries generalizing feed with
  | nil => simp [Feed.recordAll]
  | cons entry rest ih =>
    have next := @ih (feed.record entry.1 entry.2) (Nat.le_succ_of_le later)
    rw [Feed.since_record later, List.append_assoc] at next
    exact next

end MeteredUsage.Changes.Table
