import Mathlib.Order.Lattice
import MeteredUsage.Codec
import MeteredUsage.Library.Execution
import MeteredUsage.Library.Keyed

/-! The window an account was seen in, as the four writes that touch it keep it: two columns that
only ever widen, around every request charged to the account. The columns are of any ordered type;
the database holds them as text, and takes `MIN` and `MAX` of texts. -/

namespace MeteredUsage.Store.SeenWindows
open MeteredUsage.Values MeteredUsage.Codec MeteredUsage.Library.Keyed MeteredUsage.Library.Execution

/-- The columns of `account` that its window depends on. -/
structure Seen (Column : Type) where
  id : AccountId
  sourceId : SourceId
  upstreamKey : String
  mergedInto : Option AccountId
  firstSeenAt : Column
  lastSeenAt : Column
deriving DecidableEq, Repr

/-- The columns of `usage_event` that say whom a request is charged to, and when it was. -/
structure Charge (Column : Type) where
  sourceId : SourceId
  recordHash : String
  accountId : AccountId
  occurredAt : Column
deriving DecidableEq, Repr

structure Rows (Column : Type) where
  accounts : List (Seen Column)
  events : List (Charge Column)
deriving DecidableEq, Repr

def Rows.empty {Column : Type} : Rows Column := ⟨[], []⟩

section Operations

variable {Column : Type} [LinearOrder Column]

/-- `first_seen_at = MIN(first_seen_at, ?), last_seen_at = MAX(last_seen_at, ?)`. -/
def Seen.widen (first last : Column) (account : Seen Column) : Seen Column :=
  { account with
    firstSeenAt := min account.firstSeenAt first
    lastSeenAt := max account.lastSeenAt last }

def holdsKey (sourceId : SourceId) (key : String) (account : Seen Column) : Bool :=
  account.sourceId = sourceId && account.upstreamKey = key

/-- `INSERT INTO account … ON CONFLICT (source_id, upstream_key) DO UPDATE SET …`, answering the
row as it is stored. -/
def upsert (row : Seen Column) (conflict : Seen Column → Seen Column) (rows : Rows Column) :
    Option (Seen Column × Rows Column) :=
  if rows.accounts.any (·.id = row.id) then none
  else match rows.accounts.find? (holdsKey row.sourceId row.upstreamKey) with
    | some known => some (conflict known, { rows with
        accounts := rows.accounts.map fun account =>
          if holdsKey row.sourceId row.upstreamKey account then conflict account else account })
    | none => some (row, { rows with accounts := rows.accounts ++ [row] })

/-- `UPDATE account SET … WHERE account_id = ?`. -/
def updateAccount (id : AccountId) (change : Seen Column → Seen Column) (rows : Rows Column) :
    Rows Column :=
  { rows with accounts := rows.accounts.map fun account =>
      if account.id = id then change account else account }

/-- A credential's row as it is first stored. -/
def fresh (candidate : AccountId) (sourceId : SourceId) (key : String) (at_ : Column) : Seen Column :=
  ⟨candidate, sourceId, key, none, at_, at_⟩

/-- `Account::resolve`. -/
def resolve (candidate : AccountId) (sourceId : SourceId) (key : String) (seenAt : Column)
    (rows : Rows Column) : Option (AccountId × Rows Column) :=
  (upsert (fresh candidate sourceId key seenAt) (Seen.widen seenAt seenAt) rows).map
    fun (row, next) => match row.mergedInto with
      | none => (row.id, next)
      | some target => (target, updateAccount target (Seen.widen seenAt seenAt) next)

/-- `Account::register`, which leaves a known account its window. -/
def register (candidate : AccountId) (sourceId : SourceId) (key : String) (observedAt : Column)
    (rows : Rows Column) : Option (AccountId × Rows Column) :=
  (upsert (fresh candidate sourceId key observedAt) id rows).map
    fun (row, next) => (row.mergedInto.getD row.id, next)

/-- One record of `ingest`: its account is resolved, and its event stored unless the source has
delivered it before. -/
def ingest (candidate : AccountId) (sourceId : SourceId) (key recordHash : String)
    (occurredAt : Column) (rows : Rows Column) : Option (Rows Column) :=
  (resolve candidate sourceId key occurredAt rows).map fun (accountId, next) =>
    if next.events.any fun event => event.sourceId = sourceId && event.recordHash = recordHash then next
    else { next with events := next.events ++ [⟨sourceId, recordHash, accountId, occurredAt⟩] }

def moveEvents (id into : AccountId) (rows : Rows Column) : Rows Column :=
  { rows with events := rows.events.map fun event =>
      if event.accountId = id then { event with accountId := into } else event }

def pointAt (id into : AccountId) (rows : Rows Column) : Rows Column :=
  { rows with accounts := rows.accounts.map fun account =>
      if account.id = id ∨ account.mergedInto = some id then { account with mergedInto := some into }
      else account }

/-- `Account::merge`. -/
def merge (id into : AccountId) (rows : Rows Column) : Option (Rows Column) :=
  if id = into then none
  else do
    let merged ← rows.accounts.find? (·.id = id)
    let target ← rows.accounts.find? (·.id = into)
    if merged.sourceId = target.sourceId ∧ merged.mergedInto = none ∧ target.mergedInto = none then
      some (updateAccount into (Seen.widen merged.firstSeenAt merged.lastSeenAt)
        (pointAt id into (moveEvents id into rows)))
    else none

inductive Operation (Column : Type) where
  | resolve (candidate : AccountId) (sourceId : SourceId) (key : String) (seenAt : Column)
  | register (candidate : AccountId) (sourceId : SourceId) (key : String) (observedAt : Column)
  | ingest (candidate : AccountId) (sourceId : SourceId) (key recordHash : String)
    (occurredAt : Column)
  | merge (id into : AccountId)
deriving DecidableEq, Repr

/-- An operation that a constraint refuses leaves no trace: its transaction is dropped. -/
def step (rows : Rows Column) : Operation Column → Option (Rows Column)
  | .resolve candidate sourceId key seenAt =>
    (resolve candidate sourceId key seenAt rows).map Prod.snd
  | .register candidate sourceId key observedAt =>
    (register candidate sourceId key observedAt rows).map Prod.snd
  | .ingest candidate sourceId key recordHash occurredAt =>
    ingest candidate sourceId key recordHash occurredAt rows
  | .merge id into => merge id into rows

/-- An unmerged account of the id, with a window around an instant. -/
def Seen.Spans (id : AccountId) (at_ : Column) (account : Seen Column) : Prop :=
  account.id = id ∧ account.mergedInto = none ∧ account.firstSeenAt ≤ at_ ∧ at_ ≤ account.lastSeenAt

/-- Every request lies in the window of the account it is charged to, which is not merged. -/
structure Covers (rows : Rows Column) : Prop where
  ids : Distinct Seen.id rows.accounts
  merges : ∀ account ∈ rows.accounts, ∀ target, account.mergedInto = some target →
    ∃ other ∈ rows.accounts, other.id = target ∧ other.mergedInto = none
  covered : ∀ event ∈ rows.events, ∃ account ∈ rows.accounts,
    account.Spans event.accountId event.occurredAt

theorem covers_empty : Covers (Rows.empty : Rows Column) := ⟨List.Pairwise.nil, nofun, nofun⟩

/-- The other account is the same one, with a window no narrower. -/
def Seen.Within (account other : Seen Column) : Prop :=
  other.id = account.id ∧ other.firstSeenAt ≤ account.firstSeenAt ∧
    account.lastSeenAt ≤ other.lastSeenAt

/-- No account is lost, and no window narrows. -/
def Widened (before after : Rows Column) : Prop :=
  ∀ account ∈ before.accounts, ∃ other ∈ after.accounts, account.Within other

theorem Seen.Within.trans {first second third : Seen Column} (left : first.Within second)
    (right : second.Within third) : first.Within third :=
  ⟨right.1.trans left.1, right.2.1.trans left.2.1, left.2.2.trans right.2.2⟩

theorem Widened.refl (rows : Rows Column) : Widened rows rows := fun account member =>
  ⟨account, member, rfl, le_refl _, le_refl _⟩

theorem Widened.trans {first second third : Rows Column} (left : Widened first second)
    (right : Widened second third) : Widened first third := by
  intro account member
  obtain ⟨other, stored, within⟩ := left account member
  obtain ⟨last, kept, wider⟩ := right other stored
  exact ⟨last, kept, within.trans wider⟩

/-- A change that only widens. -/
structure Widening (change : Seen Column → Seen Column) : Prop where
  within : ∀ account : Seen Column, account.Within (change account)
  mergedInto : ∀ account, (change account).mergedInto = account.mergedInto

theorem widening_widen (first last : Column) : Widening (Seen.widen first last) :=
  ⟨fun _ => ⟨rfl, min_le_left _ _, le_max_left _ _⟩, fun _ => rfl⟩

theorem widening_id : Widening (id : Seen Column → Seen Column) :=
  ⟨fun _ => ⟨rfl, le_rfl, le_rfl⟩, fun _ => rfl⟩

theorem Widening.onlyWhere {change : Seen Column → Seen Column} (widening : Widening change)
    (chosen : Seen Column → Prop) [DecidablePred chosen] :
    Widening fun account => if chosen account then change account else account where
  within account := by
    split
    next => exact widening.within account
    next => exact ⟨rfl, le_rfl, le_rfl⟩
  mergedInto account := by
    split
    next => exact widening.mergedInto account
    next => rfl

variable {rows next : Rows Column} {change : Seen Column → Seen Column} {at_ : Column}

theorem Widening.spans (widening : Widening change) {account : Seen Column} {id : AccountId}
    (spans : account.Spans id at_) : (change account).Spans id at_ := by
  obtain ⟨same, root, first, last⟩ := spans
  obtain ⟨kept, earlier, later⟩ := widening.within account
  exact ⟨kept.trans same, (widening.mergedInto account).trans root, earlier.trans first, last.trans later⟩

theorem Widening.widened (widening : Widening change) (events : List (Charge Column)) :
    Widened rows ⟨rows.accounts.map change, events⟩ := fun account member =>
  ⟨change account, List.mem_map_of_mem member, widening.within account⟩

theorem Covers.map (covers : Covers rows) (widening : Widening change) :
    Covers { rows with accounts := rows.accounts.map change } where
  ids := covers.ids.map fun account => (widening.within account).1
  merges := by
    intro account member target merged
    obtain ⟨stored, kept, rfl⟩ := List.mem_map.mp member
    rw [widening.mergedInto] at merged
    obtain ⟨other, known, same, root⟩ := covers.merges stored kept target merged
    exact ⟨change other, List.mem_map_of_mem known, (widening.within other).1.trans same,
      (widening.mergedInto other).trans root⟩
  covered := by
    intro event member
    obtain ⟨account, stored, spans⟩ := covers.covered event member
    exact ⟨change account, List.mem_map_of_mem stored, widening.spans spans⟩

theorem Covers.append (covers : Covers rows) {row : Seen Column}
    (free : ∀ account ∈ rows.accounts, account.id ≠ row.id) (root : row.mergedInto = none) :
    Covers { rows with accounts := rows.accounts ++ [row] } where
  ids := covers.ids.append_singleton free
  merges := by
    intro account member target merged
    rcases List.mem_append.mp member with stored | new
    · obtain ⟨other, known, same, unmerged⟩ := covers.merges account stored target merged
      exact ⟨other, List.mem_append_left _ known, same, unmerged⟩
    · rw [List.mem_singleton.mp new, root] at merged
      cases merged
  covered := by
    intro event member
    obtain ⟨account, stored, spans⟩ := covers.covered event member
    exact ⟨account, List.mem_append_left _ stored, spans⟩

/-- What an upsert answers and leaves: its row is there, and no window is narrower. -/
theorem upsert_spec (covers : Covers rows) (widening : Widening change) {row stored : Seen Column}
    (root : row.mergedInto = none) (upserted : upsert row change rows = some (stored, next)) :
    Covers next ∧ Widened rows next ∧ next.events = rows.events ∧ stored ∈ next.accounts ∧
      (stored = row ∨ ∃ known ∈ rows.accounts, stored = change known) := by
  unfold upsert at upserted
  split at upserted
  next => cases upserted
  next free =>
    split at upserted
    next known found =>
      cases upserted
      have chosen := widening.onlyWhere fun account =>
        holdsKey row.sourceId row.upstreamKey account = true
      refine ⟨covers.map chosen, chosen.widened rows.events, rfl, ?_, .inr ?_⟩
      · exact List.mem_map.mpr ⟨known, List.mem_of_find?_eq_some found,
          if_pos (List.find?_some found)⟩
      · exact ⟨known, List.mem_of_find?_eq_some found, rfl⟩
    next =>
      cases upserted
      have unused : ∀ account ∈ rows.accounts, account.id ≠ row.id := by simpa using free
      refine ⟨covers.append unused root, ?_, rfl, by simp, .inl rfl⟩
      exact fun account member => ⟨account, List.mem_append_left _ member, rfl, le_rfl, le_rfl⟩

/-- A request's account is not merged, and its window covers the request. -/
theorem resolve_spec (covers : Covers rows) {candidate id : AccountId} {sourceId : SourceId}
    {key : String} (resolved : resolve candidate sourceId key at_ rows = some (id, next)) :
    Covers next ∧ Widened rows next ∧ next.events = rows.events ∧
      ∃ account ∈ next.accounts, account.Spans id at_ := by
  obtain ⟨⟨row, middle⟩, upserted, answered⟩ := Option.map_eq_some_iff.mp resolved
  have widening := widening_widen at_ at_
  obtain ⟨kept, widened, events, stored, origin⟩ := upsert_spec covers widening rfl upserted
  have seen : row.firstSeenAt ≤ at_ ∧ at_ ≤ row.lastSeenAt := by
    rcases origin with rfl | ⟨known, _, rfl⟩
    · exact ⟨le_rfl, le_rfl⟩
    · exact ⟨min_le_right _ _, le_max_right _ _⟩
  dsimp only at answered
  split at answered
  next root =>
    cases answered
    exact ⟨kept, widened, events, row, stored, rfl, root, seen⟩
  next merged =>
    cases answered
    obtain ⟨other, known, same, root⟩ := kept.merges row stored id merged
    have chosen := widening.onlyWhere fun account => account.id = id
    refine ⟨kept.map chosen, widened.trans (chosen.widened middle.events), events,
      other.widen at_ at_, ?_, same, root, min_le_right _ _, le_max_right _ _⟩
    exact List.mem_map.mpr ⟨other, known, if_pos same⟩

theorem register_spec (covers : Covers rows) {candidate id : AccountId} {sourceId : SourceId}
    {key : String} (registered : register candidate sourceId key at_ rows = some (id, next)) :
    Covers next ∧ Widened rows next := by
  obtain ⟨⟨row, middle⟩, upserted, answered⟩ := Option.map_eq_some_iff.mp registered
  obtain ⟨kept, widened, _⟩ := upsert_spec covers widening_id rfl upserted
  cases answered
  exact ⟨kept, widened⟩

theorem ingest_spec (covers : Covers rows) {candidate : AccountId} {sourceId : SourceId}
    {key recordHash : String}
    (ingested : ingest candidate sourceId key recordHash at_ rows = some next) :
    Covers next ∧ Widened rows next := by
  obtain ⟨⟨id, middle⟩, resolved, stored⟩ := Option.map_eq_some_iff.mp ingested
  obtain ⟨kept, widened, events, account, member, spans⟩ := resolve_spec covers resolved
  dsimp only at stored
  split at stored
  next =>
    cases stored
    exact ⟨kept, widened⟩
  next =>
    cases stored
    refine ⟨⟨kept.ids, kept.merges, ?_⟩, widened⟩
    intro event present
    rcases List.mem_append.mp present with earlier | new
    · exact kept.covered event earlier
    · rw [List.mem_singleton.mp new]
      exact ⟨account, member, spans⟩

/-- An account after a merge of `id` into `into`, before the window widens. -/
def pointed (id into : AccountId) (account : Seen Column) : Seen Column :=
  if account.id = id ∨ account.mergedInto = some id then { account with mergedInto := some into }
  else account

/-- An account as a merge of `id` into `into` leaves it. -/
def combined (id into : AccountId) (merged account : Seen Column) : Seen Column :=
  if (pointed id into account).id = into then
    (pointed id into account).widen merged.firstSeenAt merged.lastSeenAt
  else pointed id into account

theorem within_pointed (id into : AccountId) (account : Seen Column) :
    account.Within (pointed id into account) := by
  unfold pointed
  split
  next => exact ⟨rfl, le_rfl, le_rfl⟩
  next => exact ⟨rfl, le_rfl, le_rfl⟩

theorem within_combined (id into : AccountId) (merged account : Seen Column) :
    account.Within (combined id into merged account) :=
  (within_pointed id into account).trans
    (((widening_widen merged.firstSeenAt merged.lastSeenAt).onlyWhere
      fun account => account.id = into).within _)

theorem mergedInto_combined (id into : AccountId) (merged account : Seen Column) :
    (combined id into merged account).mergedInto = (pointed id into account).mergedInto :=
  ((widening_widen merged.firstSeenAt merged.lastSeenAt).onlyWhere
    fun account => account.id = into).mergedInto _

omit [LinearOrder Column] in
theorem pointed_root {id into : AccountId} {account : Seen Column} (apart : account.id ≠ id)
    (root : account.mergedInto = none) : pointed id into account = account := by
  unfold pointed
  rw [if_neg]
  rintro (same | points)
  · exact apart same
  · rw [root] at points
    cases points

/-- A merge moves the requests of an account under the window of another, which widens over the
window they were in. -/
theorem merge_spec (covers : Covers rows) {id into : AccountId} (merged : merge id into rows = some next) :
    Covers next ∧ Widened rows next := by
  unfold merge at merged
  split at merged
  next => cases merged
  next apart =>
    obtain ⟨old, oldFound, merged⟩ := Option.bind_eq_some_iff.mp merged
    obtain ⟨new, newFound, merged⟩ := Option.bind_eq_some_iff.mp merged
    split at merged
    case isFalse => cases merged
    case isTrue roots =>
    obtain ⟨_, oldRoot, newRoot⟩ := roots
    have oldStored := List.mem_of_find?_eq_some oldFound
    have newStored := List.mem_of_find?_eq_some newFound
    have oldId : old.id = id := by simpa using List.find?_some oldFound
    have newId : new.id = into := by simpa using List.find?_some newFound
    have newApart : new.id ≠ id := newId ▸ Ne.symm apart
    have left : next = ⟨rows.accounts.map (combined id into old), rows.events.map fun event =>
        if event.accountId = id then { event with accountId := into } else event⟩ := by
      cases merged
      simp only [updateAccount, pointAt, moveEvents, List.map_map]
      rfl
    have stays (account : Seen Column) : (combined id into old account).id = account.id :=
      (within_combined id into old account).1
    have target : ∃ account ∈ next.accounts, account.id = into ∧ account.mergedInto = none ∧
        account.firstSeenAt ≤ old.firstSeenAt ∧ old.lastSeenAt ≤ account.lastSeenAt := by
      subst left
      refine ⟨combined id into old new, List.mem_map_of_mem newStored, (stays new).trans newId, ?_, ?_⟩
      · rw [mergedInto_combined, pointed_root newApart newRoot, newRoot]
      · unfold combined
        rw [pointed_root newApart newRoot, if_pos newId]
        exact ⟨min_le_right _ _, le_max_right _ _⟩
    -- An account that is not merged, and is not the one merged here, is still there.
    have rooted (account : Seen Column) (member : account ∈ rows.accounts) (other : account.id ≠ id)
        (root : account.mergedInto = none) : combined id into old account ∈ next.accounts ∧
          (combined id into old account).mergedInto = none := by
      subst left
      exact ⟨List.mem_map_of_mem member, by rw [mergedInto_combined, pointed_root other root, root]⟩
    refine ⟨⟨?_, ?_, ?_⟩, ?_⟩
    · rw [left]
      exact covers.ids.map stays
    · intro account member other points
      rw [left] at member
      obtain ⟨stored, kept, rfl⟩ := List.mem_map.mp member
      rw [mergedInto_combined] at points
      unfold pointed at points
      split at points
      next =>
        cases points
        obtain ⟨found, present, same, root, _⟩ := target
        exact ⟨found, present, same, root⟩
      next free =>
        obtain ⟨found, present, same, root⟩ := covers.merges stored kept other points
        have elsewhere : found.id ≠ id := by
          intro equal
          exact free (.inr (points.trans (congrArg some (same.symm.trans equal))))
        obtain ⟨stays', root'⟩ := rooted found present elsewhere root
        exact ⟨_, stays', (stays found).trans same, root'⟩
    · intro event member
      rw [left] at member
      obtain ⟨stored, kept, rfl⟩ := List.mem_map.mp member
      obtain ⟨account, known, same, root, first, last⟩ := covers.covered stored kept
      split
      next charged =>
        have one : account = old :=
          covers.ids.eq_of_key known oldStored ((same.trans charged).trans oldId.symm)
        subst one
        obtain ⟨found, present, named, unmerged, earlier, later⟩ := target
        exact ⟨found, present, named, unmerged, earlier.trans first, last.trans later⟩
      next charged =>
        have elsewhere : account.id ≠ id := fun equal => charged (same.symm.trans equal)
        obtain ⟨present, unmerged⟩ := rooted account known elsewhere root
        obtain ⟨named, earlier, later⟩ := within_combined id into old account
        exact ⟨_, present, named.trans same, unmerged, earlier.trans first, last.trans later⟩
    · intro account member
      rw [left]
      exact ⟨combined id into old account, List.mem_map_of_mem member,
        within_combined id into old account⟩

/-- Every operation keeps each request in its account's window, and narrows none. -/
theorem step_spec (covers : Covers rows) {operation : Operation Column}
    (taken : step rows operation = some next) : Covers next ∧ Widened rows next := by
  cases operation with
  | resolve candidate sourceId key seenAt =>
    obtain ⟨⟨id, _⟩, resolved, rfl⟩ := Option.map_eq_some_iff.mp taken
    obtain ⟨kept, widened, _⟩ := resolve_spec covers resolved
    exact ⟨kept, widened⟩
  | register candidate sourceId key observedAt =>
    obtain ⟨⟨id, _⟩, registered, rfl⟩ := Option.map_eq_some_iff.mp taken
    exact register_spec covers registered
  | ingest candidate sourceId key recordHash occurredAt => exact ingest_spec covers taken
  | merge id into => exact merge_spec covers taken

end Operations

section Values

variable {Column : Type} [LinearOrder Column] {good : Column → Prop} {rows next : Rows Column}

/-- Every column holds a value of a kind. -/
structure Holds (good : Column → Prop) (rows : Rows Column) : Prop where
  accounts : ∀ account ∈ rows.accounts, good account.firstSeenAt ∧ good account.lastSeenAt
  events : ∀ event ∈ rows.events, good event.occurredAt

/-- The instant an operation brings is of the kind. -/
def Operation.Brings (good : Column → Prop) : Operation Column → Prop
  | .resolve _ _ _ at_ | .register _ _ _ at_ | .ingest _ _ _ _ at_ => good at_
  | .merge _ _ => True

omit [LinearOrder Column] in
theorem Holds.mapAccounts (holds : Holds good rows) {change : Seen Column → Seen Column}
    (kept : ∀ account ∈ rows.accounts,
      good (change account).firstSeenAt ∧ good (change account).lastSeenAt) :
    Holds good { rows with accounts := rows.accounts.map change } where
  accounts := by
    intro account member
    obtain ⟨stored, present, rfl⟩ := List.mem_map.mp member
    exact kept stored present
  events := holds.events

/-- The lesser and the greater of two values are among them. -/
theorem good_widen {account : Seen Column} {first last : Column}
    (held : good account.firstSeenAt ∧ good account.lastSeenAt) (left : good first) (right : good last) :
    good (account.widen first last).firstSeenAt ∧ good (account.widen first last).lastSeenAt := by
  constructor
  · change good (min account.firstSeenAt first)
    rcases min_choice account.firstSeenAt first with same | same
    · rw [same]
      exact held.1
    · rw [same]
      exact left
  · change good (max account.lastSeenAt last)
    rcases max_choice account.lastSeenAt last with same | same
    · rw [same]
      exact held.2
    · rw [same]
      exact right

theorem Holds.updateAccount (holds : Holds good rows) (id : AccountId) {first last : Column}
    (left : good first) (right : good last) :
    Holds good (updateAccount id (Seen.widen first last) rows) := by
  apply holds.mapAccounts
  intro account member
  split
  next => exact good_widen (holds.accounts account member) left right
  next => exact holds.accounts account member

omit [LinearOrder Column] in
theorem Holds.upsert (holds : Holds good rows) {change : Seen Column → Seen Column}
    (kept : ∀ account, good account.firstSeenAt ∧ good account.lastSeenAt →
      good (change account).firstSeenAt ∧ good (change account).lastSeenAt)
    {row stored : Seen Column} (new : good row.firstSeenAt ∧ good row.lastSeenAt)
    (upserted : upsert row change rows = some (stored, next)) : Holds good next := by
  unfold SeenWindows.upsert at upserted
  split at upserted
  next => cases upserted
  next =>
    split at upserted
    next =>
      cases upserted
      apply holds.mapAccounts
      intro account member
      split
      next => exact kept account (holds.accounts account member)
      next => exact holds.accounts account member
    next =>
      cases upserted
      refine ⟨fun account member => ?_, holds.events⟩
      rcases List.mem_append.mp member with earlier | last
      · exact holds.accounts account earlier
      · rw [List.mem_singleton.mp last]
        exact new

theorem Holds.resolve (holds : Holds good rows) {candidate id : AccountId} {sourceId : SourceId}
    {key : String} {at_ : Column} (brings : good at_)
    (resolved : resolve candidate sourceId key at_ rows = some (id, next)) : Holds good next := by
  obtain ⟨⟨row, middle⟩, upserted, answered⟩ := Option.map_eq_some_iff.mp resolved
  have kept := holds.upsert (fun account held => good_widen held brings brings) ⟨brings, brings⟩ upserted
  dsimp only at answered
  split at answered
  next =>
    cases answered
    exact kept
  next =>
    cases answered
    exact kept.updateAccount _ brings brings

theorem holds_step (holds : Holds good rows) {operation : Operation Column}
    (brings : operation.Brings good) (taken : step rows operation = some next) : Holds good next := by
  cases operation with
  | resolve candidate sourceId key seenAt =>
    obtain ⟨⟨id, _⟩, resolved, rfl⟩ := Option.map_eq_some_iff.mp taken
    exact holds.resolve brings resolved
  | register candidate sourceId key observedAt =>
    obtain ⟨⟨id, _⟩, registered, rfl⟩ := Option.map_eq_some_iff.mp taken
    obtain ⟨⟨row, middle⟩, upserted, answered⟩ := Option.map_eq_some_iff.mp registered
    cases answered
    have observed : good observedAt := brings
    exact holds.upsert (fun _ held => held) ⟨observed, observed⟩ upserted
  | ingest candidate sourceId key recordHash occurredAt =>
    obtain ⟨⟨id, middle⟩, resolved, stored⟩ := Option.map_eq_some_iff.mp taken
    have kept := holds.resolve brings resolved
    dsimp only at stored
    split at stored
    next =>
      cases stored
      exact kept
    next =>
      cases stored
      refine ⟨kept.accounts, fun event member => ?_⟩
      rcases List.mem_append.mp member with earlier | last
      · exact kept.events event earlier
      · rw [List.mem_singleton.mp last]
        exact brings
  | merge id into =>
    change SeenWindows.merge id into rows = some next at taken
    unfold SeenWindows.merge at taken
    split at taken
    next => cases taken
    next =>
      obtain ⟨old, found, taken⟩ := Option.bind_eq_some_iff.mp taken
      obtain ⟨new, _, taken⟩ := Option.bind_eq_some_iff.mp taken
      split at taken
      case isFalse => cases taken
      case isTrue =>
      cases taken
      have held := holds.accounts old (List.mem_of_find?_eq_some found)
      refine Holds.updateAccount ⟨?_, ?_⟩ into held.1 held.2
      · intro account member
        obtain ⟨stored, present, rfl⟩ := List.mem_map.mp member
        have kept := holds.accounts stored present
        split
        next => exact kept
        next => exact kept
      · intro event member
        obtain ⟨stored, present, rfl⟩ := List.mem_map.mp member
        have kept := holds.events stored present
        split
        next => exact kept
        next => exact kept

end Values

section Texts

/-- The operation with its instant as the column holds it. -/
def Operation.map {First Second : Type} (print : First → Second) : Operation First → Operation Second
  | .resolve candidate sourceId key seenAt => .resolve candidate sourceId key (print seenAt)
  | .register candidate sourceId key observedAt => .register candidate sourceId key (print observedAt)
  | .ingest candidate sourceId key recordHash occurredAt =>
    .ingest candidate sourceId key recordHash (print occurredAt)
  | .merge id into => .merge id into

/-- The instant a column's text stands for. -/
def Reads (text : String) (instant : Timestamp) : Prop := Printable instant ∧ text = stored instant

/-- The columns of the database, where every operation printed its instant. -/
def Text (text : String) : Prop := ∃ instant, Reads text instant

theorem brings_text {operation : Operation Timestamp} (printable : operation.Brings Printable) :
    (operation.map stored).Brings Text := by
  cases operation with
  | resolve _ _ _ at_ => exact ⟨at_, printable, rfl⟩
  | register _ _ _ at_ => exact ⟨at_, printable, rfl⟩
  | ingest _ _ _ _ at_ => exact ⟨at_, printable, rfl⟩
  | merge id into => trivial

theorem le_of_reads {first second : String} {left right : Timestamp} (before : first ≤ second)
    (reads : Reads first left) (other : Reads second right) : left ≤ right := by
  obtain ⟨printable, rfl⟩ := reads
  obtain ⟨others, rfl⟩ := other
  exact (stored_le_iff printable others).mp before

/-- The instants of a window, and of a request within it. -/
def Around (account : Seen String) (event : Charge String) : Prop :=
  ∃ first occurred last, Reads account.firstSeenAt first ∧ Reads event.occurredAt occurred ∧
    Reads account.lastSeenAt last ∧ first ≤ occurred ∧ occurred ≤ last

/-- The instants of an account's window before and after an operation. -/
def NoNarrower (account other : Seen String) : Prop :=
  other.id = account.id ∧ ∃ first last earlier later, Reads account.firstSeenAt first ∧
    Reads account.lastSeenAt last ∧ Reads other.firstSeenAt earlier ∧ Reads other.lastSeenAt later ∧
      earlier ≤ first ∧ last ≤ later

/-- The invariant of a run over texts. -/
structure Kept (rows : Rows String) : Prop where
  covers : Covers rows
  texts : Holds Text rows

theorem Kept.around {rows : Rows String} (kept : Kept rows) {account : Seen String}
    {event : Charge String} (member : account ∈ rows.accounts) (stored : event ∈ rows.events)
    (charged : account.id = event.accountId) : Around account event := by
  obtain ⟨other, present, same, _, first, last⟩ := kept.covers.covered event stored
  have one := kept.covers.ids.eq_of_key present member (same.trans charged.symm)
  subst one
  obtain ⟨⟨earliest, readsFirst⟩, ⟨latest, readsLast⟩⟩ := kept.texts.accounts other member
  obtain ⟨occurred, reads⟩ := kept.texts.events event stored
  exact ⟨earliest, occurred, latest, readsFirst, reads, readsLast, le_of_reads first readsFirst reads,
    le_of_reads last reads readsLast⟩

theorem kept_step {rows next : Rows String} {operation : Operation Timestamp} (kept : Kept rows)
    (printable : operation.Brings Printable) (taken : step rows (operation.map stored) = some next) :
    Kept next ∧ ∀ account ∈ rows.accounts, ∃ other ∈ next.accounts, NoNarrower account other := by
  obtain ⟨covers, widened⟩ := step_spec kept.covers taken
  have texts := holds_step kept.texts (brings_text printable) taken
  refine ⟨⟨covers, texts⟩, fun account member => ?_⟩
  obtain ⟨other, present, same, first, last⟩ := widened account member
  obtain ⟨⟨earliest, readsFirst⟩, ⟨latest, readsLast⟩⟩ := kept.texts.accounts account member
  obtain ⟨⟨earlier, readsEarlier⟩, ⟨later, readsLater⟩⟩ := texts.accounts other present
  exact ⟨other, present, same, earliest, latest, earlier, later, readsFirst, readsLast, readsEarlier,
    readsLater, le_of_reads first readsEarlier readsFirst, le_of_reads last readsLast readsLater⟩

/-- In every state that resolves, registrations, ingests and merges in any order reach, each request
charged to an unmerged account lies in its window as instants, and no operation narrows a window. -/
theorem windows_cover {operations : List (Operation Timestamp)} {rows : Rows String}
    (printable : ∀ operation ∈ operations, operation.Brings Printable)
    (reached : run step Rows.empty (operations.map (Operation.map stored)) = some rows) :
    (∀ event ∈ rows.events, ∀ account ∈ rows.accounts, account.id = event.accountId →
      account.mergedInto = none → Around account event) ∧
    ∀ (operation : Operation Timestamp) (next : Rows String), operation.Brings Printable → step rows (operation.map stored) = some next →
      ∀ account ∈ rows.accounts, ∃ other ∈ next.accounts, NoNarrower account other := by
  have printed : ∀ action ∈ operations.map (Operation.map stored), ∃ operation : Operation Timestamp,
      operation.Brings Printable ∧ action = operation.map stored := by
    intro action member
    obtain ⟨operation, listed, rfl⟩ := List.mem_map.mp member
    exact ⟨operation, printable operation listed, rfl⟩
  have kept : Kept rows := by
    refine invariant_run ?_ ⟨covers_empty, nofun, nofun⟩ (meets_of_all _ printed) reached
    rintro start _ next initial ⟨operation, brings, rfl⟩ taken
    exact (kept_step initial brings taken).1
  constructor
  · exact fun event stored account member charged _ => kept.around member stored charged
  · exact fun operation next brings taken => (kept_step kept brings taken).2

/-- A listing, an older request, one through a second sign-in, and the merge of the two. -/
def mergedSignIn : List (Operation Timestamp) :=
  [.register 1 1 "old" (seconds 9), .ingest 2 1 "old" "a" (seconds 3), .ingest 3 1 "new" "b" (seconds 12),
    .merge 1 3]

theorem a_merged_window_covers : ∃ rows,
    run step Rows.empty (mergedSignIn.map (Operation.map stored)) = some rows ∧
      rows.events.length = 2 ∧ ∀ event ∈ rows.events, ∀ account ∈ rows.accounts,
        account.id = event.accountId → account.mergedInto = none → Around account event := by
  have ran : (run step Rows.empty (mergedSignIn.map (Operation.map stored))).any
      (·.events.length = 2) = true := by
    decide
  obtain ⟨rows, reached, count⟩ := (Option.any_eq_true _ _).mp ran
  have printable : ∀ operation ∈ mergedSignIn, operation.Brings Printable := by
    have instants : Printable (seconds 9) ∧ Printable (seconds 3) ∧ Printable (seconds 12) := by
      unfold Printable Library.Calendar.FourDigits
      decide
    intro operation member
    rcases List.mem_cons.mp member with rfl | member
    · exact instants.1
    rcases List.mem_cons.mp member with rfl | member
    · exact instants.2.1
    rcases List.mem_cons.mp member with rfl | member
    · exact instants.2.2
    rw [List.mem_singleton.mp member]
    trivial
  exact ⟨rows, reached, of_decide_eq_true count, (windows_cover printable reached).1⟩

end Texts

end MeteredUsage.Store.SeenWindows
