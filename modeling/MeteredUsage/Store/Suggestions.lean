import MeteredUsage.Library.Paging
import MeteredUsage.Store.Registered

/-! What the suggestions of an account are read from. Two states in which readers are shown the same
accounts and plans suggest the same where every pair was first seen in the same order. -/

namespace MeteredUsage.Store.Suggestions
open MeteredUsage.Values MeteredUsage.Store.Schema MeteredUsage.Store.Continuations
open MeteredUsage.Store.Snapshots MeteredUsage.Store.Validity MeteredUsage.Store.Views
open MeteredUsage.Store.Apart MeteredUsage.Library.Keyed MeteredUsage.Library.Paging
open MeteredUsage.Changes.Table (Subject)

variable {charged : Prop} {runtime : Sql.Runtime} {now : Timestamp} {base tables after : Tables}
  {old new earlier later : Account} {id : AccountId}

/-- `plan_continuation_account_ids`, as `Account::list` gathers them. A merged account has none. -/
def suggestions (tables : Tables) (id : AccountId) : List AccountId :=
  ((list tables none).filter (·.previous = id)).map Continuation.replacement

theorem mem_suggestions {replacement : AccountId} : replacement ∈ suggestions tables id ↔
    ∃ old ∈ tables.accounts, ∃ new ∈ tables.accounts, old.id = id ∧ new.id = replacement ∧
      continues tables old new = true := by
  simp only [suggestions, list, continuationsOf, List.mem_map, List.mem_filter, List.mem_flatMap,
    byId, List.mem_insertionSort, Option.all_none, and_true, decide_eq_true_eq]
  constructor
  · rintro ⟨_, ⟨⟨old, oldStored, new, ⟨newStored, pair⟩, rfl⟩, same⟩, rfl⟩
    exact ⟨old, oldStored, new, newStored, same, rfl, pair⟩
  · rintro ⟨old, oldStored, new, newStored, same, rfl, pair⟩
    exact ⟨_, ⟨⟨old, oldStored, new, ⟨newStored, pair⟩, rfl⟩, same⟩, rfl⟩

theorem suggestions_ascend (ids : Distinct Account.id tables.accounts) :
    (suggestions tables id).Pairwise (· < ·) := by
  have accounts : (byId tables.accounts).Pairwise fun first second => first.id < second.id :=
    ordered_sorted ids
  have rows : (list tables none).Pairwise fun first second =>
      first.previous = second.previous → first.replacement < second.replacement := by
    unfold list
    simp only [Option.all_none, List.filter_true]
    rw [List.pairwise_flatMap]
    constructor
    · intro old _
      apply List.pairwise_map.mpr
      apply (accounts.filter _).imp
      exact fun before _ => before
    · apply accounts.imp
      intro first second before row ofFirst other ofSecond same
      obtain ⟨_, _, rfl⟩ := List.mem_map.mp ofFirst
      obtain ⟨_, _, rfl⟩ := List.mem_map.mp ofSecond
      exact absurd same before.ne
  apply List.pairwise_map.mpr
  apply (rows.filter _).imp_of_mem
  intro first second left right before
  have firstOf := List.of_mem_filter left
  have secondOf := List.of_mem_filter right
  simp only [decide_eq_true_eq] at firstOf secondOf
  exact before (firstOf.trans secondOf.symm)

theorem suggestions_eq (ids : Distinct Account.id base.accounts)
    (laterIds : Distinct Account.id after.accounts)
    (same : ∀ replacement, replacement ∈ suggestions base id ↔ replacement ∈ suggestions after id) :
    suggestions base id = suggestions after id := by
  have left := @suggestions_ascend base id ids
  have right := @suggestions_ascend after id laterIds
  have perm : (suggestions base id).Perm (suggestions after id) :=
    (List.perm_ext_iff_of_nodup (left.imp fun below => below.ne) (right.imp fun below => below.ne)).mpr
      same
  exact perm.eq_of_pairwise (fun _ _ _ _ below above => absurd above below.asymm) left right

theorem mem_suggestions_stored (ids : Distinct Account.id tables.accounts)
    (oldStored : old ∈ tables.accounts) (newStored : new ∈ tables.accounts) :
    new.id ∈ suggestions tables old.id ↔ continues tables old new = true := by
  rw [mem_suggestions]
  constructor
  · rintro ⟨first, firstStored, second, secondStored, named, same, pair⟩
    obtain rfl := ids.eq_of_key firstStored oldStored named
    obtain rfl := ids.eq_of_key secondStored newStored same
    exact pair
  · exact fun pair => ⟨old, oldStored, new, newStored, rfl, rfl, pair⟩

theorem mem_replacements_stored (ids : Distinct Account.id tables.accounts)
    (oldStored : old ∈ tables.accounts) (newStored : new ∈ tables.accounts) :
    (old.id, new.id) ∈ replacements tables ↔
      continues tables old new = true ∧ isSole tables old new = true := by
  rw [mem_replacements]
  constructor
  · rintro ⟨first, firstStored, second, secondStored, named, same, pair⟩
    obtain rfl := ids.eq_of_key firstStored oldStored named
    obtain rfl := ids.eq_of_key secondStored newStored same
    exact pair
  · exact fun pair => ⟨old, oldStored, new, newStored, rfl, rfl, pair⟩

/-- A later row of an account, with the columns a reader is shown and those that never change. -/
structure Alike (account later : Account) : Prop where
  id : later.id = account.id
  sourceId : later.sourceId = account.sourceId
  provider : later.provider = account.provider
  label : later.label = account.label
  authKind : later.authKind = account.authKind
  mergedInto : later.mergedInto = account.mergedInto

/-- A later state suggests from the rows of an earlier one, of which `first` tells when each was first
seen by then. -/
structure Resembles (first : Account → Timestamp) (base after : Tables) : Prop where
  later : ∀ account ∈ base.accounts, ∃ row ∈ after.accounts,
    Alike account row ∧ row.firstSeenAt = first account
  earlier : ∀ row ∈ after.accounts, ∃ account ∈ base.accounts, account.id = row.id
  states : ∀ id, (stateOf after id).map stateRow = (stateOf base id).map stateRow
  plans : ∀ id, hasPlan after id = hasPlan base id
  dismissals : after.dismissals = base.dismissals

/-- What the two rows of a pair's states must say, as a reader is shown them. -/
def shownMatch (old new : StateRow) : Bool :=
  old.removedAt.isSome && new.removedAt.isNone && !new.disabled &&
    old.plan.any (fun plan => 0 < Sql.length (Sql.trim plan)) &&
    equals (folded old.plan) (folded new.plan)

/-- A list has named every credential that has a state. -/
theorem states_shown (valid : Valid charged tables) (old new : AccountId) :
    ((stateOf tables old).any fun oldState => (stateOf tables new).any (statesMatch oldState)) =
      ((stateOf tables old).map stateRow).any fun oldRow =>
        ((stateOf tables new).map stateRow).any (shownMatch oldRow) := by
  rw [Option.any_map]
  congr 1
  funext oldState
  rw [Option.any_map]
  cases found : stateOf tables new with
  | none => rfl
  | some state =>
    have observed := valid.softObserved state (lookup_mem found).1
    simp [statesMatch, shownMatch, stateRow, observed]

section Pairs

variable {first : Account → Timestamp} {oldLater newLater row : Account}
  (resembles : Resembles first base after)

include resembles

theorem couldContinue_later (valid : Valid charged base) (validAfter : Valid charged after)
    (oldAlike : Alike old oldLater) (newAlike : Alike new newLater) :
    couldContinue after oldLater newLater = couldContinue base old new := by
  have rows : rowsMatch oldLater newLater = rowsMatch old new := by
    simp only [rowsMatch, oldAlike.sourceId, oldAlike.provider, oldAlike.label, oldAlike.authKind,
      oldAlike.mergedInto, newAlike.sourceId, newAlike.provider, newAlike.label, newAlike.authKind,
      newAlike.mergedInto]
  simp only [couldContinue, rows, states_shown valid, states_shown validAfter, oldAlike.id, newAlike.id,
    resembles.states, resembles.plans, isDismissed, resembles.dismissals]

/-- Every row of the later state is that of an account of the earlier one. -/
theorem alike_of_later (ids : Distinct Account.id after.accounts) (stored : row ∈ after.accounts) :
    ∃ account ∈ base.accounts, Alike account row ∧ row.firstSeenAt = first account := by
  obtain ⟨account, member, same⟩ := resembles.earlier row stored
  obtain ⟨later, laterStored, alike, seenAt⟩ := resembles.later account member
  obtain rfl := ids.eq_of_key laterStored stored (alike.id.trans same)
  exact ⟨account, member, alike, seenAt⟩

theorem isSole_later (ids : Distinct Account.id after.accounts) (oldAlike : Alike old oldLater)
    (newAlike : Alike new newLater) : isSole after oldLater newLater = isSole base old new := by
  let beside (old new other : Account) : Bool :=
    other.sourceId = old.sourceId && other.provider = old.provider &&
      other.authKind = old.authKind && other.mergedInto.isNone &&
      other.id ≠ old.id && other.id ≠ new.id && equals (folded other.label) (folded old.label)
  have same {other row : Account} (alike : Alike other row) :
      beside oldLater newLater row = beside old new other := by
    simp only [beside, alike.id, alike.sourceId, alike.provider, alike.label, alike.authKind,
      alike.mergedInto, oldAlike.id, oldAlike.sourceId, oldAlike.provider, oldAlike.label,
      oldAlike.authKind, newAlike.id]
  have others : after.accounts.any (beside oldLater newLater) = base.accounts.any (beside old new) := by
    rw [Bool.eq_iff_iff, List.any_eq_true, List.any_eq_true]
    constructor
    · rintro ⟨row, stored, found⟩
      obtain ⟨account, member, alike, _⟩ := alike_of_later resembles ids stored
      exact ⟨account, member, (same alike).symm.trans found⟩
    · rintro ⟨account, member, found⟩
      obtain ⟨row, stored, alike, _⟩ := resembles.later account member
      exact ⟨row, stored, (same alike).trans found⟩
  change (equals oldLater.label newLater.label && !after.accounts.any (beside oldLater newLater)) = _
  rw [others, oldAlike.label, newAlike.label]
  rfl

end Pairs

/-- A pair that could be a continuation is first seen in one order and, by a later state, in another. -/
def Reverses (first : Account → Timestamp) (tables : Tables) (old new : Account) : Prop :=
  couldContinue tables old new = true ∧
    ¬(old.firstSeenAt < new.firstSeenAt ↔ first old < first new)

instance {first : Account → Timestamp} : Decidable (Reverses first tables old new) :=
  inferInstanceAs (Decidable (_ ∧ _))

section Orders

variable {first : Account → Timestamp} (resembles : Resembles first base after)
  (valid : Valid charged base) (validAfter : Valid charged after)

include resembles valid validAfter

/-- The later rows of a pair, and whether it continues by then. -/
theorem later_pair (oldStored : old ∈ base.accounts) (newStored : new ∈ base.accounts) :
    ∃ oldLater ∈ after.accounts, ∃ newLater ∈ after.accounts, Alike old oldLater ∧ Alike new newLater ∧
      (continues after oldLater newLater = true ↔
        couldContinue base old new = true ∧ first old < first new) := by
  obtain ⟨oldLater, oldKept, oldAlike, oldSeen⟩ := resembles.later old oldStored
  obtain ⟨newLater, newKept, newAlike, newSeen⟩ := resembles.later new newStored
  refine ⟨oldLater, oldKept, newLater, newKept, oldAlike, newAlike, ?_⟩
  rw [continues, couldContinue_later resembles valid validAfter oldAlike newAlike, oldSeen, newSeen]
  simp

/-- A pair is suggested in both states or in neither exactly where it keeps its order. -/
theorem suggested_alike_iff (oldStored : old ∈ base.accounts) (newStored : new ∈ base.accounts) :
    (new.id ∈ suggestions base old.id ↔ new.id ∈ suggestions after old.id) ↔
      ¬Reverses first base old new := by
  obtain ⟨oldLater, oldKept, newLater, newKept, oldAlike, newAlike, pair⟩ :=
    later_pair resembles valid validAfter oldStored newStored
  rw [mem_suggestions_stored valid.accountIds oldStored newStored, ← oldAlike.id, ← newAlike.id,
    mem_suggestions_stored validAfter.accountIds oldKept newKept, pair]
  simp only [continues, Bool.and_eq_true, decide_eq_true_eq, Reverses]
  by_cases could : couldContinue base old new = true <;> simp [could]

/-- Some account has other suggestions exactly where some pair is reversed. -/
theorem suggestions_differ_iff : (∃ id, suggestions base id ≠ suggestions after id) ↔
    ∃ old ∈ base.accounts, ∃ new ∈ base.accounts, Reverses first base old new := by
  constructor
  · rintro ⟨id, differ⟩
    by_contra kept
    apply differ
    apply suggestions_eq valid.accountIds validAfter.accountIds
    have keeps {old new : Account} (oldStored : old ∈ base.accounts) (newStored : new ∈ base.accounts) :=
      (suggested_alike_iff resembles valid validAfter oldStored newStored).mpr fun reverses =>
        kept ⟨old, oldStored, new, newStored, reverses⟩
    intro replacement
    constructor
    · intro suggested
      obtain ⟨old, oldStored, new, newStored, rfl, rfl, _⟩ := mem_suggestions.mp suggested
      exact (keeps oldStored newStored).mp suggested
    · intro suggested
      obtain ⟨oldLater, oldKept, newLater, newKept, rfl, rfl, _⟩ := mem_suggestions.mp suggested
      obtain ⟨old, oldStored, oldAlike, _⟩ := alike_of_later resembles validAfter.accountIds oldKept
      obtain ⟨new, newStored, newAlike, _⟩ := alike_of_later resembles validAfter.accountIds newKept
      rw [oldAlike.id, newAlike.id] at suggested ⊢
      exact (keeps oldStored newStored).mpr suggested
  · rintro ⟨old, oldStored, new, newStored, reverses⟩
    refine ⟨old.id, fun same => ?_⟩
    exact (suggested_alike_iff resembles valid validAfter oldStored newStored).mp
      (by rw [same]) reverses

/-- Every credential shows the replacement it did exactly where no sole pair is reversed. -/
theorem linked_alike_iff :
    (∀ id, linked (replacements base) id = linked (replacements after) id) ↔
      ∀ old ∈ base.accounts, ∀ new ∈ base.accounts, isSole base old new = true →
        ¬Reverses first base old new := by
  have replaced {old new : Account} (oldStored : old ∈ base.accounts) (newStored : new ∈ base.accounts) :
      ((old.id, new.id) ∈ replacements base ↔ (old.id, new.id) ∈ replacements after) ↔
        (isSole base old new = true → ¬Reverses first base old new) := by
    obtain ⟨oldLater, oldKept, newLater, newKept, oldAlike, newAlike, pair⟩ :=
      later_pair resembles valid validAfter oldStored newStored
    rw [mem_replacements_stored valid.accountIds oldStored newStored, ← oldAlike.id, ← newAlike.id,
      mem_replacements_stored validAfter.accountIds oldKept newKept, pair,
      isSole_later resembles validAfter.accountIds oldAlike newAlike]
    simp only [continues, Bool.and_eq_true, decide_eq_true_eq, Reverses]
    by_cases could : couldContinue base old new = true <;>
      by_cases sole : isSole base old new = true <;> simp [could, sole]
  constructor
  · intro same old oldStored new newStored
    apply (replaced oldStored newStored).mp
    rw [← linked_eq_some valid.accountIds, ← linked_eq_some validAfter.accountIds, same]
  · intro kept id
    apply Option.ext
    intro replacement
    rw [linked_eq_some valid.accountIds, linked_eq_some validAfter.accountIds]
    constructor
    · intro link
      obtain ⟨old, oldStored, new, newStored, rfl, rfl, _⟩ := mem_replacements.mp link
      exact ((replaced oldStored newStored).mpr (kept old oldStored new newStored)).mp link
    · intro link
      obtain ⟨oldLater, oldKept, newLater, newKept, rfl, rfl, _⟩ := mem_replacements.mp link
      obtain ⟨old, oldStored, oldAlike, _⟩ := alike_of_later resembles validAfter.accountIds oldKept
      obtain ⟨new, newStored, newAlike, _⟩ := alike_of_later resembles validAfter.accountIds newKept
      rw [oldAlike.id, newAlike.id] at link ⊢
      exact ((replaced oldStored newStored).mpr (kept old oldStored new newStored)).mpr link

end Orders

/-- The changes a reader of the suggestions is told to follow. -/
def isListed : Subject → Bool
  | .account _ | .plan _ => true
  | .window _ _ | .resets _ | .usage | .quotaAction | .price _ | .arrival _ _ => false

theorem row_columns {row : AccountRow} (drawn : accountRow tables old = some row) :
    row.provider = old.provider ∧ row.authKind = old.authKind ∧ row.label = old.label ∧
      row.mergedInto = old.mergedInto ∧ row.state = (stateOf tables old.id).map stateRow ∧
      row.previous = previousRows tables old.id := by
  obtain ⟨source, _, rfl⟩ := Option.map_eq_some_iff.mp drawn
  exact ⟨rfl, rfl, rfl, rfl, rfl, rfl⟩

theorem view_stored (valid : Valid charged tables) (stored : old ∈ tables.accounts) :
    ∃ row, accountRow tables old = some row ∧ view runtime tables now (.account old.id) =
      some (.account row (linked (replacements tables) old.id)) := by
  obtain ⟨source, known, same⟩ := valid.accountSources old stored
  have drawn : (accountRow tables old).isSome = true := by
    rw [accountRow, Option.isSome_map, lookup_isSome]
    exact ⟨source, known, same⟩
  obtain ⟨row, drawn⟩ := Option.isSome_iff_exists.mp drawn
  have found := (Landing.accountOf_eq_some valid).mpr ⟨stored, rfl⟩
  exact ⟨row, drawn, by simp [view, found, drawn]⟩

section Views

variable {first : Account → Timestamp} (valid : Valid charged base) (validAfter : Valid charged after)
  (views : ∀ subject, isListed subject = true →
    view runtime base now subject = view runtime after now subject)

include valid validAfter views

/-- What two rows of an account that readers see alike say alike. -/
theorem columns_of_views (stored : earlier ∈ base.accounts) (kept : later ∈ after.accounts)
    (same : later.id = earlier.id) : later.provider = earlier.provider ∧
      later.authKind = earlier.authKind ∧ later.label = earlier.label ∧
      later.mergedInto = earlier.mergedInto ∧
      (stateOf after earlier.id).map stateRow = (stateOf base earlier.id).map stateRow ∧
      previousRows after earlier.id = previousRows base earlier.id := by
  obtain ⟨row, drawn, seen⟩ := @view_stored charged runtime now base earlier valid stored
  obtain ⟨laterRow, laterDrawn, laterSeen⟩ := @view_stored charged runtime now after later validAfter kept
  rw [same, ← views (.account earlier.id) rfl, seen] at laterSeen
  obtain ⟨rfl, _⟩ := View.account.inj (Option.some.inj laterSeen)
  obtain ⟨provider, kind, label, merged, state, previous⟩ := row_columns drawn
  obtain ⟨laterProvider, laterKind, laterLabel, laterMerged, laterState, laterPrevious⟩ :=
    row_columns laterDrawn
  rw [same] at laterState laterPrevious
  exact ⟨laterProvider.symm.trans provider, laterKind.symm.trans kind, laterLabel.symm.trans label,
    laterMerged.symm.trans merged, laterState.symm.trans state, laterPrevious.symm.trans previous⟩

theorem stored_of_views (kept : later ∈ after.accounts) : ∃ account ∈ base.accounts, account.id = later.id := by
  obtain ⟨row, _, seen⟩ := @view_stored charged runtime now after later validAfter kept
  rw [← views (.account later.id) rfl] at seen
  obtain ⟨account, found, _⟩ := Option.bind_eq_some_iff.mp seen
  exact ⟨account, (Landing.accountOf_eq_some valid).mp found⟩

/-- A credential shows a replacement only where it is stored. -/
theorem linked_of_views (id : AccountId) :
    linked (replacements base) id = linked (replacements after) id := by
  have unstored {tables : Tables} (ids : Distinct Account.id tables.accounts)
      (unknown : ∀ account ∈ tables.accounts, account.id ≠ id) : linked (replacements tables) id = none := by
    apply Option.eq_none_iff_forall_ne_some.mpr
    intro replacement shown
    obtain ⟨old, stored, _, _, same, _⟩ := mem_replacements.mp ((linked_eq_some ids).mp shown)
    exact unknown old stored same
  by_cases known : ∃ account ∈ base.accounts, account.id = id
  · obtain ⟨account, stored, rfl⟩ := known
    obtain ⟨row, _, seen⟩ := @view_stored charged runtime now base account valid stored
    rw [views (.account account.id) rfl] at seen
    obtain ⟨_, _, drawn⟩ := Option.bind_eq_some_iff.mp seen
    obtain ⟨_, _, shown⟩ := Option.map_eq_some_iff.mp drawn
    exact (View.account.inj shown).2.symm
  · have unknown : ∀ account ∈ base.accounts, account.id ≠ id := fun account stored same =>
      known ⟨account, stored, same⟩
    have stillUnknown : ∀ row ∈ after.accounts, row.id ≠ id := by
      intro row kept same
      obtain ⟨account, stored, named⟩ := stored_of_views valid validAfter views kept
      exact unknown account stored (named.trans same)
    rw [unstored valid.accountIds unknown, unstored validAfter.accountIds stillUnknown]

theorem plan_of_views {plan : Plan} (kept : plan ∈ after.plans) : plan ∈ base.plans := by
  have found := (planOf_eq_some validAfter).mpr ⟨kept, rfl⟩
  have seen : view runtime after now (.plan plan.id) =
      some (.plan plan (linked (replacements after) plan.accountId)) := by simp [view, found]
  rw [← views (.plan plan.id) rfl] at seen
  obtain ⟨_, named, stored⟩ := view_plan seen
  cases named
  exact ((planOf_eq_some valid).mp stored).1

/-- Where readers are shown the same accounts and plans, the rest of what decides the suggestions is in
which source an account is, when it was first seen and which pairs were dismissed. -/
theorem resembles_of_views (stays : ∀ account ∈ base.accounts, ∃ row ∈ after.accounts,
      row.id = account.id ∧ row.sourceId = account.sourceId ∧ row.firstSeenAt = first account)
    (dismissals : after.dismissals = base.dismissals) : Resembles first base after where
  later account stored := by
    obtain ⟨row, kept, same, inSource, seenAt⟩ := stays account stored
    obtain ⟨provider, kind, label, merged, _⟩ := columns_of_views valid validAfter views stored kept same
    exact ⟨row, kept, ⟨same, inSource, provider, label, kind, merged⟩, seenAt⟩
  earlier row kept := stored_of_views valid validAfter views kept
  states id := by
    by_cases known : ∃ account ∈ base.accounts, account.id = id
    · obtain ⟨account, stored, rfl⟩ := known
      obtain ⟨row, kept, same, _⟩ := stays account stored
      exact (columns_of_views valid validAfter views stored kept same).2.2.2.2.1
    · have unknown : stateOf base id = none := by
        apply lookup_eq_none.mpr
        rintro state member rfl
        exact known (valid.stateAccounts state member)
      have stillUnknown : stateOf after id = none := by
        apply lookup_eq_none.mpr
        rintro state member rfl
        obtain ⟨row, kept, same⟩ := validAfter.stateAccounts state member
        obtain ⟨account, stored, named⟩ := stored_of_views valid validAfter views kept
        exact known ⟨account, stored, named.trans same⟩
      rw [unknown, stillUnknown]
  plans id := by
    have views' := fun subject listed => (views subject listed).symm
    rw [Bool.eq_iff_iff, hasPlan, hasPlan, List.any_eq_true, List.any_eq_true]
    constructor
    · rintro ⟨plan, kept, named⟩
      exact ⟨plan, plan_of_views valid validAfter views kept, named⟩
    · rintro ⟨plan, stored, named⟩
      exact ⟨plan, plan_of_views validAfter valid views' stored, named⟩
  dismissals := dismissals

end Views

end MeteredUsage.Store.Suggestions
