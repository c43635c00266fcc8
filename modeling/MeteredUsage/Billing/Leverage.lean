import Mathlib.Algebra.Order.Ring.Rat
import MeteredUsage.Analytics.RunningSums
import MeteredUsage.Billing.Periods
import MeteredUsage.Store.Arrivals
import MeteredUsage.Store.Apart

/-! What a plan's list cost was worth against its price, one billing period at a time, and how a
merge of a replaced sign-in leaves it. Costs are exact numbers; the tokens are summed as SQLite sums
them, one event after another. -/

namespace MeteredUsage.Billing.Leverage
open MeteredUsage.Values MeteredUsage.Store MeteredUsage.Store.Schema MeteredUsage.Store.Continuations
open MeteredUsage.Store.Accounts MeteredUsage.Store.Snapshots MeteredUsage.Store.Apart
open MeteredUsage.Store.Arrivals (combined holds_merge_combined)
open MeteredUsage.Store.Sql (Order)
open MeteredUsage.Analytics.RunningSums (leverageTokens leverageTokens_eq)
open MeteredUsage.Billing.Periods MeteredUsage.Library.Keyed
open MeteredUsage.Library.CheckedSums

/-- What a plan says about the account it is paid for. -/
structure AccountSummary where
  id : AccountId
  sourceId : SourceId
  sourceName : String
  provider : String
  authKind : AuthKind
  label : Option String
  displayName : Option String
deriving DecidableEq

/-- A plan joined to its account, with the credential that replaced it. -/
structure Listed where
  id : PlanId
  account : AccountSummary
  name : String
  monthlyUsd : Sql.Float64
  periodStart : Timestamp
  periodEnd : Option Timestamp
  replacedByAccountId : Option AccountId
deriving DecidableEq

def summaryOf (tables : Tables) (id : AccountId) : Option AccountSummary := do
  let account ← accountOf tables id
  let source ← lookup Source.id tables.sources account.sourceId
  return ⟨account.id, account.sourceId, source.name, account.provider, account.authKind, account.label,
    account.displayName⟩

def listed (tables : Tables) (plan : Plan) : Option Listed :=
  (summaryOf tables plan.accountId).map fun account => ⟨plan.id, account, plan.name, plan.monthlyUsd,
    plan.periodStart, plan.periodEnd, linked (replacements tables) account.id⟩

/-- `ORDER BY plan.period_start, plan.plan_id`. -/
def startsBefore (first second : Listed) : Prop :=
  first.periodStart < second.periodStart ∨
    first.periodStart = second.periodStart ∧ first.id ≤ second.id

instance : DecidableRel startsBefore := fun _ _ => inferInstanceAs (Decidable (_ ∨ _))

/-- `Plan::list`. -/
def listPlans (tables : Tables) : List Listed :=
  (tables.plans.filterMap (listed tables)).insertionSort startsBefore

structure PeriodUsage where
  requests : Int
  totalTokens : Int
  listCostUsd : ℚ
  effectiveUsdPerMtok : Option ℚ
deriving DecidableEq

/-- An event of a plan's account in a period, or of the one that replaced it. -/
def charged (plan : Listed) (period : Timestamp × Timestamp) (event : UsageEvent) : Bool :=
  (event.accountId = plan.account.id || plan.replacedByAccountId = some event.accountId) &&
    decide (period.1 ≤ event.occurredAt) && decide (event.occurredAt < period.2)

def chargedEvents (tables : Tables) (plan : Listed) (period : Timestamp × Timestamp) : List UsageEvent :=
  tables.events.filter (charged plan period)

/-- The usage charged to a plan in a period. The events are visited in an order of SQLite's choice,
and a sum of tokens that leaves 64 bits on the way is an error. -/
def usage (value : Sql.Float64 → ℚ) (visited : Order UsageEvent) (tables : Tables) (plan : Listed)
    (period : Timestamp × Timestamp) : Option PeriodUsage :=
  let events := chargedEvents tables plan period
  (leverageTokens (visited.arrange events)).map fun tokens =>
    { requests := events.length
      totalTokens := tokens
      listCostUsd := (events.map fun event => (event.listCostUsd.map value).getD 0).sum
      effectiveUsdPerMtok := if 0 < tokens then some (value plan.monthlyUsd * 1000000 / tokens) else none }

structure BillingPeriod where
  start : Timestamp
  /-- Exclusive. -/
  finish : Timestamp
  complete : Bool
  requests : Int
  totalTokens : Int
  listCostUsd : ℚ
  /-- List cost over the plan's price; nothing when the plan is free. -/
  leverage : Option ℚ
  /-- The plan's price per million tokens used; nothing when no token was used. -/
  effectiveUsdPerMtok : Option ℚ
deriving DecidableEq

def billed (value : Sql.Float64 → ℚ) (visited : Order UsageEvent) (tables : Tables) (plan : Listed)
    (now : Timestamp) (period : Timestamp × Timestamp) : Option BillingPeriod :=
  (usage value visited tables plan period).map fun usage =>
    { start := period.1
      finish := period.2
      complete := decide (period.2 ≤ now)
      requests := usage.requests
      totalTokens := usage.totalTokens
      listCostUsd := usage.listCostUsd
      leverage := if 0 < value plan.monthlyUsd then some (usage.listCostUsd / value plan.monthlyUsd) else none
      effectiveUsdPerMtok := usage.effectiveUsdPerMtok }

structure PlanLeverage where
  plan : Listed
  /-- Newest first. -/
  periods : List BillingPeriod
deriving DecidableEq

/-- One plan with at most `count` of its latest billing periods up to `now`. -/
def leverage (value : Sql.Float64 → ℚ) (visited : Order UsageEvent) (tables : Tables) (count : Nat)
    (now : Timestamp) (plan : Listed) : Option PlanLeverage := do
  let all ← periods plan.periodStart plan.periodEnd now
  let figures ← (all.reverse.take count).mapM (billed value visited tables plan now)
  return ⟨plan, figures⟩

/-- `PlanLeverage::list`. -/
def list (value : Sql.Float64 → ℚ) (visited : Order UsageEvent) (tables : Tables) (count : Nat)
    (now : Timestamp) : Option (List PlanLeverage) :=
  (listPlans tables).mapM (leverage value visited tables count now)

/-- A plan as it reads once the sign-in of its account is merged into its replacement. -/
def Listed.continued (previous : AccountId) (replacement : AccountSummary) (plan : Listed) : Listed :=
  if plan.account.id = previous then { plan with account := replacement, replacedByAccountId := none }
  else plan

/-- The plan reads another account, and every figure stays. -/
def PlanLeverage.continued (previous : AccountId) (replacement : AccountSummary) (entry : PlanLeverage) :
    PlanLeverage :=
  { entry with plan := entry.plan.continued previous replacement }

/-- In whichever orders the events are visited before and after, the list answers after a merge what
it answered before it, each plan of the previous account under its replacement. -/
def Keeps (value : Sql.Float64 → ℚ) (base next : Tables) (previous : AccountId) (replacement : AccountSummary)
    (count : Nat) (now : Timestamp) : Prop :=
  ∀ before after : Order UsageEvent, list value after next count now =
    (list value before base count now).map (List.map (PlanLeverage.continued previous replacement))

/-- A period the list asks a plan's usage of. -/
def Asked (tables : Tables) (count : Nat) (now : Timestamp) (plan : Listed) (period : Timestamp × Timestamp) :
    Prop :=
  plan ∈ listPlans tables ∧
    ∃ all, periods plan.periodStart plan.periodEnd now = some all ∧ period ∈ all.reverse.take count

/-- In each period that is asked the tokens above zero add up inside 64 bits and so do those below,
or there is a plan or a period whose figures cannot be answered in any order. -/
def Settled (tables : Tables) (count : Nat) (now : Timestamp) : Prop :=
  let tokens plan period := (chargedEvents tables plan period).map (·.totalTokens)
  (∀ plan period, Asked tables count now plan period →
    -2 ^ 63 ≤ below (tokens plan period) ∧ above (tokens plan period) < 2 ^ 63) ∨
  (∃ plan ∈ listPlans tables, periods plan.periodStart plan.periodEnd now = none) ∨
  ∃ plan period, Asked tables count now plan period ∧ ¬Fits (tokens plan period).sum

variable {base next : Tables} {old new account other : Account}

/-- A row of `account` as a merge leaves it. -/
def joinedRow (old new account : Account) : Account :=
  let pointed := if account.id = old.id ∨ account.mergedInto = some old.id then
    { account with mergedInto := some new.id } else account
  if pointed.id = new.id then widen old.firstSeenAt old.lastSeenAt pointed else pointed

theorem accounts_combined : (combined old.id new.id old base).accounts = base.accounts.map (joinedRow old new) :=
  List.map_map

/-- What a merge leaves of a row. -/
structure SameSignIn (account row : Account) : Prop where
  id : row.id = account.id
  sourceId : row.sourceId = account.sourceId
  provider : row.provider = account.provider
  authKind : row.authKind = account.authKind
  label : row.label = account.label
  displayName : row.displayName = account.displayName

theorem sameSignIn (old new account : Account) : SameSignIn account (joinedRow old new account) := by
  unfold joinedRow widen
  constructor <;> dsimp only <;> split <;> split <;> rfl

/-- A row that is not one of the two stays merged or unmerged, and as it was first seen. -/
theorem joinedRow_apart (oldApart : account.id ≠ old.id) (newApart : account.id ≠ new.id) :
    (joinedRow old new account).mergedInto.isNone = account.mergedInto.isNone ∧
      (joinedRow old new account).firstSeenAt = account.firstSeenAt := by
  unfold joinedRow
  by_cases pointed : account.mergedInto = some old.id
  · simp [oldApart, newApart, pointed]
  · simp [oldApart, newApart, pointed]

theorem joinedRow_old (named : account.id = old.id) (differs : old.id ≠ new.id) :
    (joinedRow old new account).mergedInto.isNone = false := by
  simp [joinedRow, named, differs]

/-- What a pair of `replacements` is. -/
structure Replaced (base : Tables) (old new : Account) : Prop where
  ids : Distinct Account.id base.accounts
  oldStored : old ∈ base.accounts
  newStored : new ∈ base.accounts
  pair : continues base old new = true
  sole : isSole base old new = true

/-- The previous account of a pair is removed, and the other one is not. -/
theorem removed_of_continues {tables : Tables} (pair : continues tables old new = true) :
    (stateOf tables old.id).any (·.removedAt.isSome) = true ∧
      (stateOf tables new.id).any (·.removedAt.isNone) = true := by
  simp only [continues, couldContinue, Bool.and_eq_true] at pair
  obtain ⟨⟨⟨⟨⟨_, states⟩, _⟩, _⟩, _⟩, _⟩ := pair
  obtain ⟨oldState, oldFound, states⟩ := (Option.any_eq_true _ _).mp states
  obtain ⟨newState, newFound, states⟩ := (Option.any_eq_true _ _).mp states
  simp only [statesMatch, Bool.and_eq_true] at states
  obtain ⟨⟨⟨⟨⟨removed, listed⟩, _⟩, _⟩, _⟩, _⟩ := states
  rw [oldFound, newFound]
  exact ⟨removed, listed⟩

/-- No account is the previous one of a pair and the other one of another. -/
theorem apart_of_continues {tables : Tables} {first second : Account} (states : tables.states = base.states)
    (pair : continues base old new = true) (later : continues tables first second = true) :
    second.id ≠ old.id ∧ first.id ≠ new.id := by
  obtain ⟨oldRemoved, newListed⟩ := removed_of_continues pair
  obtain ⟨firstRemoved, secondListed⟩ := removed_of_continues later
  have same (id : AccountId) : stateOf tables id = stateOf base id := by rw [stateOf, states, stateOf]
  have never (id : AccountId) (removed : (stateOf base id).any (·.removedAt.isSome) = true)
      (listed : (stateOf base id).any (·.removedAt.isNone) = true) : False := by
    obtain ⟨state, found, removed⟩ := (Option.any_eq_true _ _).mp removed
    obtain ⟨_, again, listed⟩ := (Option.any_eq_true _ _).mp listed
    obtain rfl := Option.some.inj (found.symm.trans again)
    rw [Option.isNone_iff_eq_none.mp listed] at removed
    cases removed
  rw [same] at firstRemoved secondListed
  exact ⟨fun named => never _ oldRemoved (named ▸ secondListed),
    fun named => never _ (named ▸ firstRemoved) newListed⟩

/-- The pair has the only two unmerged credentials of its source, provider, kind and label. -/
theorem Replaced.alone (replaced : Replaced base old new) (stored : other ∈ base.accounts)
    (oldApart : other.id ≠ old.id) (newApart : other.id ≠ new.id) (unmerged : other.mergedInto.isNone = true)
    (source : other.sourceId = old.sourceId) (provider : other.provider = old.provider)
    (kind : other.authKind = old.authKind) : equals (folded other.label) (folded old.label) = false := by
  have sole := replaced.sole
  simp only [isSole, Bool.and_eq_true, Bool.not_eq_true', List.any_eq_false] at sole
  by_contra alike
  refine sole.2 other stored ?_
  rw [Bool.not_eq_false] at alike
  simp [source, provider, kind, unmerged, oldApart, newApart, alike]

/-- No third account is a pair with either of the two, where it is not one after the merge. -/
theorem Replaced.others (replaced : Replaced base old new) {first : Account} (stored : first ∈ base.accounts)
    (oldApart : first.id ≠ old.id) (newApart : first.id ≠ new.id)
    (matched : rowsMatch first new = true) : False := by
  have pair := rowsMatch_of_continues replaced.pair
  simp only [rowsMatch, Bool.and_eq_true, decide_eq_true_eq] at matched pair
  obtain ⟨⟨⟨⟨⟨⟨⟨source, provider⟩, label⟩, unmerged⟩, _⟩, firstKind⟩, _⟩, _⟩ := matched
  obtain ⟨⟨⟨⟨⟨⟨⟨itsSource, itsProvider⟩, itsLabel⟩, _⟩, _⟩, oldKind⟩, _⟩, _⟩ := pair
  have apart := replaced.alone stored oldApart newApart unmerged (source.symm.trans itsSource)
    (provider.symm.trans itsProvider) (firstKind.trans oldKind.symm)
  rw [equals_symm] at label
  rw [equals_trans label itsLabel] at apart
  cases apart

theorem Replaced.alike (replaced : Replaced base old new) :
    new.sourceId = old.sourceId ∧ new.provider = old.provider ∧ new.authKind = old.authKind ∧
      new.mergedInto.isNone = true ∧ new.id ≠ old.id ∧
      equals (folded new.label) (folded old.label) = true := alike_of_continues replaced.pair

theorem Replaced.joinedRow_new (replaced : Replaced base old new) :
    (joinedRow old new new).mergedInto.isNone = true := by
  obtain ⟨_, _, _, unmerged, differs, _⟩ := replaced.alike
  rw [Option.isNone_iff_eq_none] at unmerged
  simp [joinedRow, widen, differs, unmerged]

theorem hasPlan_combined {id : AccountId} (oldApart : id ≠ old.id) (newApart : id ≠ new.id) :
    hasPlan (combined old.id new.id old base) id = hasPlan base id := by
  show (base.plans.map _).any _ = base.plans.any _
  rw [List.any_map]
  congr 1
  funext plan
  by_cases moves : plan.accountId = old.id
  · simp [moves, oldApart.symm, newApart.symm]
  · simp [moves]

section Third
variable {first second : Account} (replaced : Replaced base old new) (firstStored : first ∈ base.accounts)
  (firstOld : first.id ≠ old.id) (firstNew : first.id ≠ new.id)
include firstOld firstNew

theorem continues_combined (secondOld : second.id ≠ old.id) (secondNew : second.id ≠ new.id) :
    continues (combined old.id new.id old base) (joinedRow old new first) (joinedRow old new second) =
      continues base first second := by
  have left := sameSignIn old new first
  have right := sameSignIn old new second
  obtain ⟨leftMerged, leftSeen⟩ := joinedRow_apart firstOld firstNew
  obtain ⟨rightMerged, rightSeen⟩ := joinedRow_apart secondOld secondNew
  simp only [continues, couldContinue, rowsMatch, left.id, left.sourceId, left.provider, left.authKind,
    left.label, leftMerged, leftSeen, right.id, right.sourceId, right.provider, right.authKind, right.label,
    rightMerged, rightSeen, hasPlan_combined firstOld firstNew, hasPlan_combined secondOld secondNew]
  rfl

include replaced firstStored

/-- A third account's pair is as sole as it was: it is of another label than the two, so it did not
count the account that is merged away. -/
theorem isSole_combined (matched : rowsMatch first second = true) :
    isSole (combined old.id new.id old base) (joinedRow old new first) (joinedRow old new second) =
      isSole base first second := by
  have left := sameSignIn old new first
  have right := sameSignIn old new second
  have pair := rowsMatch_of_continues replaced.pair
  simp only [rowsMatch, Bool.and_eq_true, decide_eq_true_eq] at matched pair
  obtain ⟨⟨⟨⟨⟨⟨⟨_, _⟩, _⟩, unmerged⟩, _⟩, firstKind⟩, _⟩, _⟩ := matched
  obtain ⟨⟨⟨⟨⟨⟨⟨_, _⟩, _⟩, _⟩, _⟩, oldKind⟩, _⟩, _⟩ := pair
  unfold isSole
  rw [left.label, right.label, left.id, right.id, left.sourceId, left.provider, left.authKind,
    accounts_combined, List.any_map]
  congr 2
  rw [Bool.eq_iff_iff, List.any_eq_true, List.any_eq_true]
  refine exists_congr fun third => and_congr_right fun stored => ?_
  have same := sameSignIn old new third
  simp only [Function.comp_apply, same.id, same.sourceId, same.provider, same.authKind, same.label]
  by_cases oldNamed : third.id = old.id
  · -- The account that is merged away was of another label.
    obtain rfl := replaced.ids.eq_of_key stored replaced.oldStored oldNamed
    obtain ⟨_, _, _, _, differs, _⟩ := replaced.alike
    rw [joinedRow_old rfl differs.symm]
    have apart := replaced.alone firstStored firstOld firstNew unmerged
    rw [equals_symm] at apart
    simp only [Bool.and_eq_true, decide_eq_true_eq]
    refine ⟨fun all => absurd all.1.1.1.2 Bool.false_ne_true, ?_⟩
    rintro ⟨⟨⟨⟨⟨⟨source, provider⟩, _⟩, _⟩, _⟩, _⟩, label⟩
    rw [apart source.symm provider.symm (firstKind.trans oldKind.symm)] at label
    cases label
  · by_cases newNamed : third.id = new.id
    · obtain rfl := replaced.ids.eq_of_key stored replaced.newStored newNamed
      rw [replaced.joinedRow_new, replaced.alike.2.2.2.1]
    · rw [(joinedRow_apart oldNamed newNamed).1]

end Third

/-- The pairs of the other accounts are those of before, and neither of the two is in one. -/
theorem pair_combined (replaced : Replaced base old new) {first second : Account}
    (firstStored : first ∈ base.accounts) (secondStored : second ∈ base.accounts)
    (firstOld : first.id ≠ old.id) :
    (continues (combined old.id new.id old base) (joinedRow old new first) (joinedRow old new second) = true ∧
      isSole (combined old.id new.id old base) (joinedRow old new first) (joinedRow old new second) = true ↔
      continues base first second = true ∧ isSole base first second = true) ∧
    (continues base first second = true ∧ isSole base first second = true →
      second.id ≠ old.id ∧ second.id ≠ new.id) := by
  have left := sameSignIn old new first
  have right := sameSignIn old new second
  -- A third account that matches the replacement would have made the pair one of two.
  have notNew {tables : Tables} {one two : Account} (states : tables.states = base.states)
      (one_ : SameSignIn first one) (two_ : SameSignIn second two)
      (unmerged : first.id ≠ new.id → one.mergedInto.isNone = first.mergedInto.isNone)
      (pair : continues tables one two = true) :
      second.id ≠ old.id ∧ first.id ≠ new.id ∧ second.id ≠ new.id := by
    obtain ⟨secondOld, firstNew⟩ := apart_of_continues states replaced.pair pair
    rw [two_.id] at secondOld
    rw [one_.id] at firstNew
    refine ⟨secondOld, firstNew, fun secondNew => ?_⟩
    obtain rfl := replaced.ids.eq_of_key secondStored replaced.newStored secondNew
    refine replaced.others firstStored firstOld firstNew ?_
    have matched := rowsMatch_of_continues pair
    have kept := replaced.alike.2.2.2.1
    simp only [rowsMatch, one_.sourceId, one_.provider, one_.authKind, one_.label, two_.sourceId, two_.provider,
      two_.authKind, two_.label, unmerged firstNew, Bool.and_eq_true] at matched
    simp only [rowsMatch, matched, kept, Bool.and_self]
  have before := @notNew base first second rfl ⟨rfl, rfl, rfl, rfl, rfl, rfl⟩ ⟨rfl, rfl, rfl, rfl, rfl, rfl⟩
    fun _ => rfl
  have after := @notNew (combined old.id new.id old base) _ _ rfl left right
    fun firstNew => (joinedRow_apart firstOld firstNew).1
  refine ⟨⟨fun both => ?_, fun both => ?_⟩, fun both => ⟨(before both.1).1, (before both.1).2.2⟩⟩
  · obtain ⟨pair, sole⟩ := both
    obtain ⟨secondOld, firstNew, secondNew⟩ := after pair
    rw [continues_combined firstOld firstNew secondOld secondNew] at pair
    rw [isSole_combined replaced firstStored firstOld firstNew (rowsMatch_of_continues pair)] at sole
    exact ⟨pair, sole⟩
  · obtain ⟨pair, sole⟩ := both
    obtain ⟨secondOld, firstNew, secondNew⟩ := before pair
    rw [continues_combined firstOld firstNew secondOld secondNew,
      isSole_combined replaced firstStored firstOld firstNew (rowsMatch_of_continues pair)]
    exact ⟨pair, sole⟩

/-- After the merge the two have no replacement, and every other account has the one it had. -/
theorem linked_combined (replaced : Replaced base old new) (id : AccountId) :
    linked (replacements (combined old.id new.id old base)) id =
      if id = old.id then none else linked (replacements base) id := by
  have accounts := @accounts_combined base old new
  have ids : Distinct Account.id (combined old.id new.id old base).accounts := by
    rw [accounts]
    exact replaced.ids.map fun account => (sameSignIn old new account).id
  apply Option.ext
  intro replacement
  rw [linked_eq_some ids, mem_replacements, accounts]
  split
  next named =>
    refine iff_of_false ?_ (Option.some_ne_none _).symm
    rintro ⟨first, firstStored, second, _, same, _, pair, _⟩
    obtain ⟨row, _, rfl⟩ := List.mem_map.mp firstStored
    have matched := rowsMatch_of_continues pair
    rw [(sameSignIn old new row).id, named] at same
    simp only [rowsMatch, joinedRow_old same replaced.alike.2.2.2.2.1.symm, Bool.and_false, Bool.false_and]
      at matched
    cases matched
  next apart =>
    rw [linked_eq_some replaced.ids, mem_replacements]
    constructor
    · rintro ⟨first, firstStored, second, secondStored, same, its, pair⟩
      obtain ⟨firstRow, firstMember, rfl⟩ := List.mem_map.mp firstStored
      obtain ⟨secondRow, secondMember, rfl⟩ := List.mem_map.mp secondStored
      rw [(sameSignIn old new firstRow).id] at same
      rw [(sameSignIn old new secondRow).id] at its
      exact ⟨firstRow, firstMember, secondRow, secondMember, same, its,
        (pair_combined replaced firstMember secondMember (same ▸ apart)).1.mp pair⟩
    · rintro ⟨first, firstStored, second, secondStored, same, its, pair⟩
      exact ⟨_, List.mem_map_of_mem firstStored, _, List.mem_map_of_mem secondStored,
        (sameSignIn old new first).id.trans same, (sameSignIn old new second).id.trans its,
        (pair_combined replaced firstStored secondStored (same ▸ apart)).1.mpr pair⟩

/-- The two are linked before the merge, and no third account to either. -/
theorem Replaced.linked (replaced : Replaced base old new) :
    Continuations.linked (replacements base) old.id = some new.id ∧
      Continuations.linked (replacements base) new.id = none ∧
      ∀ id, id ≠ old.id → ∀ replacement, Continuations.linked (replacements base) id = some replacement →
        replacement ≠ old.id ∧ replacement ≠ new.id := by
  refine ⟨?_, ?_, fun id apart replacement found => ?_⟩
  · exact (linked_eq_some replaced.ids).mpr (mem_replacements.mpr ⟨old, replaced.oldStored, new,
      replaced.newStored, rfl, rfl, replaced.pair, replaced.sole⟩)
  · apply Option.eq_none_iff_forall_ne_some.mpr
    intro replacement found
    obtain ⟨first, _, second, _, same, _, pair, _⟩ :=
      mem_replacements.mp ((linked_eq_some replaced.ids).mp found)
    exact (apart_of_continues rfl replaced.pair pair).2 same
  · obtain ⟨first, firstStored, second, secondStored, same, its, pair⟩ :=
      mem_replacements.mp ((linked_eq_some replaced.ids).mp found)
    exact its ▸ (pair_combined replaced firstStored secondStored (same ▸ apart)).2 pair

theorem summaryOf_combined (id : AccountId) :
    summaryOf (combined old.id new.id old base) id = summaryOf base id := by
  have found : accountOf (combined old.id new.id old base) id =
      (accountOf base id).map (joinedRow old new) := by
    unfold accountOf
    rw [accounts_combined, lookup_map fun account => (sameSignIn old new account).id]
  unfold summaryOf
  rw [found]
  cases accountOf base id with
  | none => rfl
  | some account =>
    have same := sameSignIn old new account
    show (lookup Source.id base.sources (joinedRow old new account).sourceId).bind _ =
      (lookup Source.id base.sources account.sourceId).bind _
    simp only [same.id, same.sourceId, same.provider, same.authKind, same.label, same.displayName]

theorem summaryOf_id {tables : Tables} {id : AccountId} {summary : AccountSummary}
    (found : summaryOf tables id = some summary) : summary.id = id := by
  obtain ⟨account, stored, found⟩ := Option.bind_eq_some_iff.mp found
  obtain ⟨source, _, found⟩ := Option.bind_eq_some_iff.mp found
  obtain rfl := (Option.some.inj found).symm
  exact (lookup_mem stored).2

/-- The two accounts are of one source, so both are listed or none is. -/
theorem Replaced.summaries (replaced : Replaced base old new) :
    (summaryOf base old.id).isSome = (summaryOf base new.id).isSome := by
  have foundOld : accountOf base old.id = some old := (lookup_eq_some replaced.ids).mpr ⟨replaced.oldStored, rfl⟩
  have foundNew : accountOf base new.id = some new := (lookup_eq_some replaced.ids).mpr ⟨replaced.newStored, rfl⟩
  unfold summaryOf
  rw [foundOld, foundNew]
  show ((lookup Source.id base.sources old.sourceId).bind _).isSome =
    ((lookup Source.id base.sources new.sourceId).bind _).isSome
  rw [replaced.alike.1]
  cases lookup Source.id base.sources old.sourceId <;> rfl

/-- Each plan reads as before, but for the account of those that were the previous account's. -/
theorem listPlans_combined (replaced : Replaced base old new) {summary : AccountSummary}
    (found : summaryOf base new.id = some summary) :
    listPlans (combined old.id new.id old base) = (listPlans base).map (Listed.continued old.id summary) := by
  have named := summaryOf_id found
  obtain ⟨oldLinked, newLinked, _⟩ := replaced.linked
  have rows : (combined old.id new.id old base).plans.filterMap (listed (combined old.id new.id old base)) =
      (base.plans.filterMap (listed base)).map (Listed.continued old.id summary) := by
    show (base.plans.map _).filterMap _ = _
    rw [List.filterMap_map, List.map_filterMap]
    apply List.filterMap_congr
    intro plan stored
    dsimp only [Function.comp_apply]
    by_cases moves : plan.accountId = old.id
    · obtain ⟨before, known⟩ := Option.isSome_iff_exists.mp
        (replaced.summaries.trans (by rw [found]; rfl) : (summaryOf base old.id).isSome = true)
      simp [listed, moves, summaryOf_combined, found, known, named, summaryOf_id known, Listed.continued,
        linked_combined replaced, replaced.alike.2.2.2.2.1, newLinked]
    · simp only [listed, moves, if_false, summaryOf_combined]
      cases known : summaryOf base plan.accountId with
      | none => rfl
      | some summary =>
        simp [summaryOf_id known, moves, Listed.continued, linked_combined replaced]
  unfold listPlans
  rw [rows]
  refine (List.map_insertionSort _ _ _ _ fun first _ second _ => ?_).symm
  unfold startsBefore Listed.continued
  split <;> split <;> rfl

/-- A listed plan shows the replacement of its account, which is not the replacement of another. -/
theorem Replaced.listed (replaced : Replaced base old new) {plan : Listed} (member : plan ∈ listPlans base) :
    plan.replacedByAccountId = Continuations.linked (replacements base) plan.account.id ∧
      plan.account.id ≠ new.id := by
  obtain ⟨row, stored, shown⟩ := List.mem_filterMap.mp ((List.mem_insertionSort _).mp member)
  obtain ⟨summary, found, rfl⟩ := Option.map_eq_some_iff.mp shown
  refine ⟨rfl, fun named => ?_⟩
  have pair := replaced.pair
  simp only [continues, couldContinue, hasPlan, Bool.and_eq_true, Bool.not_eq_true', List.any_eq_false]
    at pair
  obtain ⟨⟨⟨_, planless⟩, _⟩, _⟩ := pair
  exact planless row stored (decide_eq_true ((summaryOf_id found).symm.trans named))

/-- A plan is charged with the moved events exactly as it was with the events before. -/
theorem charged_moved (replaced : Replaced base old new) {summary : AccountSummary} (named : summary.id = new.id)
    {plan : Listed} (member : plan ∈ listPlans base) (period : Timestamp × Timestamp) (event : UsageEvent) :
    charged (plan.continued old.id summary) period (Sparing.movedEvent old.id new.id event) =
      charged plan period event := by
  obtain ⟨shown, apart⟩ := replaced.listed member
  obtain ⟨oldLinked, _, others⟩ := replaced.linked
  unfold charged
  congr 2
  have account : (Sparing.movedEvent old.id new.id event).accountId =
      if event.accountId = old.id then new.id else event.accountId := rfl
  rw [Bool.eq_iff_iff]
  simp only [Bool.or_eq_true, decide_eq_true_eq]
  rw [account]
  unfold Listed.continued
  by_cases mine : plan.account.id = old.id
  · rw [shown, mine, oldLinked, if_pos rfl, named]
    by_cases moves : event.accountId = old.id
    · simp [moves]
    · simp [moves, eq_comm]
  · rw [if_neg mine, shown]
    by_cases moves : event.accountId = old.id
    · have neither (replacement : AccountId)
          (found : Continuations.linked (replacements base) plan.account.id = some replacement) :=
        others _ mine replacement found
      rw [if_pos moves, moves]
      refine iff_of_false ?_ ?_
      · rintro (same | found)
        · exact apart same.symm
        · exact (neither _ found).2 rfl
      · rintro (same | found)
        · exact mine same.symm
        · exact (neither _ found).1 rfl
    · rw [if_neg moves]

theorem chargedEvents_combined (replaced : Replaced base old new) {summary : AccountSummary}
    (named : summary.id = new.id) {plan : Listed} (member : plan ∈ listPlans base)
    (period : Timestamp × Timestamp) :
    chargedEvents (combined old.id new.id old base) (plan.continued old.id summary) period =
      (chargedEvents base plan period).map (Sparing.movedEvent old.id new.id) := by
  have moved : (combined old.id new.id old base).events =
      base.events.map (Sparing.movedEvent old.id new.id) := Sparing.moveEvents_eq new.id base
  unfold chargedEvents
  rw [moved, List.filter_map]
  congr 2
  funext event
  exact charged_moved replaced named member period event

theorem continued_billing (previous : AccountId) (summary : AccountSummary) (plan : Listed) :
    (plan.continued previous summary).periodStart = plan.periodStart ∧
      (plan.continued previous summary).periodEnd = plan.periodEnd ∧
      (plan.continued previous summary).monthlyUsd = plan.monthlyUsd := by
  unfold Listed.continued
  split <;> exact ⟨rfl, rfl, rfl⟩

section Orders
variable {value : Sql.Float64 → ℚ} {count : Nat} {now : Timestamp}

/-- The tokens of events that add up inside 64 bits, visited in any order. -/
theorem leverageTokens_of_between {events : List UsageEvent}
    (least : -2 ^ 63 ≤ below (events.map (·.totalTokens))) (most : above (events.map (·.totalTokens)) < 2 ^ 63)
    (visited : Order UsageEvent) :
    leverageTokens (visited.arrange events) = some (events.map (·.totalTokens)).sum := by
  have each := (runs_iff (by decide)).mpr ⟨least, most⟩ (visited.arrange events) (visited.perm events)
  rw [leverageTokens_eq]
  exact each

theorem fits_of_leverageTokens {events : List UsageEvent} (visited : Order UsageEvent)
    (answered : (leverageTokens (visited.arrange events)).isSome = true) :
    Fits (events.map (·.totalTokens)).sum := by
  obtain ⟨tokens, summed⟩ := Option.isSome_iff_exists.mp answered
  rw [leverageTokens_eq] at summed
  have ⟨total, fits⟩ := sum_of_run (by decide) summed
  rw [((visited.perm events).map _).sum_eq, zero_add] at total
  exact total ▸ fits

theorem exists_answered : ∃ visited : Order UsageEvent, ∀ events : List UsageEvent,
    (∀ event ∈ events, Fits event.totalTokens) → Fits (events.map (·.totalTokens)).sum →
      (leverageTokens (visited.arrange events)).isSome = true := by
  have each (events : List UsageEvent) : ∃ order : List UsageEvent, order.Perm events ∧
      ((∀ event ∈ events, Fits event.totalTokens) → Fits (events.map (·.totalTokens)).sum →
        (leverageTokens order).isSome = true) := by
    by_cases fit : (∀ event ∈ events, Fits event.totalTokens) ∧ Fits (events.map (·.totalTokens)).sum
    · obtain ⟨held, fits⟩ := fit
      rw [← zero_add (List.sum _)] at fits
      obtain ⟨order, same, ran⟩ := exists_run (by decide) (by decide) held fits
      refine ⟨order, same, fun _ _ => ?_⟩
      rw [leverageTokens_eq, ran]
      rfl
    · exact ⟨events, .rfl, fun held fits => absurd ⟨held, fits⟩ fit⟩
  choose arrange perm answered using each
  exact ⟨⟨arrange, perm⟩, answered⟩

/-- Tokens that leave 64 bits when those of one sign come first are not answered in every order. -/
theorem exists_unanswered {events : List UsageEvent}
    (outside : ¬(-2 ^ 63 ≤ below (events.map (·.totalTokens)) ∧ above (events.map (·.totalTokens)) < 2 ^ 63)) :
    ∃ visited : Order UsageEvent, leverageTokens (visited.arrange events) = none := by
  by_contra none_fails
  refine outside (between_of_runs (by decide) fun order same failed => none_fails ?_)
  classical
  refine ⟨⟨fun rows => if rows = events then order else rows, fun rows => ?_⟩, ?_⟩
  · split
    next equal => exact equal ▸ same
    next => exact .rfl
  · dsimp only
    rw [if_pos rfl, leverageTokens_eq]
    exact failed

theorem mapM_isSome {Item Answer : Type} {answer : Item → Option Answer} {items : List Item} :
    (items.mapM answer).isSome = true ↔ ∀ item ∈ items, (answer item).isSome = true := by
  induction items with
  | nil => exact iff_of_true rfl fun item none => (nomatch none)
  | cons item rest ih =>
    rw [List.mapM_cons, List.forall_mem_cons, ← ih]
    cases answer item with
    | none => exact iff_of_false Bool.false_ne_true fun both => Bool.false_ne_true both.1
    | some value => cases rest.mapM answer <;> simp

/-- The list is answered where every plan's periods are and every sum that is asked. -/
theorem list_isSome {visited : Order UsageEvent} {tables : Tables} :
    (list value visited tables count now).isSome = true ↔
      (∀ plan ∈ listPlans tables, (periods plan.periodStart plan.periodEnd now).isSome = true) ∧
      ∀ plan period, Asked tables count now plan period →
        (leverageTokens (visited.arrange (chargedEvents tables plan period))).isSome = true := by
  have one (plan : Listed) : (leverage value visited tables count now plan).isSome = true ↔
      ∃ all, periods plan.periodStart plan.periodEnd now = some all ∧
        ∀ period ∈ all.reverse.take count,
          (leverageTokens (visited.arrange (chargedEvents tables plan period))).isSome = true := by
    unfold leverage
    cases periods plan.periodStart plan.periodEnd now with
    | none => simp
    | some all =>
      have figures := @mapM_isSome _ _ (billed value visited tables plan now) (all.reverse.take count)
      simp only [billed, usage, Option.isSome_map] at figures
      simp only [Option.some.injEq, exists_eq_left', ← figures]
      show (((all.reverse.take count).mapM (billed value visited tables plan now)).bind _).isSome = true ↔ _
      cases (all.reverse.take count).mapM (billed value visited tables plan now) <;> simp
  unfold list
  rw [mapM_isSome]
  constructor
  · intro each
    refine ⟨fun plan member => ?_, ?_⟩
    · obtain ⟨all, found, _⟩ := (one plan).mp (each plan member)
      rw [found]
      rfl
    · rintro plan period ⟨member, all, found, listed⟩
      obtain ⟨_, again, answered⟩ := (one plan).mp (each plan member)
      cases found.symm.trans again
      exact answered period listed
  · rintro ⟨some_periods, answered⟩ plan member
    obtain ⟨all, found⟩ := Option.isSome_iff_exists.mp (some_periods plan member)
    exact (one plan).mpr ⟨all, found, fun period listed => answered plan period ⟨member, all, found, listed⟩⟩

end Orders

theorem mapM_map_of_mem {Item Answer : Type} {first second : Item → Option Answer} {move : Item → Item}
    {change : Answer → Answer} {items : List Item}
    (each : ∀ item ∈ items, second (move item) = (first item).map change) :
    (items.map move).mapM second = (items.mapM first).map (List.map change) := by
  induction items with
  | nil => rfl
  | cons item rest ih =>
    have later := ih fun other member => each other (List.mem_cons_of_mem _ member)
    rw [List.map_cons, List.mapM_cons, List.mapM_cons, each item List.mem_cons_self, later]
    cases first item with
    | none => rfl
    | some answer => cases rest.mapM first <;> rfl

section Merged
variable {value : Sql.Float64 → ℚ} {count : Nat} {now : Timestamp} {summary : AccountSummary}
  (replaced : Replaced base old new) (found : summaryOf base new.id = some summary)
include replaced found

/-- The merge asks for the periods that were asked for before it. -/
theorem asked_combined {plan : Listed} {period : Timestamp × Timestamp} :
    Asked (combined old.id new.id old base) count now plan period ↔
      ∃ before, plan = before.continued old.id summary ∧ Asked base count now before period := by
  unfold Asked
  rw [listPlans_combined replaced found]
  constructor
  · rintro ⟨member, all, known, listed⟩
    obtain ⟨before, held, rfl⟩ := List.mem_map.mp member
    obtain ⟨starts, finishes, _⟩ := continued_billing old.id summary before
    rw [starts, finishes] at known
    exact ⟨before, rfl, held, all, known, listed⟩
  · rintro ⟨before, rfl, held, all, known, listed⟩
    obtain ⟨starts, finishes, _⟩ := continued_billing old.id summary before
    exact ⟨List.mem_map_of_mem held, all, by rw [starts, finishes, known], listed⟩

theorem combined_isSome {after : Order UsageEvent} :
    (list value after (combined old.id new.id old base) count now).isSome = true ↔
      (∀ plan ∈ listPlans base, (periods plan.periodStart plan.periodEnd now).isSome = true) ∧
      ∀ plan period, Asked base count now plan period → (leverageTokens
        (after.arrange ((chargedEvents base plan period).map (Sparing.movedEvent old.id new.id)))).isSome = true := by
  have moved {plan : Listed} {period : Timestamp × Timestamp} (asked : Asked base count now plan period) :=
    chargedEvents_combined replaced (summaryOf_id found) asked.1 period
  rw [list_isSome, listPlans_combined replaced found, List.forall_mem_map]
  refine and_congr (forall₂_congr fun plan _ => ?_) ⟨fun each plan period asked => ?_, ?_⟩
  · obtain ⟨starts, finishes, _⟩ := continued_billing old.id summary plan
    rw [starts, finishes]
  · rw [← moved asked]
    exact each _ period ((asked_combined replaced found).mpr ⟨plan, rfl, asked⟩)
  · intro each plan period asked
    obtain ⟨before, rfl, held⟩ := (asked_combined replaced found).mp asked
    rw [moved held]
    exact each before period held

/-- The merge keeps every figure in orders that sum the tokens of each period alike. -/
theorem list_combined {before after : Order UsageEvent}
    (same : ∀ plan period, Asked base count now plan period →
      leverageTokens (after.arrange ((chargedEvents base plan period).map (Sparing.movedEvent old.id new.id))) =
        leverageTokens (before.arrange (chargedEvents base plan period))) :
    list value after (combined old.id new.id old base) count now =
      (list value before base count now).map (List.map (PlanLeverage.continued old.id summary)) := by
  unfold list
  rw [listPlans_combined replaced found]
  refine mapM_map_of_mem fun plan member => ?_
  obtain ⟨starts, finishes, price⟩ := continued_billing old.id summary plan
  unfold leverage
  rw [starts, finishes]
  cases known : periods plan.periodStart plan.periodEnd now with
  | none => rfl
  | some all =>
    have each : ∀ period ∈ all.reverse.take count,
        billed value after (combined old.id new.id old base) (plan.continued old.id summary) now (id period) =
          (billed value before base plan now period).map id := by
      intro period listed
      unfold billed usage
      dsimp only
      rw [id, chargedEvents_combined replaced (summaryOf_id found) member,
        same plan period ⟨member, all, known, listed⟩, price, Option.map_id]
      simp only [List.map_map, List.length_map]
      rfl
    have figures := mapM_map_of_mem each
    rw [List.map_id, List.map_id_fun, Option.map_id] at figures
    simp only [Option.bind_eq_bind, Option.bind_some]
    rw [figures]
    dsimp only [id]
    cases (all.reverse.take count).mapM (billed value before base plan now) <;> rfl

/-- The merge keeps the list where its sums are settled, and only there. -/
theorem keeps_combined_iff (held : ∀ event ∈ base.events, Fits event.totalTokens) :
    Keeps value base (combined old.id new.id old base) old.id summary count now ↔ Settled base count now := by
  have tokens (events : List UsageEvent) :
      (events.map (Sparing.movedEvent old.id new.id)).map (·.totalTokens) = events.map (·.totalTokens) :=
    List.map_map
  constructor
  · intro keeps
    by_contra unsettled
    simp only [Settled, not_or, not_forall, not_exists, not_and, not_not] at unsettled
    obtain ⟨⟨plan, period, asked, outside⟩, some_periods, fits⟩ := unsettled
    -- One order answers every sum before the merge, another one fails for this period after it.
    obtain ⟨before, answered⟩ := exists_answered
    rw [← not_and, ← tokens] at outside
    obtain ⟨after, failed⟩ := exists_unanswered outside
    have first : (list value before base count now).isSome = true := by
      refine list_isSome.mpr ⟨fun plan member => Option.isSome_iff_ne_none.mpr (some_periods plan member), ?_⟩
      intro plan period asked
      exact answered _ (fun event charged => held event (List.mem_of_mem_filter charged))
        (fits plan period asked)
    have second : (list value after (combined old.id new.id old base) count now).isSome = true := by
      rw [keeps before after, Option.isSome_map]
      exact first
    have sum := ((combined_isSome replaced found).mp second).2 plan period asked
    rw [failed] at sum
    cases sum
  · intro settled before after
    obtain between | missing := settled
    · apply list_combined replaced found
      intro plan period asked
      obtain ⟨least, most⟩ := between plan period asked
      rw [leverageTokens_of_between least most before, leverageTokens_of_between (by rwa [tokens]) (by rwa [tokens]),
        tokens]
    · have unanswered : list value before base count now = none ∧
          list value after (combined old.id new.id old base) count now = none := by
        simp only [← Option.not_isSome_iff_eq_none, list_isSome, combined_isSome replaced found]
        rcases missing with ⟨plan, member, none_known⟩ | ⟨plan, period, asked, outside⟩
        · have never : ¬∀ plan ∈ listPlans base, (periods plan.periodStart plan.periodEnd now).isSome = true := by
            intro each
            have known := each plan member
            rw [none_known] at known
            cases known
          exact ⟨fun both => never both.1, fun both => never both.1⟩
        · constructor
          · rintro ⟨_, answered⟩
            exact outside (fits_of_leverageTokens before (answered plan period asked))
          · rintro ⟨_, answered⟩
            have fits := fits_of_leverageTokens after (answered plan period asked)
            rw [tokens] at fits
            exact outside fits
      rw [unanswered.1, unanswered.2]
      rfl

end Merged

/-- Merging a replaced sign-in into its replacement leaves each plan as it was, but for the account
its plans are of, and keeps every plan's figures exactly where the sums of tokens are settled. -/
theorem merge_keeps_leverage_iff {runtime : Sql.Runtime} {world : Commands.World}
    (ids : Distinct Account.id base.accounts)
    (sources : ∀ account ∈ base.accounts, ∃ source ∈ base.sources, source.id = account.sourceId)
    (held : ∀ event ∈ base.events, Fits event.totalTokens)
    {previous replacement : AccountId} (pair : (previous, replacement) ∈ replacements base) {requires : Bool}
    (merged : Commands.step runtime base (.merge previous replacement requires, world) = some next)
    (value : Sql.Float64 → ℚ) (count : Nat) (now : Timestamp) :
    ∃ summary, summaryOf next replacement = some summary ∧ summary.id = replacement ∧
      listPlans next = (listPlans base).map (Listed.continued previous summary) ∧
      (Keeps value base next previous summary count now ↔ Settled base count now) := by
  obtain ⟨old, oldStored, new, newStored, rfl, rfl, continues, sole⟩ := mem_replacements.mp pair
  have replaced : Replaced base old new := ⟨ids, oldStored, newStored, continues, sole⟩
  obtain ⟨_, first, _, _, joins, _, recorded⟩ := Commands.performed_holds
    (holds_merge_combined old.id new.id requires) rfl (Commands.step_iff.mp merged)
  obtain rfl : old = first := Option.some.inj
    (((lookup_eq_some ids).mpr ⟨oldStored, rfl⟩).symm.trans joins.mergedFound)
  obtain ⟨entries, same, _⟩ := recorded
  obtain ⟨source, known, named⟩ := sources new newStored
  have listed : (summaryOf base new.id).isSome = true := by
    have found : accountOf base new.id = some new := (lookup_eq_some ids).mpr ⟨newStored, rfl⟩
    obtain ⟨row, known⟩ := Option.isSome_iff_exists.mp (lookup_isSome.mpr ⟨source, known, named⟩)
    unfold summaryOf
    rw [found]
    show ((lookup Source.id base.sources new.sourceId).bind _).isSome = true
    rw [known]
    rfl
  obtain ⟨summary, found⟩ := Option.isSome_iff_exists.mp listed
  have later : summaryOf next new.id = some summary := by
    rw [same]
    exact (summaryOf_combined new.id).trans found
  refine ⟨summary, later, summaryOf_id found, ?_⟩
  rw [same]
  exact ⟨listPlans_combined replaced found, keeps_combined_iff replaced found held⟩

/-- A sign-in of one person, who subscribed before the second was first seen. -/
def signIn (id : AccountId) : Account :=
  ⟨id, 1, "codex", s!"{id}", .oauth, some "a@b", none, none, id, id⟩

def reported (id : AccountId) (removedAt : Option Timestamp) : CredentialState :=
  ⟨id, none, none, false, false, none, [], none, some "plus", true, some 1, none, none, removedAt, none⟩

def request (id : AccountId) : UsageEvent :=
  ⟨id, 1, id, s!"{id}", "", 3, "codex", "m", none, "", none, none, none, none, 1, 0, 0, 0, 0, 0, 1, none, none,
    none, false, 200, false, none, none, none, none, some .zero, none⟩

/-- A removed sign-in that pays for a plan, and the one that replaced it. -/
def replacedSignIn : Tables := { Tables.empty with
  sources := [⟨1, "", "", .cliProxy, "", true, 0⟩]
  accounts := [signIn 1, signIn 2]
  states := [reported 1 (some 2), reported 2 none]
  plans := [⟨1, 1, "plus", .zero, 0, none⟩]
  events := [request 1, request 2] }

theorem settled_of_each {tables : Tables} {count : Nat} {now : Timestamp}
    (each : ∀ plan ∈ listPlans tables, ∀ all ∈ periods plan.periodStart plan.periodEnd now,
      ∀ period ∈ all.reverse.take count,
        -2 ^ 63 ≤ below ((chargedEvents tables plan period).map (·.totalTokens)) ∧
          above ((chargedEvents tables plan period).map (·.totalTokens)) < 2 ^ 63) :
    Settled tables count now :=
  .inl fun plan period ⟨member, all, known, listed⟩ => each plan member all known period listed

theorem a_replaced_sign_in_keeps_its_leverage : ∃ next summary,
    Commands.step .inert replacedSignIn (.merge 1 2 true, .calm 0 id) = some next ∧ summary.id = 2 ∧
    listPlans next = (listPlans replacedSignIn).map (Listed.continued 1 summary) ∧
    Keeps (fun _ => 1) replacedSignIn next 1 summary 1 4 ∧
    ((list (fun _ => 1) (.listed _) replacedSignIn 1 4).any fun entries =>
      entries.map (·.periods.map (·.requests)) = [[2]]) = true := by
  have ran : (Commands.step .inert replacedSignIn (.merge 1 2 true, .calm 0 id)).isSome = true := by
    decide +kernel
  obtain ⟨next, merged⟩ := Option.isSome_iff_exists.mp ran
  have ids : Distinct Account.id replacedSignIn.accounts := by simp [Distinct, replacedSignIn, signIn]
  have pair : (1, 2) ∈ replacements replacedSignIn := by decide
  have held : ∀ event ∈ replacedSignIn.events, Fits event.totalTokens := by decide
  have settled : Settled replacedSignIn 1 4 := settled_of_each (by decide)
  obtain ⟨summary, _, named, moved, kept⟩ :=
    merge_keeps_leverage_iff ids (by simp [replacedSignIn, signIn]) held pair merged (fun _ => 1) 1 4
  exact ⟨next, summary, merged, named, moved, kept.mpr settled, by decide⟩

/-- The order of the index on the account and the instant. -/
def byIndex : Order UsageEvent where
  arrange events := events.insertionSort fun first second => first.accountId < second.accountId ∨
    first.accountId = second.accountId ∧ first.occurredAt ≤ second.occurredAt
  perm events := List.perm_insertionSort _ events

/-- The sign-in's tokens with one of its requests counted below zero. -/
def overspent : Tables := { replacedSignIn with
  events := [{ request 1 with totalTokens := 2 ^ 63 - 1 }, { request 2 with occurredAt := 4, totalTokens := 3 },
    { request 1 with id := 3, occurredAt := 5, totalTokens := -5 }] }

/-- The tokens of the one account come before those of the other until the merge, which puts them in
the order of their instants: what was taken off before three were added is added first. -/
theorem a_merge_overflows : ∃ next,
    Commands.step .inert overspent (.merge 1 2 true, .calm 0 id) = some next ∧ (1, 2) ∈ replacements overspent ∧
    ((list (fun _ => 1) byIndex overspent 1 6).any fun entries =>
      entries.map (·.periods.map (·.totalTokens)) = [[2 ^ 63 - 3]]) = true ∧
    list (fun _ => 1) byIndex next 1 6 = none := by
  have ran : ((Commands.step .inert overspent (.merge 1 2 true, .calm 0 id)).any fun next =>
      list (fun _ => 1) byIndex next 1 6 = none) = true := by decide +kernel
  obtain ⟨next, merged, failed⟩ := (Option.any_eq_true _ _).mp ran
  exact ⟨next, merged, by decide, by decide, of_decide_eq_true failed⟩

end MeteredUsage.Billing.Leverage
