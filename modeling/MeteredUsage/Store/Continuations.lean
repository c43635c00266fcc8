import Mathlib.Data.List.Dedup
import Mathlib.Data.List.Sort
import MeteredUsage.Library.Keyed
import MeteredUsage.Store.Schema

/-! Suggestions, and one stricter reading of them. A credential's provider, email and
reported plan type are not its identity. A suggested pair is also a replacement when nothing
else could be the pair. Both are read from the stored state each time, never stored. -/

namespace MeteredUsage.Store.Continuations
open MeteredUsage.Values MeteredUsage.Store.Schema MeteredUsage.Library.Keyed
open MeteredUsage.Library.Transaction
open MeteredUsage.Changes.Table (Subject)

/-- SQL's `=`, which NULL never satisfies. -/
def equals {Value : Type} [DecidableEq Value] : Option Value → Option Value → Bool
  | some first, some second => first = second
  | _, _ => false

theorem equals_symm {Value : Type} [DecidableEq Value] (first second : Option Value) :
    equals first second = equals second first := by
  cases first <;> cases second <;> simp [equals, eq_comm]

theorem equals_trans {Value : Type} [DecidableEq Value] {first second third : Option Value}
    (left : equals first second = true) (right : equals second third = true) : equals first third = true := by
  cases first <;> cases second <;> cases third <;> simp_all [equals]

/-- `LOWER(TRIM(…))`. -/
def folded (text : Option String) : Option String := text.map fun text => Sql.lower (Sql.trim text)

def stateOf (tables : Tables) (id : AccountId) : Option CredentialState :=
  lookup CredentialState.accountId tables.states id

def hasPlan (tables : Tables) (id : AccountId) : Bool := tables.plans.any (·.accountId = id)

def isDismissed (tables : Tables) (first second : AccountId) : Bool :=
  tables.dismissals.contains ⟨min first second, max first second⟩

/-- What the pair's own two rows of `account` must say, other than when they were seen. -/
def rowsMatch (old new : Account) : Bool :=
  new.sourceId = old.sourceId && new.provider = old.provider &&
    equals (folded new.label) (folded old.label) &&
    old.mergedInto.isNone && new.mergedInto.isNone &&
    old.authKind = .oauth && new.authKind = .oauth &&
    old.label.any fun label => 1 < Sql.instr label '@'

/-- What the pair's two credential states must say. -/
def statesMatch (old new : CredentialState) : Bool :=
  old.removedAt.isSome && new.removedAt.isNone && !new.disabled && new.softObservedAt.isSome &&
    old.plan.any (fun plan => 0 < Sql.length (Sql.trim plan)) &&
    equals (folded old.plan) (folded new.plan)

/-- Every condition of the join but the order of the first sightings. -/
def couldContinue (tables : Tables) (old new : Account) : Bool :=
  rowsMatch old new &&
    (stateOf tables old.id).any (fun oldState => (stateOf tables new.id).any (statesMatch oldState)) &&
    hasPlan tables old.id && !hasPlan tables new.id && !isDismissed tables old.id new.id

def continues (tables : Tables) (old new : Account) : Bool :=
  couldContinue tables old new && decide (old.firstSeenAt < new.firstSeenAt)

/-- No other credential of the source has the pair's provider, sign-in kind and label, and
the labels are written alike. -/
def isSole (tables : Tables) (old new : Account) : Bool :=
  equals old.label new.label && !tables.accounts.any fun other =>
    other.sourceId = old.sourceId && other.provider = old.provider &&
      other.authKind = old.authKind && other.mergedInto.isNone &&
      other.id ≠ old.id && other.id ≠ new.id && equals (folded other.label) (folded old.label)

structure Continuation where
  previous : AccountId
  replacement : AccountId
  isReplacement : Bool
deriving DecidableEq, Repr

def byId (accounts : List Account) : List Account :=
  accounts.insertionSort fun first second => first.id ≤ second.id

/-- The pairs of one previous account, by their replacement. -/
def continuationsOf (tables : Tables) (old : Account) : List Continuation :=
  ((byId tables.accounts).filter (continues tables old)).map fun new =>
    ⟨old.id, new.id, isSole tables old new⟩

/-- `Continuation::list`. -/
def list (tables : Tables) (previous : Option AccountId) : List Continuation :=
  ((byId tables.accounts).filter fun old => previous.all (old.id = ·)).flatMap
    (continuationsOf tables)

/-- `Continuation::load`. -/
def load (tables : Tables) (previous replacement : AccountId) : Option Continuation :=
  (list tables (some previous)).find? (·.replacement = replacement)

/-- Every removed credential that has exactly one possible replacement, with that
replacement. -/
def replacements (tables : Tables) : List (AccountId × AccountId) :=
  ((list tables none).filter (·.isReplacement)).map fun pair => (pair.previous, pair.replacement)

/-- `BTreeMap::get` of a map collected from pairs: a later pair took an earlier one's place. -/
def linked (links : List (AccountId × AccountId)) (id : AccountId) : Option AccountId :=
  (lookup Prod.fst links.reverse id).map Prod.snd

/-- The subjects a set of them holds, in its order. -/
def inOrder (subjects : List Subject) : List Subject :=
  subjects.dedup.insertionSort fun first second => first.rank ≤ second.rank

/-- The account and plans of every replaced credential whose replacement is not what
`before` says. -/
def linkSubjects (before after : List (AccountId × AccountId)) (tables : Tables) : List Subject :=
  (before.map Prod.fst ++ after.map Prod.fst).flatMap fun id =>
    if linked before id = linked after id then []
    else .account id :: (tables.plans.filter (·.accountId = id)).map fun plan => .plan plan.id

/-- Records `subjects`, and an `account.changed` and a `plan.changed` for every replaced
credential whose replacement is not what `before` says. -/
def recordLinkChanges (before : List (AccountId × AccountId)) (subjects : List Subject) :
    Write Unit := do
  let after ← fetch replacements
  let changed ← fetch (linkSubjects before after)
  forM (inOrder (subjects ++ changed)) record

end MeteredUsage.Store.Continuations
