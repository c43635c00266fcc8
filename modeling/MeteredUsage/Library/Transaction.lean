import Mathlib.Data.List.Basic

/-! Transactions over some data. A transaction is a sequence of statements, any of which may
fail; what it changed is kept only when it commits, and one that is dropped or fails leaves
the data as they were. The rules take a transaction apart one statement at a time, with
a condition on the data before it and one on its answer and the data after it. -/

namespace MeteredUsage.Library.Transaction

/-- A transaction in progress, with what the world has in store for it. -/
structure Session (Data : Type) where
  data : Data
  /-- Whether each statement to come fails. -/
  fails : Nat → Bool
  /-- What each reading of the clock to come answers. -/
  clock : Nat → Int
  /-- The ids the generator hands out next. -/
  ids : Nat → Nat

/-- How a transaction ends that does not fail: dropped without a commit, or committed. -/
inductive Ending (Value : Type) where
  | dropped (value : Value)
  | committed (value : Value)
deriving DecidableEq, Repr

abbrev Tx (Failure Data : Type) := StateT (Session Data) (Except Failure)

variable {Failure Data Value Result Item : Type}

/-- A statement: it fails on its own, is refused by a constraint, or answers and changes
the data. -/
def statement (failure : Failure) (effect : Data → Except Failure (Value × Data)) :
    Tx Failure Data Value := fun session =>
  if session.fails 0 then .error failure
  else (effect session.data).map fun answer =>
    (answer.1, { session with data := answer.2, fails := fun next => session.fails (next + 1) })

def query (failure : Failure) (read : Data → Value) : Tx Failure Data Value :=
  statement failure fun data => .ok (read data, data)

def update (failure : Failure) (change : Data → Data) : Tx Failure Data Unit :=
  statement failure fun data => .ok ((), change data)

/-- Ends the transaction with an error. -/
def refuse (failure : Failure) : Tx Failure Data Value := fun _ => .error failure

def refuseIf (condition : Prop) [Decidable condition] (failure : Failure) : Tx Failure Data Unit :=
  if condition then refuse failure else pure ()

/-- The value, or the error where there is none. -/
def require (failure : Failure) (value : Option Value) : Tx Failure Data Value :=
  value.elim (refuse failure) pure

def onlyIf (condition : Prop) [Decidable condition] (body : Tx Failure Data Unit) :
    Tx Failure Data Unit :=
  if condition then body else pure ()

def reading : Tx Failure Data Int := fun session =>
  .ok (session.clock 0, { session with clock := fun next => session.clock (next + 1) })

def nextId : Tx Failure Data Nat := fun session =>
  .ok (session.ids 0, { session with ids := fun next => session.ids (next + 1) })

def commit (failure : Failure) (value : Value) : Tx Failure Data (Ending Value) :=
  statement failure fun data => .ok (.committed value, data)

/-- What a transaction answers, and the data the others find after it. -/
def transact (body : Tx Failure Data (Ending Value)) (session : Session Data) :
    Except Failure (Ending Value) × Data :=
  match body session with
  | .ok (.committed value, after) => (.ok (.committed value), after.data)
  | .ok (.dropped value, _) => (.ok (.dropped value), session.data)
  | .error failure => (.error failure, session.data)

/-- Where the condition before it holds and the transaction does not fail, the condition on
its answer holds after it. -/
structure Holds (before : Data → Prop) (body : Tx Failure Data Value)
    (after : Value → Data → Prop) : Prop where
  ends : ∀ session value finish, before session.data → body session = .ok (value, finish) →
    after value finish.data

theorem Holds.weaken {before before' : Data → Prop} {body : Tx Failure Data Value}
    {after after' : Value → Data → Prop} (holds : Holds before body after)
    (stronger : ∀ data, before' data → before data)
    (weaker : ∀ value data, after value data → after' value data) : Holds before' body after' :=
  ⟨fun session value finish initial ran =>
    weaker _ _ (holds.ends session value finish (stronger _ initial) ran)⟩

theorem Holds.and {before before' : Data → Prop} {body : Tx Failure Data Value}
    {after after' : Value → Data → Prop} (left : Holds before body after)
    (right : Holds before' body after') :
    Holds (fun data => before data ∧ before' data) body fun value data =>
      after value data ∧ after' value data :=
  ⟨fun session value finish initial ran =>
    ⟨left.ends session value finish initial.1 ran, right.ends session value finish initial.2 ran⟩⟩

/-- A fact known beside the condition on the data. -/
theorem Holds.given {before : Data → Prop} {fact : Prop} {body : Tx Failure Data Value}
    {after : Value → Data → Prop} (holds : fact → Holds before body after) :
    Holds (fun data => before data ∧ fact) body after :=
  ⟨fun session value finish initial ran =>
    (holds initial.2).ends session value finish initial.1 ran⟩

/-- A condition that holds for some choice may be looked at choice by choice. -/
theorem Holds.of_exists {Choice : Type} {before : Choice → Data → Prop} {body : Tx Failure Data Value}
    {after : Value → Data → Prop} (each : ∀ choice, Holds (before choice) body after) :
    Holds (fun data => ∃ choice, before choice data) body after := by
  constructor
  rintro session value finish ⟨choice, initial⟩ ran
  exact (each choice).ends session value finish initial ran

theorem Holds.bind {before : Data → Prop} {first : Tx Failure Data Value}
    {middle : Value → Data → Prop} {rest : Value → Tx Failure Data Result}
    {after : Result → Data → Prop} (head : Holds before first middle)
    (tail : ∀ value, Holds (middle value) (rest value) after) :
    Holds before (first >>= rest) after := by
  constructor
  intro session result finish initial ran
  change (first session >>= fun answer => rest answer.1 answer.2) = _ at ran
  cases step : first session with
  | error failure =>
    rw [step] at ran
    cases ran
  | ok answer =>
    rw [step] at ran
    exact (tail _).ends _ _ _ (head.ends _ _ _ initial step) ran

theorem Holds.pure {before : Data → Prop} {value : Value} {after : Value → Data → Prop}
    (holds : ∀ data, before data → after value data) :
    Holds before (pure value : Tx Failure Data Value) after := by
  constructor
  intro session answer finish initial ran
  cases ran
  exact holds _ initial

theorem Holds.refuse {before : Data → Prop} {failure : Failure} {after : Value → Data → Prop} :
    Holds before (Transaction.refuse failure : Tx Failure Data Value) after := by
  constructor
  intro session value finish initial ran
  cases ran

theorem Holds.refuseIf {before : Data → Prop} {condition : Prop} [Decidable condition]
    {failure : Failure} {after : Unit → Data → Prop}
    (holds : ¬condition → ∀ data, before data → after () data) :
    Holds before (Transaction.refuseIf condition failure) after := by
  unfold Transaction.refuseIf
  split
  next => exact Holds.refuse
  next fails => exact Holds.pure (holds fails)

theorem Holds.require {before : Data → Prop} {failure : Failure} {value : Option Value}
    {after : Value → Data → Prop}
    (holds : ∀ found, value = some found → ∀ data, before data → after found data) :
    Holds before (Transaction.require failure value) after := by
  cases value with
  | none => exact Holds.refuse
  | some found => exact Holds.pure (holds found rfl)

theorem Holds.onlyIf {before : Data → Prop} {condition : Prop} [Decidable condition]
    {body : Tx Failure Data Unit} {after : Unit → Data → Prop}
    (taken : condition → Holds before body after)
    (skipped : ¬condition → ∀ data, before data → after () data) :
    Holds before (Transaction.onlyIf condition body) after := by
  unfold Transaction.onlyIf
  split
  next holds => exact taken holds
  next fails => exact Holds.pure (skipped fails)

theorem Holds.statement {before : Data → Prop} {failure : Failure}
    {effect : Data → Except Failure (Value × Data)} {after : Value → Data → Prop}
    (holds : ∀ data value next, before data → effect data = .ok (value, next) → after value next) :
    Holds before (Transaction.statement failure effect) after := by
  constructor
  intro session value finish initial ran
  unfold Transaction.statement at ran
  split at ran
  next => cases ran
  next =>
    cases answered : effect session.data with
    | error failure =>
      rw [answered] at ran
      cases ran
    | ok answer =>
      rw [answered] at ran
      cases ran
      exact holds _ _ _ initial answered

theorem Holds.query {before : Data → Prop} {failure : Failure} {read : Data → Value}
    {after : Value → Data → Prop} (holds : ∀ data, before data → after (read data) data) :
    Holds before (Transaction.query failure read) after := by
  apply Holds.statement
  rintro data value next initial ⟨⟩
  exact holds data initial

theorem Holds.update {before : Data → Prop} {failure : Failure} {change : Data → Data}
    {after : Unit → Data → Prop} (holds : ∀ data, before data → after () (change data)) :
    Holds before (Transaction.update failure change) after := by
  apply Holds.statement
  rintro data value next initial ⟨⟩
  exact holds data initial

theorem Holds.reading {before : Data → Prop} {after : Int → Data → Prop}
    (holds : ∀ now data, before data → after now data) :
    Holds before (Transaction.reading : Tx Failure Data Int) after := by
  constructor
  intro session value finish initial ran
  cases ran
  exact holds _ _ initial

theorem Holds.nextId {before : Data → Prop} {after : Nat → Data → Prop}
    (holds : ∀ id data, before data → after id data) :
    Holds before (Transaction.nextId : Tx Failure Data Nat) after := by
  constructor
  intro session value finish initial ran
  cases ran
  exact holds _ _ initial

theorem Holds.reading_then {before : Data → Prop} {rest : Int → Tx Failure Data Result}
    {after : Result → Data → Prop} (each : ∀ now, Holds before (rest now) after) :
    Holds before (Transaction.reading >>= rest) after :=
  (Holds.reading fun _ _ initial => initial).bind each

theorem Holds.nextId_then {before : Data → Prop} {rest : Nat → Tx Failure Data Result}
    {after : Result → Data → Prop} (each : ∀ id, Holds before (rest id) after) :
    Holds before (Transaction.nextId >>= rest) after :=
  (Holds.nextId fun _ _ initial => initial).bind each

theorem Holds.refuseIf_then {before : Data → Prop} {condition : Prop} [Decidable condition]
    {failure : Failure} {rest : Unit → Tx Failure Data Result} {after : Result → Data → Prop}
    (each : ¬condition → Holds before (rest ()) after) :
    Holds before (Transaction.refuseIf condition failure >>= rest) after := by
  have passed : Holds before (Transaction.refuseIf condition failure)
      fun _ data => ¬condition ∧ before data :=
    Holds.refuseIf fun accepted data initial => ⟨accepted, initial⟩
  exact passed.bind fun _ => ⟨fun session result finish initial ran =>
    (each initial.1).ends session result finish initial.2 ran⟩

theorem Holds.require_then {before : Data → Prop} {failure : Failure} {value : Option Value}
    {rest : Value → Tx Failure Data Result} {after : Result → Data → Prop}
    (each : ∀ found, value = some found → Holds before (rest found) after) :
    Holds before (Transaction.require failure value >>= rest) after := by
  have passed : Holds before (Transaction.require failure value)
      fun found data => value = some found ∧ before data :=
    Holds.require fun found present data initial => ⟨present, initial⟩
  exact passed.bind fun found => ⟨fun session result finish initial ran =>
    (each found initial.1).ends session result finish initial.2 ran⟩

theorem Holds.commit {before : Data → Prop} {failure : Failure} {value : Value}
    {after : Ending Value → Data → Prop} (holds : ∀ data, before data → after (.committed value) data) :
    Holds before (Transaction.commit failure value) after := by
  apply Holds.statement
  rintro data ending next initial ⟨⟩
  exact holds data initial

theorem Holds.forM {invariant : Data → Prop} {items : List Item} {body : Item → Tx Failure Data Unit}
    (kept : ∀ item ∈ items, Holds invariant (body item) fun _ => invariant) :
    Holds invariant (forM items body) fun _ => invariant := by
  induction items with
  | nil => exact Holds.pure fun _ initial => initial
  | cons item rest ih =>
    rw [List.forM_cons]
    exact (kept item (by simp)).bind fun _ => ih fun later member => kept later (by simp [member])

/-- A loop whose rounds each leave one change of the data leaves them all, in order. -/
theorem Holds.forM_changes {items : List Item} {body : Item → Tx Failure Data Unit}
    {change : Data → Item → Data} (base : Data)
    (each : ∀ item ∈ items, ∀ data,
      Holds (fun found => found = data) (body item) fun _ next => next = change data item) :
    Holds (fun data => data = base) (ForM.forM items body) fun _ next => next = items.foldl change base := by
  induction items generalizing base with
  | nil => exact Holds.pure fun _ same => same
  | cons item rest ih =>
    rw [List.forM_cons]
    exact (each item (by simp) base).bind fun _ =>
      ih _ fun later member => each later (by simp [member])

/-- A loop that carries a value through its items, with an invariant on the items done. -/
theorem Holds.foldlM {invariant : List Item → Value → Data → Prop}
    {body : Value → Item → Tx Failure Data Value} (items : List Item) {start : Value}
    (kept : ∀ done item rest value, done ++ item :: rest = items →
      Holds (invariant done value) (body value item) fun next => invariant (done ++ [item]) next) :
    Holds (invariant [] start) (items.foldlM body start) (invariant items) := by
  suffices general : ∀ rest done value, done ++ rest = items →
      Holds (invariant done value) (rest.foldlM body value) (invariant items) from
    general items [] start rfl
  intro rest
  induction rest with
  | nil =>
    intro done value whole
    rw [List.append_nil] at whole
    subst whole
    exact Holds.pure fun _ initial => initial
  | cons item rest ih =>
    intro done value whole
    rw [List.foldlM_cons]
    exact (kept done item rest value whole).bind fun next => ih (done ++ [item]) next (by simpa using whole)

theorem Holds.foldlM_keeps {invariant : Data → Prop} {body : Value → Item → Tx Failure Data Value}
    {items : List Item} {start : Value}
    (kept : ∀ item ∈ items, ∀ value, Holds invariant (body value item) fun _ => invariant) :
    Holds invariant (items.foldlM body start) fun _ => invariant := by
  induction items generalizing start with
  | nil => exact Holds.pure fun _ initial => initial
  | cons item rest ih =>
    rw [List.foldlM_cons]
    exact (kept item (by simp) start).bind fun _ => ih fun later member => kept later (by simp [member])

theorem query_then {failure : Failure} {read : Data → Value} {rest : Value → Tx Failure Data Result}
    (session : Session Data) : (query failure read >>= rest) session =
      if session.fails 0 then .error failure
      else rest (read session.data) { session with fails := fun next => session.fails (next + 1) } := by
  change (query failure read session >>= fun answer => rest answer.1 answer.2) = _
  unfold query statement
  split <;> rfl

/-- A transaction with nothing left to do but commit. -/
theorem transact_query_commit {failure : Failure} {read : Data → Value} {answer : Result}
    {rest : Value → Tx Failure Data (Ending Result)} (session : Session Data)
    (last : rest (read session.data) = commit failure answer) :
    transact (query failure read >>= rest) session =
      (if session.fails 0 || session.fails 1 then .error failure else .ok (.committed answer),
        session.data) := by
  unfold transact
  rw [query_then]
  cases read : session.fails 0 with
  | true => rfl
  | false =>
    rw [if_neg Bool.false_ne_true, last, Bool.false_or]
    cases second : session.fails 1 with
    | true => simp [commit, statement, second]
    | false => simp [commit, statement, second, Except.map]

/-- A committed transaction is a body that ran to its commit. -/
theorem transact_committed {body : Tx Failure Data (Ending Value)} {session : Session Data}
    {value : Value} {after : Data} :
    transact body session = (.ok (.committed value), after) ↔
      ∃ finish, body session = .ok (.committed value, finish) ∧ finish.data = after := by
  unfold transact
  split
  next answer finish ran => simp [ran]
  next answer finish ran => simp [ran]
  next failure ran => simp [ran]

/-- A transaction that does not commit leaves the data as they were. -/
theorem transact_unchanged {body : Tx Failure Data (Ending Value)} {session : Session Data}
    (uncommitted : ∀ value, (transact body session).1 ≠ .ok (.committed value)) :
    (transact body session).2 = session.data := by
  unfold transact at uncommitted ⊢
  split
  next value finish ran =>
    rw [ran] at uncommitted
    exact absurd rfl (uncommitted value)
  next => rfl
  next => rfl

theorem Holds.transact {before : Data → Prop} {body : Tx Failure Data (Ending Value)}
    {after : Ending Value → Data → Prop} (holds : Holds before body after)
    {session : Session Data} {value : Value} {next : Data} (initial : before session.data)
    (committed : transact body session = (.ok (.committed value), next)) :
    after (.committed value) next := by
  obtain ⟨finish, ran, same⟩ := transact_committed.mp committed
  exact same ▸ holds.ends session _ finish initial ran

/-- `Holds` with conditions on the whole session: what is to come of it as well as the data. -/
structure Carries (before : Session Data → Prop) (body : Tx Failure Data Value)
    (after : Value → Session Data → Prop) : Prop where
  ends : ∀ session value finish, before session → body session = .ok (value, finish) →
    after value finish

theorem Carries.bind {before : Session Data → Prop} {first : Tx Failure Data Value}
    {middle : Value → Session Data → Prop} {rest : Value → Tx Failure Data Result}
    {after : Result → Session Data → Prop} (head : Carries before first middle)
    (tail : ∀ value, Carries (middle value) (rest value) after) :
    Carries before (first >>= rest) after := by
  constructor
  intro session result finish initial ran
  change (first session >>= fun answer => rest answer.1 answer.2) = _ at ran
  cases step : first session with
  | error failure =>
    rw [step] at ran
    cases ran
  | ok answer =>
    rw [step] at ran
    exact (tail _).ends _ _ _ (head.ends _ _ _ initial step) ran

theorem Carries.pure {before : Session Data → Prop} {value : Value}
    {after : Value → Session Data → Prop} (carries : ∀ session, before session → after value session) :
    Carries before (pure value : Tx Failure Data Value) after := by
  constructor
  intro session answer finish initial ran
  cases ran
  exact carries _ initial

theorem Carries.statement {before : Session Data → Prop} {failure : Failure}
    {effect : Data → Except Failure (Value × Data)} {after : Value → Session Data → Prop}
    (carries : ∀ session value changed, before session → effect session.data = .ok (value, changed) →
      after value { session with
        data := changed, fails := fun next => session.fails (next + 1) }) :
    Carries before (Transaction.statement failure effect) after := by
  constructor
  intro session value finish initial ran
  unfold Transaction.statement at ran
  split at ran
  next => cases ran
  next =>
    cases answered : effect session.data with
    | error failure =>
      rw [answered] at ran
      cases ran
    | ok answer =>
      rw [answered] at ran
      cases ran
      exact carries _ _ _ initial answered

theorem Carries.query {before : Session Data → Prop} {failure : Failure} {read : Data → Value}
    {after : Value → Session Data → Prop}
    (carries : ∀ session, before session → after (read session.data) { session with
      fails := fun next => session.fails (next + 1) }) :
    Carries before (Transaction.query failure read) after := by
  apply Carries.statement
  rintro session value changed initial ⟨⟩
  exact carries session initial

theorem Carries.reading {before : Session Data → Prop} {after : Int → Session Data → Prop}
    (carries : ∀ session, before session →
      after (session.clock 0) { session with clock := fun next => session.clock (next + 1) }) :
    Carries before (Transaction.reading : Tx Failure Data Int) after := by
  constructor
  intro session value finish initial ran
  cases ran
  exact carries _ initial

theorem Carries.nextId {before : Session Data → Prop} {after : Nat → Session Data → Prop}
    (carries : ∀ session, before session →
      after (session.ids 0) { session with ids := fun next => session.ids (next + 1) }) :
    Carries before (Transaction.nextId : Tx Failure Data Nat) after := by
  constructor
  intro session value finish initial ran
  cases ran
  exact carries _ initial

theorem Carries.foldlM {invariant : List Item → Value → Session Data → Prop}
    {body : Value → Item → Tx Failure Data Value} (items : List Item) {start : Value}
    (kept : ∀ done item rest value, done ++ item :: rest = items →
      Carries (invariant done value) (body value item) fun next => invariant (done ++ [item]) next) :
    Carries (invariant [] start) (items.foldlM body start) (invariant items) := by
  suffices general : ∀ rest done value, done ++ rest = items →
      Carries (invariant done value) (rest.foldlM body value) (invariant items) from
    general items [] start rfl
  intro rest
  induction rest with
  | nil =>
    intro done value whole
    rw [List.append_nil] at whole
    subst whole
    exact Carries.pure fun _ initial => initial
  | cons item rest ih =>
    intro done value whole
    rw [List.foldlM_cons]
    exact (kept done item rest value whole).bind fun next => ih (done ++ [item]) next (by simpa using whole)

theorem Holds.carries {before : Data → Prop} {body : Tx Failure Data Value}
    {after : Value → Data → Prop} (holds : Holds before body after) :
    Carries (fun session => before session.data) body fun value session => after value session.data :=
  ⟨holds.ends⟩

theorem Carries.transact {before : Session Data → Prop} {body : Tx Failure Data (Ending Value)}
    {after : Ending Value → Session Data → Prop} (carries : Carries before body after)
    {session : Session Data} {value : Value} {next : Data} (initial : before session)
    (committed : transact body session = (.ok (.committed value), next)) :
    ∃ finish, finish.data = next ∧ after (.committed value) finish := by
  obtain ⟨finish, ran, same⟩ := transact_committed.mp committed
  exact ⟨finish, same, carries.ends session _ finish initial ran⟩

/-- No statement to come fails, and the ids to come count up. -/
structure Calm (session : Session Data) : Prop where
  fails : ∀ next, session.fails next = false
  ids : ∀ next, session.ids next = session.ids 0 + next

/-- Where the condition on the next id and the data holds and nothing fails on its own, no
constraint refuses the transaction, and the condition on its answer holds after it. -/
structure Succeeds (before : Nat → Data → Prop) (body : Tx Failure Data Value)
    (after : Value → Nat → Data → Prop) : Prop where
  runs : ∀ session, Calm session → before (session.ids 0) session.data →
    ∃ value finish, body session = .ok (value, finish) ∧ Calm finish ∧
      after value (finish.ids 0) finish.data

theorem Succeeds.weaken {before before' : Nat → Data → Prop} {body : Tx Failure Data Value}
    {after after' : Value → Nat → Data → Prop} (succeeds : Succeeds before body after)
    (stronger : ∀ next data, before' next data → before next data)
    (weaker : ∀ value next data, after value next data → after' value next data) :
    Succeeds before' body after' := by
  constructor
  intro session calm initial
  obtain ⟨value, finish, ran, still, final⟩ := succeeds.runs session calm (stronger _ _ initial)
  exact ⟨value, finish, ran, still, weaker _ _ _ final⟩

theorem Succeeds.and_holds {before : Nat → Data → Prop} {initial : Data → Prop}
    {body : Tx Failure Data Value} {after : Value → Nat → Data → Prop}
    {final : Value → Data → Prop} (succeeds : Succeeds before body after)
    (holds : Holds initial body final) :
    Succeeds (fun next data => before next data ∧ initial data) body
      fun value next data => after value next data ∧ final value data := by
  constructor
  intro session calm begun
  obtain ⟨value, finish, ran, still, done⟩ := succeeds.runs session calm begun.1
  exact ⟨value, finish, ran, still, done, holds.ends session value finish begun.2 ran⟩

theorem Succeeds.bind {before : Nat → Data → Prop} {first : Tx Failure Data Value}
    {middle : Value → Nat → Data → Prop} {rest : Value → Tx Failure Data Result}
    {after : Result → Nat → Data → Prop} (head : Succeeds before first middle)
    (tail : ∀ value, Succeeds (middle value) (rest value) after) :
    Succeeds before (first >>= rest) after := by
  constructor
  intro session calm initial
  obtain ⟨value, between, ran, still, halfway⟩ := head.runs session calm initial
  obtain ⟨result, finish, ended, quiet, final⟩ := (tail value).runs between still halfway
  refine ⟨result, finish, ?_, quiet, final⟩
  change (first session >>= fun answer => rest answer.1 answer.2) = _
  rw [ran]
  exact ended

theorem Succeeds.pure {before : Nat → Data → Prop} {value : Value}
    {after : Value → Nat → Data → Prop}
    (succeeds : ∀ next data, before next data → after value next data) :
    Succeeds before (pure value : Tx Failure Data Value) after :=
  ⟨fun session calm initial => ⟨value, session, rfl, calm, succeeds _ _ initial⟩⟩

theorem Succeeds.statement {before : Nat → Data → Prop} {failure : Failure}
    {effect : Data → Except Failure (Value × Data)} {after : Value → Nat → Data → Prop}
    (succeeds : ∀ next data, before next data →
      ∃ value changed, effect data = .ok (value, changed) ∧ after value next changed) :
    Succeeds before (Transaction.statement failure effect) after := by
  constructor
  intro session calm initial
  obtain ⟨value, changed, answered, final⟩ := succeeds _ _ initial
  have begins : ¬session.fails 0 = true := by
    rw [calm.fails]
    decide
  refine ⟨value, { session with
    data := changed, fails := fun next => session.fails (next + 1) }, ?_, ?_, final⟩
  · rw [Transaction.statement, if_neg begins, answered]
    rfl
  · exact ⟨fun next => calm.fails (next + 1), calm.ids⟩

theorem Succeeds.query {before : Nat → Data → Prop} {failure : Failure} {read : Data → Value}
    {after : Value → Nat → Data → Prop}
    (succeeds : ∀ next data, before next data → after (read data) next data) :
    Succeeds before (Transaction.query failure read) after :=
  Succeeds.statement fun next data initial => ⟨_, _, rfl, succeeds next data initial⟩

theorem Succeeds.update {before : Nat → Data → Prop} {failure : Failure} {change : Data → Data}
    {after : Unit → Nat → Data → Prop}
    (succeeds : ∀ next data, before next data → after () next (change data)) :
    Succeeds before (Transaction.update failure change) after :=
  Succeeds.statement fun next data initial => ⟨_, _, rfl, succeeds next data initial⟩

theorem Succeeds.query_then {data : Data} {failure : Failure} {read : Data → Value}
    {rest : Value → Tx Failure Data Result} {after : Result → Nat → Data → Prop}
    (succeeds : Succeeds (fun _ found => found = data) (rest (read data)) after) :
    Succeeds (fun _ found => found = data) (Transaction.query failure read >>= rest) after := by
  constructor
  intro session calm same
  have begins : ¬session.fails 0 = true := by
    rw [calm.fails]
    decide
  rw [Transaction.query_then, if_neg begins, same]
  exact succeeds.runs _ ⟨fun next => calm.fails (next + 1), calm.ids⟩ rfl

theorem Succeeds.refuseIf_then {before : Nat → Data → Prop} {condition : Prop} [Decidable condition]
    {failure : Failure} {rest : Unit → Tx Failure Data Result} {after : Result → Nat → Data → Prop}
    (accepted : ¬condition) (succeeds : Succeeds before (rest ()) after) :
    Succeeds before (Transaction.refuseIf condition failure >>= rest) after := by
  have passed : (Transaction.refuseIf condition failure : Tx Failure Data Unit) = Pure.pure () :=
    if_neg accepted
  rw [passed, pure_bind]
  exact succeeds

theorem Succeeds.reading {before : Nat → Data → Prop} {after : Int → Nat → Data → Prop}
    (succeeds : ∀ now next data, before next data → after now next data) :
    Succeeds before (Transaction.reading : Tx Failure Data Int) after :=
  ⟨fun _ calm initial => ⟨_, _, rfl, ⟨calm.fails, calm.ids⟩, succeeds _ _ _ initial⟩⟩

theorem Succeeds.nextId {before : Nat → Data → Prop} {after : Nat → Nat → Data → Prop}
    (succeeds : ∀ next data, before next data → after next (next + 1) data) :
    Succeeds before (Transaction.nextId : Tx Failure Data Nat) after := by
  constructor
  intro session calm initial
  refine ⟨_, _, rfl, ⟨calm.fails, fun next => ?_⟩, ?_⟩
  · change session.ids (next + 1) = session.ids 1 + next
    rw [calm.ids (next + 1), calm.ids 1]
    omega
  · change after (session.ids 0) (session.ids 1) session.data
    rw [calm.ids 1]
    exact succeeds _ _ initial

theorem Succeeds.onlyIf {before : Nat → Data → Prop} {condition : Prop} [Decidable condition]
    {body : Tx Failure Data Unit} {after : Unit → Nat → Data → Prop}
    (taken : condition → Succeeds before body after)
    (skipped : ¬condition → ∀ next data, before next data → after () next data) :
    Succeeds before (Transaction.onlyIf condition body) after := by
  unfold Transaction.onlyIf
  split
  next holds => exact taken holds
  next fails => exact Succeeds.pure (skipped fails)

theorem Succeeds.forM {invariant : Nat → Data → Prop} {items : List Item}
    {body : Item → Tx Failure Data Unit}
    (kept : ∀ item ∈ items, Succeeds invariant (body item) fun _ => invariant) :
    Succeeds invariant (forM items body) fun _ => invariant := by
  induction items with
  | nil => exact Succeeds.pure fun _ _ initial => initial
  | cons item rest ih =>
    rw [List.forM_cons]
    exact (kept item (by simp)).bind fun _ => ih fun later member => kept later (by simp [member])

theorem Succeeds.foldlM {invariant : Nat → Data → Prop} {body : Value → Item → Tx Failure Data Value}
    {items : List Item} {start : Value}
    (kept : ∀ item ∈ items, ∀ value, Succeeds invariant (body value item) fun _ => invariant) :
    Succeeds invariant (items.foldlM body start) fun _ => invariant := by
  induction items generalizing start with
  | nil => exact Succeeds.pure fun _ _ initial => initial
  | cons item rest ih =>
    rw [List.foldlM_cons]
    exact (kept item (by simp) start).bind fun _ => ih fun later member => kept later (by simp [member])

theorem Succeeds.commit {before : Nat → Data → Prop} {failure : Failure} {value : Value}
    {after : Ending Value → Nat → Data → Prop}
    (succeeds : ∀ next data, before next data → after (.committed value) next data) :
    Succeeds before (Transaction.commit failure value) after :=
  Succeeds.statement fun next data initial => ⟨_, _, rfl, succeeds next data initial⟩

end MeteredUsage.Library.Transaction
