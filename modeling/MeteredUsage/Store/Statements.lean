import MeteredUsage.Store.Validity

/-! What the statements every write is made of do: a read leaves the tables as they are, a
recorded change touches the feed alone, and a snapshot is what its queries answer at one
state of the tables. -/

namespace MeteredUsage.Store.Statements
open MeteredUsage.Values MeteredUsage.Store.Schema MeteredUsage.Store.Snapshots
open MeteredUsage.Store.Continuations MeteredUsage.Library.Transaction
open MeteredUsage.Changes.Table (Subject Feed)

variable {Value : Type}

theorem fetch_then {Result : Type} {before : Tables → Prop} {read : Tables → Value}
    {rest : Value → Write Result} {after : Result → Tables → Prop}
    (each : ∀ value, Holds (fun tables => before tables ∧ value = read tables) (rest value) after) :
    Holds before (fetch read >>= rest) after := by
  have answered : Holds before (fetch read) fun value tables => before tables ∧ value = read tables :=
    Holds.query fun tables initial => ⟨initial, rfl⟩
  exact answered.bind each

/-- A read at one state of the tables answers what it does there. -/
theorem fetch_at {Result : Type} {base : Tables} {read : Tables → Value}
    {rest : Value → Write Result} {after : Result → Tables → Prop}
    (next : Holds (fun tables => tables = base) (rest (read base)) after) :
    Holds (fun tables => tables = base) (fetch read >>= rest) after := by
  apply fetch_then
  intro value
  constructor
  rintro session result finish ⟨same, rfl⟩ ran
  rw [same] at ran
  exact next.ends session result finish same ran

/-- A condition on the tables of a transaction that commits. -/
def OnCommit (condition : Tables → Prop) : Ending Value → Tables → Prop
  | .committed _, tables => condition tables
  | .dropped _, _ => True

theorem holds_commit {condition : Tables → Prop} (value : Value) :
    Holds condition (commit (WriteError.database .query) value) (OnCommit condition) :=
  Holds.commit fun _ holds => holds

theorem holds_dropped {before condition : Tables → Prop} (value : Value) :
    Holds before (pure (.dropped value) : Write (Ending Value)) (OnCommit condition) :=
  Holds.pure fun _ _ => trivial

theorem holds_execute {before : Tables → Prop} {change : Tables → Tables}
    {after : Unit → Tables → Prop} (holds : ∀ tables, before tables → after () (change tables)) :
    Holds before (execute change) after := Holds.update holds

theorem holds_attempt {before : Tables → Prop} {effect : Tables → Option (Value × Tables)}
    {after : Value → Tables → Prop}
    (holds : ∀ tables value next, before tables → effect tables = some (value, next) →
      after value next) : Holds before (attempt effect) after := by
  apply Holds.statement
  intro tables value next initial taken
  cases answered : effect tables with
  | none =>
    rw [answered] at taken
    cases taken
  | some answer =>
    rw [answered] at taken
    cases taken
    exact holds _ _ _ initial answered

/-- A statement whose effect at one state of the tables is known. -/
theorem attempt_at {Result : Type} {base : Tables} {effect : Tables → Option (Value × Tables)}
    {rest : Value → Write Result} {after : Result → Tables → Prop}
    (next : ∀ value middle, effect base = some (value, middle) →
      Holds (fun tables => tables = middle) (rest value) after) :
    Holds (fun tables => tables = base) (attempt effect >>= rest) after := by
  have answered : Holds (fun tables => tables = base) (attempt effect)
      fun value tables => effect base = some (value, tables) := by
    apply holds_attempt
    rintro tables value next rfl taken
    exact taken
  apply answered.bind
  intro value
  constructor
  intro session result finish taken ran
  exact (next value session.data taken).ends session result finish rfl ran

/-- A change made at one state of the tables. -/
theorem execute_at {Result : Type} {base : Tables} {change : Tables → Tables}
    {rest : Unit → Write Result} {after : Result → Tables → Prop}
    (next : Holds (fun tables => tables = change base) (rest ()) after) :
    Holds (fun tables => tables = base) (execute change >>= rest) after := by
  have changed : Holds (fun tables => tables = base) (execute change)
      fun _ tables => tables = change base := holds_execute fun _ same => congrArg change same
  exact changed.bind fun _ => next

/-- A condition on the tables other than the feed. -/
def IgnoresFeed (condition : Tables → Prop) : Prop :=
  ∀ tables feed, condition tables → condition { tables with feed := feed }

theorem holds_record {condition : Tables → Prop} (ignores : IgnoresFeed condition)
    (subject : Subject) : Holds condition (record subject) fun _ => condition := by
  apply Holds.reading_then
  intro recordedAt
  exact holds_execute fun tables initial => ignores tables _ initial

/-- What the queries of a snapshot answer. -/
def snapshotOf (runtime : Sql.Runtime) (scope : Scope) (parts : Parts) (now : Timestamp)
    (tables : Tables) : Snapshot :=
  let filter := scope.filter tables
  ⟨scope, parts, now, seenAccounts tables filter ++ seenPlans tables filter ++
    match parts with
    | .accounts => []
    | .quota => seenWindows runtime tables filter ++ seenResets tables filter now⟩

variable {before : Tables → Prop} {runtime : Sql.Runtime} {scope : Scope}

theorem holds_readQuota {parts : Parts} {now : Timestamp} {filter : Filter} :
    Holds before (readQuota runtime filter now parts) fun answer tables => before tables ∧
      answer = match parts with
        | .accounts => []
        | .quota => seenWindows runtime tables filter ++ seenResets tables filter now := by
  cases parts with
  | accounts => exact Holds.pure fun tables initial => ⟨initial, rfl⟩
  | quota =>
    apply fetch_then
    intro windows
    apply fetch_then
    intro resets
    apply Holds.pure
    rintro tables ⟨⟨initial, rfl⟩, rfl⟩
    exact ⟨initial, rfl⟩

theorem holds_read {parts : Parts} {now : Timestamp} :
    Holds before (Snapshots.read runtime scope parts now) fun snapshot tables =>
      before tables ∧ snapshot = snapshotOf runtime scope parts now tables := by
  unfold Snapshots.read
  apply fetch_then
  intro filter
  apply fetch_then
  intro accounts
  apply fetch_then
  intro plans
  apply holds_readQuota.bind
  intro quota
  apply Holds.pure
  rintro tables ⟨⟨⟨⟨initial, rfl⟩, rfl⟩, rfl⟩, rfl⟩
  exact ⟨initial, rfl⟩

/-- A read at one state of the tables answers the snapshot of that state. -/
theorem read_at {Result : Type} {parts : Parts} {now : Timestamp} {base : Tables}
    {rest : Snapshot → Write Result} {after : Result → Tables → Prop}
    (next : Holds (fun tables => tables = base) (rest (snapshotOf runtime scope parts now base)) after) :
    Holds (fun tables => tables = base) (Snapshots.read runtime scope parts now >>= rest) after := by
  apply holds_read.bind
  intro snapshot
  constructor
  rintro session value finish ⟨same, rfl⟩ ran
  rw [same] at ran
  exact next.ends session value finish same ran

/-- A write starts by reading what it will compare. -/
theorem read_then {Result : Type} {parts : Parts} {base : Tables} {rest : Snapshot → Write Result}
    {after : Result → Tables → Prop}
    (each : ∀ now, Holds (fun tables => tables = base)
      (rest (snapshotOf runtime scope parts now base)) after) :
    Holds (fun tables => tables = base)
      ((reading >>= fun now => Snapshots.read runtime scope parts now) >>= rest) after := by
  rw [bind_assoc]
  apply Holds.reading_then
  exact fun now => read_at (each now)

/-- The tables as they were, but for the subjects recorded since. -/
def Recorded (middle : Tables) (subjects : List Subject) (tables : Tables) : Prop :=
  ∃ entries, tables = { middle with feed := middle.feed.recordAll entries } ∧
    entries.map Prod.fst = subjects

theorem recorded_self (middle : Tables) : Recorded middle [] middle := ⟨[], rfl, rfl⟩

/-- What was recorded follows what was recorded before it. -/
theorem Recorded.since {middle tables : Tables} {subjects : List Subject}
    (recorded : Recorded middle subjects tables) {feed : Feed}
    (later : feed.sequence ≤ middle.feed.sequence) :
    tables.feed.since feed = middle.feed.since feed ++ subjects := by
  obtain ⟨entries, rfl, rfl⟩ := recorded
  exact Feed.since_recordAll later entries

theorem holds_record_one {middle : Tables} {subjects : List Subject} (subject : Subject) :
    Holds (Recorded middle subjects) (record subject)
      fun _ => Recorded middle (subjects ++ [subject]) := by
  apply Holds.reading_then
  intro recordedAt
  apply holds_execute
  rintro tables ⟨entries, rfl, rfl⟩
  refine ⟨entries ++ [(subject, recordedAt)], ?_, List.map_append⟩
  rw [Feed.recordAll_append]
  rfl

theorem holds_record_all {middle : Tables} {done : List Subject} (subjects : List Subject) :
    Holds (Recorded middle done) (forM subjects record)
      fun _ => Recorded middle (done ++ subjects) := by
  induction subjects generalizing done with
  | nil => exact Holds.pure fun _ recorded => (List.append_nil done).symm ▸ recorded
  | cons subject rest ih =>
    rw [List.forM_cons]
    apply (holds_record_one subject).bind
    intro _
    have assoc : done ++ subject :: rest = done ++ [subject] ++ rest := by simp
    rw [assoc]
    exact ih

/-- The subjects of a comparison are recorded, once each and in order. -/
theorem holds_compared {middle : Tables} {done : List Subject} (snapshot : Snapshot) :
    Holds (Recorded middle done) (recordChanges runtime snapshot) fun _ =>
      Recorded middle (done ++ inOrder (changedSubjects snapshot.seen
        (snapshotOf runtime snapshot.scope snapshot.parts snapshot.now middle).seen)) := by
  have same : ∀ tables, Recorded middle done tables →
      snapshotOf runtime snapshot.scope snapshot.parts snapshot.now tables =
        snapshotOf runtime snapshot.scope snapshot.parts snapshot.now middle := by
    rintro _ ⟨entries, rfl, _⟩
    rfl
  apply (holds_read.weaken (fun _ initial => initial) fun snapshot tables known =>
    And.intro known.1 (known.2.trans (same tables known.1))).bind
  intro after
  constructor
  rintro session value finish ⟨initial, rfl⟩ ran
  exact (holds_record_all _).ends session value finish initial ran

/-- A condition that holds before a part of a write may be looked at state by state. -/
theorem Holds.each {Value : Type} {before : Tables → Prop} {body : Write Value}
    {after : Value → Tables → Prop}
    (each : ∀ middle, before middle → Holds (Recorded middle []) body after) :
    Holds before body after :=
  ⟨fun session value finish initial ran =>
    (each session.data initial).ends session value finish (recorded_self _) ran⟩

theorem holds_forM_record (ignores : IgnoresFeed before) (subjects : List Subject) :
    Holds before (forM subjects record) fun _ => before :=
  Holds.forM fun subject _ => holds_record ignores subject

theorem holds_recordChanges (ignores : IgnoresFeed before) (snapshot : Snapshot) :
    Holds before (recordChanges runtime snapshot) fun _ => before := by
  apply holds_read.bind
  intro after
  apply (holds_forM_record ignores _).weaken (fun _ known => known.1)
  exact fun _ _ initial => initial

end MeteredUsage.Store.Statements
