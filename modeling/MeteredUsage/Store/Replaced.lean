import MeteredUsage.Store.Commits
import MeteredUsage.Store.Samples
import MeteredUsage.Store.Views

/-! What replacing the windows of an account leaves. The delete spares the key of the evidence a
rejected request leaves, and a provider can name a window of its own by that key. -/

namespace MeteredUsage.Store.Replaced
open MeteredUsage.Values MeteredUsage.Store.Schema MeteredUsage.Store.Windows MeteredUsage.Store.Snapshots
open MeteredUsage.Store.Statements MeteredUsage.Store.Samples MeteredUsage.Library.Keyed
open MeteredUsage.Library.Transaction
open MeteredUsage.Store.Commits (succeeds_attempt)
open MeteredUsage.Store.Views (mem_iff_seenAs mem_changedSubjects)

variable {runtime : Sql.Runtime} {id : AccountId} {base tables : Tables} {windows : List NewWindow}
  {window : NewWindow} {stored : List QuotaWindow} {observedAt : Timestamp}

/-- The stored windows of an account. -/
def windowsOf (tables : Tables) (id : AccountId) : List QuotaWindow :=
  tables.windows.filter (·.accountId = id)

/-- The primary key of `quota_window`. -/
def primaryKey (window : QuotaWindow) : AccountId × String := (window.accountId, window.windowKey)

/-- The tables without the windows a report replaces. -/
def cleared (id : AccountId) : Tables → Tables :=
  deleteWindows fun window => window.accountId = id && window.windowKey ≠ responseKey

/-- The tables once a reported window is stored beside what it taught. -/
def withWindow (runtime : Sql.Runtime) (stored : List QuotaWindow) (id : AccountId) (observedAt : Timestamp)
    (tables : Tables) (window : NewWindow) : Tables :=
  recorded runtime id window observedAt
    { tables with windows := tables.windows ++ [window.row stored id observedAt] }

/-- The tables once a report replaced the windows of an account. -/
def replaced (runtime : Sql.Runtime) (id : AccountId) (windows : List NewWindow) (observedAt : Timestamp)
    (tables : Tables) : Tables :=
  (firsts NewWindow.key windows).foldl (withWindow runtime (windowsOf tables id) id observedAt)
    (cleared id tables)

/-- The report once more, with each reset told at most five seconds from the stored one. -/
def Restated (stored : List QuotaWindow) (first second : NewWindow) : Prop :=
  (∃ resetsAt, second = { first with resetsAt := resetsAt }) ∧
    second.resetsAt.isSome = first.resetsAt.isSome ∧
    ∀ kept reported, (lookup QuotaWindow.windowKey stored first.key).bind QuotaWindow.resetsAt = some kept →
      second.resetsAt = some reported → ((reported - kept).natAbs : Int) ≤ resetTolerance

/-- The report is stored as it is, beside the evidence of a rejected request, and is stored again
without a change a reader sees. -/
def StoresReport (runtime : Sql.Runtime) (id : AccountId) (windows : List NewWindow) (observedAt : Timestamp)
    (base : Tables) : Prop :=
  ∀ session, Calm session → session.data = base →
    ∃ finish, replace runtime id windows observedAt session = .ok ((), finish) ∧
      windowsOf finish.data id = base.windows.filter (isWindow id responseKey) ++
        (firsts NewWindow.key windows).map (·.row (windowsOf base id) id observedAt) ∧
      (∀ other, other ≠ id → windowsOf finish.data other = windowsOf base other) ∧
      ∀ again later session', List.Forall₂ (Restated (windowsOf finish.data id)) windows again →
        Calm session' → session'.data = finish.data →
          ∃ ended, replace runtime id again later session' = .ok ((), ended) ∧
            ∀ filter, changedSubjects (seenWindows runtime finish.data filter)
              (seenWindows runtime ended.data filter) = []

theorem Restated.key {first second : NewWindow} (restated : Restated stored first second) :
    first.key = second.key := by
  obtain ⟨⟨_, rfl⟩, _⟩ := restated
  rfl

theorem keys_restated {again : List NewWindow} (restated : List.Forall₂ (Restated stored) windows again) :
    again.map NewWindow.key = windows.map NewWindow.key := by
  induction restated with
  | nil => rfl
  | cons same _ ih => rw [List.map_cons, List.map_cons, ih, same.key]

theorem windows_recorded (tables : Tables) :
    (recorded runtime id window observedAt tables).windows = tables.windows ∧
      (recorded runtime id window observedAt tables).accounts = tables.accounts := by
  unfold recorded
  cases window.sample runtime id observedAt <;> exact ⟨rfl, rfl⟩

theorem windows_withWindow (tables : Tables) :
    (withWindow runtime stored id observedAt tables window).windows =
      tables.windows ++ [window.row stored id observedAt] ∧
    (withWindow runtime stored id observedAt tables window).accounts = tables.accounts :=
  windows_recorded _

theorem windows_foldl (items : List NewWindow) (tables : Tables) :
    (items.foldl (withWindow runtime stored id observedAt) tables).windows =
      tables.windows ++ items.map (·.row stored id observedAt) ∧
    (items.foldl (withWindow runtime stored id observedAt) tables).accounts = tables.accounts := by
  induction items generalizing tables with
  | nil => exact ⟨(List.append_nil _).symm, rfl⟩
  | cons window rest ih =>
    obtain ⟨rows, accounts⟩ := ih (withWindow runtime stored id observedAt tables window)
    rw [List.foldl_cons, rows, accounts, (windows_withWindow tables).1, (windows_withWindow tables).2]
    simp

/-- The windows after a report: those of the others and the evidence, then the report. -/
theorem windows_replaced (runtime : Sql.Runtime) (id : AccountId) (windows : List NewWindow)
    (observedAt : Timestamp) (base : Tables) :
    (replaced runtime id windows observedAt base).windows =
      (cleared id base).windows ++
        (firsts NewWindow.key windows).map (·.row (windowsOf base id) id observedAt) ∧
    (replaced runtime id windows observedAt base).accounts = base.accounts :=
  windows_foldl _ _

/-- A report leaves every other table. -/
theorem replaced_frame (runtime : Sql.Runtime) (id : AccountId) (windows : List NewWindow)
    (observedAt : Timestamp) (base : Tables) :
    ∃ rows samples, replaced runtime id windows observedAt base =
      { base with windows := rows, samples := samples } := by
  have kept (items : List NewWindow) (tables : Tables)
      (frame : ∃ rows samples, tables = { base with windows := rows, samples := samples }) :
      ∃ rows samples, items.foldl (withWindow runtime (windowsOf base id) id observedAt) tables =
        { base with windows := rows, samples := samples } := by
    induction items generalizing tables with
    | nil => exact frame
    | cons window rest ih =>
      obtain ⟨rows, samples, rfl⟩ := frame
      rw [List.foldl_cons]
      apply ih
      unfold withWindow recorded
      cases window.sample runtime id observedAt <;> exact ⟨_, _, rfl⟩
  exact kept _ _ ⟨_, _, rfl⟩

theorem holds_insert (tables : Tables) : Holds (fun found => found = tables)
    (do
      attempt (insertWindow (window.row stored id observedAt))
      recordSample runtime id window observedAt)
    fun _ next => next = withWindow runtime stored id observedAt tables window := by
  apply attempt_at
  intro _ middle inserted
  unfold insertWindow at inserted
  split at inserted
  next => cases inserted
  next =>
    split at inserted
    next =>
      obtain ⟨-, rfl⟩ := Prod.mk.inj (Option.some.inj inserted)
      exact holds_recordSample window observedAt _
    next => cases inserted

/-- A report that is stored leaves its windows. -/
theorem holds_replaced (windows : List NewWindow) (observedAt : Timestamp) (base : Tables) :
    Holds (fun tables => tables = base) (replace runtime id windows observedAt)
      fun _ tables => tables = replaced runtime id windows observedAt base := by
  apply fetch_at
  apply execute_at
  exact Holds.forM_changes _ fun window _ tables => holds_insert tables

theorem succeeds_recordSample (tables : Tables) : Succeeds (fun _ found => found = tables)
    (recordSample runtime id window observedAt)
    fun _ _ next => next = recorded runtime id window observedAt tables := by
  unfold recordSample recorded
  cases window.sample runtime id observedAt with
  | none => exact Succeeds.pure fun _ _ same => same
  | some row => exact Succeeds.update fun _ _ same => congrArg (upsertSample row) same

/-- A window of a known account, under a key of its own, is stored. -/
theorem succeeds_insert (known : tables.accounts.any (·.id = id) = true)
    (free : ∀ row ∈ tables.windows, isWindow id window.key row = false) :
    Succeeds (fun _ found => found = tables)
      (do
        attempt (insertWindow (window.row stored id observedAt))
        recordSample runtime id window observedAt)
      fun _ _ next => next = withWindow runtime stored id observedAt tables window := by
  have inserted : Succeeds (fun _ found => found = tables)
      (attempt (insertWindow (window.row stored id observedAt)))
      fun _ _ next => next = { tables with windows := tables.windows ++ [window.row stored id observedAt] } := by
    apply succeeds_attempt
    rintro _ found rfl
    refine ⟨(), _, ?_, rfl⟩
    have absent : ¬found.windows.any (isWindow id window.key) = true := by
      rw [Bool.not_eq_true, List.any_eq_false]
      exact fun row member => Bool.eq_false_iff.mp (free row member)
    exact (if_neg absent).trans (if_pos known)
  exact inserted.bind fun _ => succeeds_recordSample _

/-- Windows of a known account, under keys of their own, are stored. -/
theorem succeeds_inserts {items : List NewWindow} (distinct : Distinct NewWindow.key items)
    (known : tables.accounts.any (·.id = id) = true)
    (free : ∀ window ∈ items, ∀ row ∈ tables.windows, isWindow id window.key row = false) :
    Succeeds (fun _ found => found = tables)
      (forM items fun window => do
        attempt (insertWindow (window.row stored id observedAt))
        recordSample runtime id window observedAt)
      fun _ _ next => next = items.foldl (withWindow runtime stored id observedAt) tables := by
  induction items generalizing tables with
  | nil => exact Succeeds.pure fun _ _ same => same
  | cons window rest ih =>
    obtain ⟨apart, others⟩ := List.pairwise_cons.mp distinct
    obtain ⟨rows, accounts⟩ := @windows_withWindow runtime id window stored observedAt tables
    rw [List.forM_cons]
    apply (succeeds_insert known (free window List.mem_cons_self)).bind
    intro _
    apply ih others (by rw [accounts]; exact known)
    intro later member row present
    rw [rows] at present
    rcases List.mem_append.mp present with before | here
    · exact free later (List.mem_cons_of_mem _ member) row before
    · obtain rfl := List.mem_singleton.mp here
      simp [isWindow, NewWindow.row, apart later member]

theorem mem_cleared {row : QuotaWindow} : row ∈ (cleared id base).windows ↔
    row ∈ base.windows ∧ (row.accountId = id → row.windowKey = responseKey) := by
  simp [cleared, deleteWindows, List.mem_filter, imp_iff_not_or]

/-- A report that spares the evidence's key is stored. -/
theorem succeeds_replaced (known : base.accounts.any (·.id = id) = true)
    (spared : ∀ window ∈ windows, window.key ≠ responseKey) :
    Succeeds (fun _ tables => tables = base) (replace runtime id windows observedAt)
      fun _ _ tables => tables = replaced runtime id windows observedAt base := by
  have read : Succeeds (fun _ tables => tables = base) (fetch fun tables => windowsOf tables id)
      fun stored _ tables => tables = base ∧ stored = windowsOf base id :=
    Succeeds.query fun _ _ same => ⟨same, congrArg (windowsOf · id) same⟩
  apply read.bind
  intro stored
  have deleted : Succeeds (fun _ tables => tables = base ∧ stored = windowsOf base id)
      (execute (cleared id)) fun _ _ tables => tables = cleared id base ∧ stored = windowsOf base id :=
    Succeeds.update fun _ _ same => ⟨congrArg _ same.1, same.2⟩
  apply deleted.bind
  intro _
  have free : ∀ window ∈ firsts NewWindow.key windows, ∀ row ∈ (cleared id base).windows,
      isWindow id window.key row = false := by
    intro window member row present
    obtain ⟨_, evidence⟩ := mem_cleared.mp present
    by_contra taken
    simp only [isWindow, Bool.not_eq_false, Bool.and_eq_true, decide_eq_true_eq] at taken
    exact spared window (mem_of_mem_firsts member) (taken.2.symm.trans (evidence taken.1))
  have still : (cleared id base).accounts.any (·.id = id) = true := known
  constructor
  rintro session calm ⟨same, rfl⟩
  exact (succeeds_inserts (distinct_firsts windows) still free).runs session calm same

/-- A stored report keeps the keys of the rows apart. -/
theorem holds_distinct (windows : List NewWindow) (observedAt : Timestamp) :
    Holds (fun tables => Distinct primaryKey tables.windows) (replace runtime id windows observedAt)
      fun _ tables => Distinct primaryKey tables.windows := by
  apply fetch_then
  intro stored
  have deleted : Holds (fun tables => Distinct primaryKey tables.windows ∧ stored = windowsOf tables id)
      (execute (cleared id)) fun _ tables => Distinct primaryKey tables.windows :=
    holds_execute fun _ known => known.1.filter _
  apply deleted.bind
  intro _
  apply Holds.forM
  intro window _
  have inserted : Holds (fun tables => Distinct primaryKey tables.windows)
      (attempt (insertWindow (window.row stored id observedAt)))
      fun _ tables => Distinct primaryKey tables.windows := by
    apply holds_attempt
    intro tables _ next distinct taken
    unfold insertWindow at taken
    split at taken
    next => cases taken
    next free =>
      split at taken
      next =>
        cases taken
        apply distinct.append_singleton
        intro row present same
        obtain ⟨account, named⟩ := Prod.mk.inj same
        exact free (List.any_eq_true.mpr ⟨row, present, by simp [isWindow, account, named]⟩)
      next => cases taken
  apply inserted.bind
  intro _
  unfold recordSample
  split
  next => exact holds_execute fun _ distinct => distinct
  next => exact Holds.pure fun _ distinct => distinct

/-- A report under the evidence's key is refused where the evidence is stored. -/
theorem refused_of_reserved (distinct : Distinct primaryKey base.windows)
    (evidence : ∃ row ∈ base.windows, isWindow id responseKey row = true)
    (reserved : ∃ window ∈ windows, window.key = responseKey) :
    Holds (fun tables => tables = base) (replace runtime id windows observedAt) fun _ _ => False := by
  have both := (holds_replaced windows observedAt base).and (@holds_distinct runtime id windows observedAt)
  refine both.weaken (fun _ same => ⟨same, same ▸ distinct⟩) ?_
  rintro _ tables ⟨rfl, apart⟩
  rw [(windows_replaced runtime id windows observedAt base).1] at apart
  obtain ⟨row, present, marks⟩ := evidence
  obtain ⟨window, member, named⟩ := exists_mem_firsts.mpr reserved
  simp only [isWindow, Bool.and_eq_true, decide_eq_true_eq] at marks
  obtain ⟨account, key⟩ := marks
  have kept : row ∈ (cleared id base).windows := mem_cleared.mpr ⟨present, fun _ => key⟩
  have inserted := List.mem_map_of_mem (f := (·.row (windowsOf base id) id observedAt)) member
  apply (List.pairwise_append.mp apart).2.2 row kept _ inserted
  simp [primaryKey, NewWindow.row, account, key, named]

theorem windowsOf_replaced (runtime : Sql.Runtime) (id : AccountId) (windows : List NewWindow)
    (observedAt : Timestamp) (base : Tables) :
    windowsOf (replaced runtime id windows observedAt base) id =
      base.windows.filter (isWindow id responseKey) ++
        (firsts NewWindow.key windows).map (·.row (windowsOf base id) id observedAt) := by
  have evidence : (cleared id base).windows.filter (·.accountId = id) =
      base.windows.filter (isWindow id responseKey) := by
    simp only [cleared, deleteWindows, List.filter_filter]
    apply List.filter_congr
    intro row _
    by_cases account : row.accountId = id <;> simp [isWindow, account]
  have reported : ((firsts NewWindow.key windows).map
      (·.row (windowsOf base id) id observedAt)).filter (·.accountId = id) =
        (firsts NewWindow.key windows).map (·.row (windowsOf base id) id observedAt) := by
    apply List.filter_eq_self.mpr
    rintro _ member
    obtain ⟨window, _, rfl⟩ := List.mem_map.mp member
    exact decide_eq_true rfl
  rw [windowsOf, (windows_replaced runtime id windows observedAt base).1, List.filter_append, evidence, reported]

theorem windowsOf_other {other : AccountId} (apart : other ≠ id) :
    windowsOf (replaced runtime id windows observedAt base) other = windowsOf base other := by
  have kept : (cleared id base).windows.filter (·.accountId = other) = windowsOf base other := by
    apply filter_filter_kept
    intro row _ named
    simp [of_decide_eq_true named, apart]
  have none : ((firsts NewWindow.key windows).map
      (·.row (windowsOf base id) id observedAt)).filter (·.accountId = other) = [] := by
    apply List.filter_eq_nil_iff.mpr
    rintro _ member
    obtain ⟨window, _, rfl⟩ := List.mem_map.mp member
    simp [NewWindow.row, apart.symm]
  rw [windowsOf, (windows_replaced runtime id windows observedAt base).1, List.filter_append, kept, none,
    List.append_nil]

/-- A report that spares the evidence's key is cleared as a whole by the next one. -/
theorem cleared_replaced (spared : ∀ window ∈ windows, window.key ≠ responseKey) :
    (cleared id (replaced runtime id windows observedAt base)).windows = (cleared id base).windows := by
  have gone : ((firsts NewWindow.key windows).map (·.row (windowsOf base id) id observedAt)).filter
      (fun row => !(row.accountId = id && row.windowKey ≠ responseKey : Bool)) = [] := by
    apply List.filter_eq_nil_iff.mpr
    rintro _ member
    obtain ⟨window, first, rfl⟩ := List.mem_map.mp member
    simp [NewWindow.row, spared window (mem_of_mem_firsts first)]
  have again := (windows_replaced runtime id windows observedAt base).1
  simp only [cleared, deleteWindows] at again ⊢
  rw [again, List.filter_append, gone, List.append_nil, List.filter_filter]
  simp only [Bool.and_self]

/-- What tells a window from another, and what a reader sees of it. -/
def glance (runtime : Sql.Runtime) (row : QuotaWindow) : AccountId × String × WindowRow :=
  (row.accountId, row.windowKey, windowRow runtime row)

/-- A reset told again near the stored one is stored as it was. -/
theorem glance_restated {first second : NewWindow} {before : List QuotaWindow} {later : Timestamp}
    (restated : Restated stored first second)
    (found : lookup QuotaWindow.windowKey stored first.key = some (first.row before id observedAt)) :
    glance runtime (second.row stored id later) = glance runtime (first.row before id observedAt) := by
  obtain ⟨⟨resetsAt, rfl⟩, told, near⟩ := restated
  have kept : resetsAt.map (keptReset ((lookup QuotaWindow.windowKey stored first.key).bind
      QuotaWindow.resetsAt)) = (first.row before id observedAt).resetsAt := by
    rw [found] at near ⊢
    rw [Option.bind_some] at near ⊢
    cases resetsAt with
    | none =>
      have untold : first.resetsAt = none := by simpa using told.symm
      simp [NewWindow.row, untold]
    | some reported =>
      obtain ⟨reset, reports⟩ := Option.isSome_iff_exists.mp (told.symm.trans rfl)
      have stands : (first.row before id observedAt).resetsAt =
          some (keptReset ((lookup QuotaWindow.windowKey before first.key).bind QuotaWindow.resetsAt) reset) := by
        rw [NewWindow.row, reports, Option.map_some]
      rw [stands, Option.map_some, keptReset, if_pos (near _ _ stands rfl)]
  simp only [glance, windowRow, Prod.mk.injEq, WindowRow.mk.injEq]
  exact ⟨rfl, rfl, rfl, rfl, rfl, rfl, rfl, rfl, kept, rfl, rfl⟩

theorem glances_restated {items others : List NewWindow} {before : List QuotaWindow} {later : Timestamp}
    (restated : List.Forall₂ (Restated stored) items others)
    (found : ∀ window ∈ items,
      lookup QuotaWindow.windowKey stored window.key = some (window.row before id observedAt)) :
    others.map (fun window => glance runtime (window.row stored id later)) =
      items.map fun window => glance runtime (window.row before id observedAt) := by
  induction restated with
  | nil => rfl
  | cons same _ ih =>
    rw [List.map_cons, List.map_cons, glance_restated same (found _ List.mem_cons_self),
      ih fun window member => found window (List.mem_cons_of_mem _ member)]

/-- A snapshot of the windows is told by what tells them apart and what is seen of them. -/
theorem seenWindows_glances (filter : Filter) {before after : Tables}
    (same : after.windows.map (glance runtime) = before.windows.map (glance runtime))
    (accounts : after.accounts = before.accounts) :
    seenWindows runtime after filter = seenWindows runtime before filter := by
  have read (tables : Tables) : seenWindows runtime tables filter =
      ((tables.windows.map (glance runtime)).filter fun told =>
        (accountOf tables told.1).any filter.admitsExactly).map fun told =>
          (.window told.1 told.2.1, .window told.2.2) := by
    simp only [seenWindows, List.filter_map, List.map_map]
    rfl
  rw [read after, read before, same]
  simp only [accountOf, accounts]

theorem changedSubjects_self {entries : List (Changes.Table.Subject × Seen)} (distinct : Distinct Prod.fst entries) :
    changedSubjects entries entries = [] := by
  apply List.eq_nil_iff_forall_not_mem.mpr
  intro subject changed
  exact (mem_changedSubjects distinct distinct).mp changed rfl

theorem distinct_windowsOf (distinct : Distinct primaryKey tables.windows) :
    Distinct QuotaWindow.windowKey (windowsOf tables id) := by
  have apart : Distinct primaryKey (windowsOf tables id) := distinct.filter _
  refine apart.imp_of_mem fun {first second} left right differs same => differs ?_
  have owned (row : QuotaWindow) (member : row ∈ windowsOf tables id) : row.accountId = id :=
    of_decide_eq_true (List.mem_filter.mp member).2
  exact Prod.ext ((owned first left).trans (owned second right).symm) same

theorem distinct_seen (distinct : Distinct primaryKey tables.windows) (filter : Filter) :
    Distinct Prod.fst (seenWindows runtime tables filter) := by
  apply List.pairwise_map.mpr ((distinct.filter _).imp _)
  intro first second apart
  simpa [primaryKey] using apart

/-- Stored again, a report with its resets told near the stored ones changes nothing a reader sees. -/
theorem changes_nothing (spared : ∀ window ∈ windows, window.key ≠ responseKey)
    (distinct : Distinct primaryKey (replaced runtime id windows observedAt base).windows)
    {again : List NewWindow} {later : Timestamp}
    (restated : List.Forall₂ (Restated (windowsOf (replaced runtime id windows observedAt base) id)) windows again)
    (filter : Filter) :
    changedSubjects (seenWindows runtime (replaced runtime id windows observedAt base) filter)
      (seenWindows runtime (replaced runtime id again later (replaced runtime id windows observedAt base))
        filter) = [] := by
  have found : ∀ window ∈ firsts NewWindow.key windows,
      lookup QuotaWindow.windowKey (windowsOf (replaced runtime id windows observedAt base) id) window.key =
        some (window.row (windowsOf base id) id observedAt) := by
    intro window member
    rw [lookup_eq_some (distinct_windowsOf distinct), windowsOf_replaced]
    exact ⟨List.mem_append_right _ (List.mem_map_of_mem member), rfl⟩
  have firstsAgain := forall₂_firsts (fun _ _ same => same.key) restated
  have glances := @glances_restated runtime id _ observedAt _ _ _ later firstsAgain found
  have same : (replaced runtime id again later (replaced runtime id windows observedAt base)).windows.map
      (glance runtime) = (replaced runtime id windows observedAt base).windows.map (glance runtime) := by
    rw [(windows_replaced runtime id again later _).1, (windows_replaced runtime id windows observedAt base).1,
      List.map_append, cleared_replaced spared, List.map_append, List.map_map, List.map_map]
    exact congrArg _ glances
  rw [seenWindows_glances filter same (windows_replaced runtime id again later _).2]
  exact changedSubjects_self (distinct_seen distinct filter)

theorem storesReport_of_spared (known : ∃ account ∈ base.accounts, account.id = id)
    (distinct : Distinct primaryKey base.windows)
    (spared : ∀ window ∈ windows, window.key ≠ responseKey) :
    StoresReport runtime id windows observedAt base := by
  have there (tables : Tables) (same : tables.accounts = base.accounts) :
      tables.accounts.any (·.id = id) = true := by
    obtain ⟨account, member, named⟩ := known
    rw [same, List.any_eq_true]
    exact ⟨account, member, decide_eq_true named⟩
  rintro session calm rfl
  obtain ⟨_, finish, ran, _, same⟩ := (succeeds_replaced (there _ rfl) spared).runs session calm rfl
  have apart := (holds_distinct windows observedAt).ends session _ finish distinct ran
  rw [same] at apart
  refine ⟨finish, ran, ?_, fun other differs => ?_, ?_⟩
  · rw [same, windowsOf_replaced]
  · rw [same, windowsOf_other differs]
  · rintro again later session' restated quiet begun
    have sparedAgain : ∀ window ∈ again, window.key ≠ responseKey := by
      intro window member
      have named : window.key ∈ windows.map NewWindow.key := by
        rw [← keys_restated restated]
        exact List.mem_map_of_mem member
      obtain ⟨reported, first, same⟩ := List.mem_map.mp named
      rw [← same]
      exact spared reported first
    rw [same] at restated begun
    have still := there _ (windows_replaced runtime id windows observedAt session.data).2
    obtain ⟨_, ended, rerun, _, final⟩ := (succeeds_replaced still sparedAgain).runs session' quiet begun
    refine ⟨ended, rerun, fun filter => ?_⟩
    rw [final, same]
    exact changes_nothing spared apart restated filter

/-- The report told again as it was stored. -/
def toldAgain (stored : List QuotaWindow) (window : NewWindow) : NewWindow :=
  { window with resetsAt := window.resetsAt.map fun reported =>
      ((lookup QuotaWindow.windowKey stored window.key).bind QuotaWindow.resetsAt).getD reported }

theorem restated_toldAgain (window : NewWindow) : Restated stored window (toldAgain stored window) := by
  refine ⟨⟨_, rfl⟩, ?_, ?_⟩
  · simp [toldAgain]
  · intro kept reported found told
    simp only [toldAgain, found, Option.getD_some, Option.map_eq_some_iff] at told
    obtain ⟨_, _, rfl⟩ := told
    rw [sub_self]
    decide

/-- A session in which nothing fails on its own. -/
def quietly (tables : Tables) : Session Tables := ⟨tables, fun _ => false, fun _ => 0, fun next => next⟩

theorem calm_quietly (tables : Tables) : Calm (quietly tables) :=
  ⟨fun _ => rfl, fun next => by simp [quietly]⟩

/-- Once stored, a window under the evidence's key stands in the way of the next report. -/
theorem spared_of_storesReport (distinct : Distinct primaryKey base.windows)
    (stores : StoresReport runtime id windows observedAt base) :
    ∀ window ∈ windows, window.key ≠ responseKey := by
  by_contra reserved
  push Not at reserved
  obtain ⟨finish, ran, contents, _, again⟩ := stores (quietly base) (calm_quietly base) rfl
  have apart := (holds_distinct windows observedAt).ends _ _ finish distinct ran
  have evidence : ∃ row ∈ finish.data.windows, isWindow id responseKey row = true := by
    obtain ⟨window, member, named⟩ := exists_mem_firsts.mpr reserved
    have inserted : window.row (windowsOf base id) id observedAt ∈ windowsOf finish.data id := by
      rw [contents]
      exact List.mem_append_right _ (List.mem_map_of_mem member)
    refine ⟨_, (List.mem_filter.mp inserted).1, ?_⟩
    simp [isWindow, NewWindow.row, named]
  have restated : List.Forall₂ (Restated (windowsOf finish.data id)) windows
      (windows.map (toldAgain (windowsOf finish.data id))) := by
    rw [List.forall₂_map_right_iff]
    exact List.forall₂_same.mpr fun window _ => restated_toldAgain window
  obtain ⟨ended, rerun, _⟩ := again _ observedAt (quietly finish.data) restated (calm_quietly _) rfl
  have still : ∃ window ∈ windows.map (toldAgain (windowsOf finish.data id)), window.key = responseKey := by
    obtain ⟨window, member, named⟩ := reserved
    exact ⟨_, List.mem_map_of_mem member, named⟩
  exact (refused_of_reserved apart evidence still).ends (quietly finish.data) _ ended rfl rerun

/-- A report is stored as it is, and again without a change a reader sees, exactly where none of its
windows has the key of the evidence. -/
theorem storesReport_iff (known : ∃ account ∈ base.accounts, account.id = id)
    (distinct : Distinct primaryKey base.windows) :
    StoresReport runtime id windows observedAt base ↔ ∀ window ∈ windows, window.key ≠ responseKey :=
  ⟨spared_of_storesReport distinct, storesReport_of_spared known distinct⟩

/-- A bucket, by the id the provider gives it. -/
def bucket (bucketId : String) : NewWindow :=
  ⟨bucketId, bucketId, some .one, none, none, none, none, none, .account, false⟩

/-- One account, without a window yet. -/
def registered : Tables := { Tables.empty with
  accounts := [⟨1, 1, "antigravity", "key", .oauth, none, none, none, 0, 0⟩] }

theorem distinct_registered : Distinct primaryKey registered.windows := List.Pairwise.nil

theorem a_bucket_is_stored : StoresReport .inert 1 [bucket "gemini", bucket "gemini"] 5 registered := by
  have known : ∃ account ∈ registered.accounts, account.id = 1 := ⟨_, List.mem_singleton_self _, rfl⟩
  exact (storesReport_iff known distinct_registered).mpr (by decide)

/-- The first refresh stores the bucket, and every later one is refused. -/
theorem a_reserved_bucket_is_refused : ¬StoresReport .inert 1 [bucket "meta-subscription"] 5 registered := by
  intro stores
  exact spared_of_storesReport distinct_registered stores _ (List.mem_singleton_self _) rfl

end MeteredUsage.Store.Replaced
