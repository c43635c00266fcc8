import MeteredUsage.Store.Landing

/-! What a reader sees of each subject, and that the snapshots of a write compare it: a
subject is among the changed ones exactly when what is kept of it differs. -/

namespace MeteredUsage.Store.Views
open MeteredUsage.Values MeteredUsage.Store.Schema MeteredUsage.Store.Continuations
open MeteredUsage.Store.Snapshots MeteredUsage.Store.Validity MeteredUsage.Store.Frames
open MeteredUsage.Store.Statements MeteredUsage.Library.Keyed
open MeteredUsage.Changes.Table (Subject)

/-- What a reader sees of a subject. -/
inductive View where
  | account (row : AccountRow) (replacedBy : Option AccountId)
  | plan (row : Plan) (replacedBy : Option AccountId)
  | window (row : WindowRow)
  | resets (grants : List Grant)
deriving DecidableEq, Repr

def planOf (tables : Tables) (id : PlanId) : Option Plan := lookup Plan.id tables.plans id

def windowOf (tables : Tables) (id : AccountId) (windowKey : String) : Option QuotaWindow :=
  lookup (fun window => (window.accountId, window.windowKey)) tables.windows (id, windowKey)

def view (runtime : Sql.Runtime) (tables : Tables) (now : Timestamp) : Subject → Option View
  | .account id => (accountOf tables id).bind fun account => (accountRow tables account).map fun row =>
    .account row (linked (replacements tables) id)
  | .plan id => (planOf tables id).map fun plan =>
    .plan plan (linked (replacements tables) plan.accountId)
  | .window id windowKey => (windowOf tables id windowKey).map fun window =>
    .window (windowRow runtime window)
  | .resets id => some (.resets (grantsOf tables now id))
  | .usage | .quotaAction | .price _ | .arrival _ _ => none

/-- What a snapshot keeps of what a reader sees. -/
def kept : View → Option Seen
  | .account row replacedBy => some (.account row replacedBy)
  | .plan row replacedBy => some (.plan row.accountId replacedBy)
  | .window row => some (.window row)
  | .resets grants => if grants = [] then none else some (.resets grants)

/-- The account a subject is one of. -/
def owner (tables : Tables) : Subject → Option AccountId
  | .account id | .window id _ | .resets id => some id
  | .plan id => (planOf tables id).map Plan.accountId
  | .usage | .quotaAction | .price _ | .arrival _ _ => none

def sourceOf (tables : Tables) (subject : Subject) : Option SourceId :=
  ((owner tables subject).bind (accountOf tables)).map Account.sourceId

/-- The subject is one of an account a snapshot reads. -/
def inScope (wanted : Option SourceId) (tables : Tables) (subject : Subject) : Bool :=
  (sourceOf tables subject).any fun source => wanted.all (source = ·)

/-- The snapshots of these parts keep what is seen of the subject. -/
def compares : Parts → Subject → Bool
  | .accounts, .account _ | .accounts, .plan _ => true
  | .accounts, _ => false
  | .quota, subject => !isHidden subject

variable {charged : Prop} {tables : Tables} {runtime : Sql.Runtime} {now : Timestamp}
  {wanted : Option SourceId} {subject : Subject} {seen : Seen}

theorem windowOf_eq_some (valid : Valid charged tables) {id : AccountId} {windowKey : String}
    {window : QuotaWindow} : windowOf tables id windowKey = some window ↔
      window ∈ tables.windows ∧ window.accountId = id ∧ window.windowKey = windowKey := by
  rw [windowOf, lookup_eq_some valid.windowKeys, Prod.mk.injEq]

theorem planOf_eq_some (valid : Valid charged tables) {id : PlanId} {plan : Plan} :
    planOf tables id = some plan ↔ plan ∈ tables.plans ∧ plan.id = id :=
  lookup_eq_some valid.planIds

@[simp] theorem admits_source (account : Account) :
    Filter.admits ⟨wanted, none⟩ tables account = wanted.all (account.sourceId = ·) := by
  simp [Filter.admits]

@[simp] theorem admitsExactly_source (account : Account) :
    Filter.admitsExactly ⟨wanted, none⟩ account = wanted.all (account.sourceId = ·) := by
  simp [Filter.admitsExactly]

theorem mem_seenAccounts (valid : Valid charged tables) :
    (subject, seen) ∈ seenAccounts tables ⟨wanted, none⟩ ↔
      (∃ id, subject = .account id) ∧ inScope wanted tables subject = true ∧
        (view runtime tables now subject).bind kept = some seen := by
  simp only [seenAccounts, List.mem_filterMap, List.mem_filter, admits_source,
    Option.map_eq_some_iff, Prod.mk.injEq]
  constructor
  · rintro ⟨account, ⟨member, admitted⟩, row, shown, rfl, rfl⟩
    have found := (Landing.accountOf_eq_some valid).mpr ⟨member, rfl⟩
    refine ⟨⟨account.id, rfl⟩, ?_, ?_⟩
    · simpa [inScope, sourceOf, owner, found] using admitted
    · simp [view, found, shown, kept]
  · rintro ⟨⟨id, rfl⟩, admitted, keeps⟩
    cases found : accountOf tables id with
    | none => simp [view, found] at keeps
    | some account =>
      obtain ⟨member, rfl⟩ := (Landing.accountOf_eq_some valid).mp found
      cases shown : accountRow tables account with
      | none => simp [view, found, shown] at keeps
      | some row =>
        simp only [inScope, sourceOf, owner, Option.bind_some, found, Option.map_some,
          Option.any_some] at admitted
        simp only [view, found, shown, Option.bind_some, Option.map_some, kept, Option.some.injEq]
          at keeps
        exact ⟨account, ⟨member, admitted⟩, row, shown, rfl, keeps⟩

theorem mem_seenPlans (valid : Valid charged tables) :
    (subject, seen) ∈ seenPlans tables ⟨wanted, none⟩ ↔
      (∃ id, subject = .plan id) ∧ inScope wanted tables subject = true ∧
        (view runtime tables now subject).bind kept = some seen := by
  simp only [seenPlans, List.mem_map, List.mem_filter, Option.any_eq_true, admits_source,
    Prod.mk.injEq]
  constructor
  · rintro ⟨plan, ⟨member, account, found, admitted⟩, rfl, rfl⟩
    have stored := (planOf_eq_some valid).mpr ⟨member, rfl⟩
    refine ⟨⟨plan.id, rfl⟩, ?_, ?_⟩
    · simpa [inScope, sourceOf, owner, stored, found] using admitted
    · simp [view, stored, kept]
  · rintro ⟨⟨id, rfl⟩, admitted, keeps⟩
    cases stored : planOf tables id with
    | none => simp [view, stored] at keeps
    | some plan =>
      obtain ⟨member, rfl⟩ := (planOf_eq_some valid).mp stored
      simp only [inScope, sourceOf, owner, stored, Option.map_some, Option.bind_some,
        Option.any_map, Option.any_eq_true] at admitted
      simp only [view, stored, Option.map_some, Option.bind_some, kept, Option.some.injEq] at keeps
      exact ⟨plan, ⟨member, admitted⟩, rfl, keeps⟩

theorem mem_seenWindows (valid : Valid charged tables) :
    (subject, seen) ∈ seenWindows runtime tables ⟨wanted, none⟩ ↔
      (∃ id windowKey, subject = .window id windowKey) ∧ inScope wanted tables subject = true ∧
        (view runtime tables now subject).bind kept = some seen := by
  simp only [seenWindows, List.mem_map, List.mem_filter, Option.any_eq_true, admitsExactly_source,
    Prod.mk.injEq]
  constructor
  · rintro ⟨window, ⟨member, account, found, admitted⟩, rfl, rfl⟩
    have stored := (windowOf_eq_some valid).mpr ⟨member, rfl, rfl⟩
    refine ⟨⟨window.accountId, window.windowKey, rfl⟩, ?_, ?_⟩
    · simpa [inScope, sourceOf, owner, found] using admitted
    · simp [view, stored, kept]
  · rintro ⟨⟨id, windowKey, rfl⟩, admitted, keeps⟩
    cases stored : windowOf tables id windowKey with
    | none => simp [view, stored] at keeps
    | some window =>
      obtain ⟨member, rfl, rfl⟩ := (windowOf_eq_some valid).mp stored
      simp only [inScope, sourceOf, owner, Option.bind_some, Option.any_map, Option.any_eq_true]
        at admitted
      simp only [view, stored, Option.map_some, Option.bind_some, kept, Option.some.injEq] at keeps
      exact ⟨window, ⟨member, admitted⟩, ⟨rfl, keeps⟩⟩

theorem mem_seenResets (valid : Valid charged tables) :
    (subject, seen) ∈ seenResets tables ⟨wanted, none⟩ now ↔
      (∃ id, subject = .resets id) ∧ inScope wanted tables subject = true ∧
        (view runtime tables now subject).bind kept = some seen := by
  simp only [seenResets, List.mem_map, List.mem_filter, admitsExactly_source, Prod.mk.injEq,
    decide_eq_true_eq]
  constructor
  · rintro ⟨account, ⟨⟨member, admitted⟩, some⟩, rfl, rfl⟩
    have found := (Landing.accountOf_eq_some valid).mpr ⟨member, rfl⟩
    refine ⟨⟨account.id, rfl⟩, ?_, ?_⟩
    · simpa [inScope, sourceOf, owner, found] using admitted
    · simp [view, kept, some]
  · rintro ⟨⟨id, rfl⟩, admitted, keeps⟩
    simp only [inScope, sourceOf, owner, Option.bind_some, Option.any_map, Option.any_eq_true]
      at admitted
    obtain ⟨account, found, admitted⟩ := admitted
    obtain ⟨member, rfl⟩ := (Landing.accountOf_eq_some valid).mp found
    simp only [view, Option.bind_some, kept] at keeps
    split at keeps
    next => cases keeps
    next some => exact ⟨account, ⟨⟨member, admitted⟩, some⟩, rfl, Option.some.inj keeps⟩

/-- The entries of a snapshot of whole sources. -/
theorem mem_seen (valid : Valid charged tables) {scope : Scope} {parts : Parts}
    (whole : scope.filter tables = ⟨wanted, none⟩) :
    (subject, seen) ∈ (snapshotOf runtime scope parts now tables).seen ↔
      compares parts subject = true ∧ inScope wanted tables subject = true ∧
        (view runtime tables now subject).bind kept = some seen := by
  have accounts := @mem_seenAccounts charged tables runtime now wanted subject seen valid
  have plans := @mem_seenPlans charged tables runtime now wanted subject seen valid
  have windows := @mem_seenWindows charged tables runtime now wanted subject seen valid
  have resets := @mem_seenResets charged tables runtime now wanted subject seen valid
  cases parts with
  | accounts =>
    simp only [snapshotOf, whole, List.mem_append, accounts, plans, List.not_mem_nil, or_false]
    cases subject <;> simp [compares]
  | quota =>
    simp only [snapshotOf, whole, List.mem_append, accounts, plans, windows, resets]
    cases subject <;> simp [compares, isHidden]

theorem distinct_seenAccounts (valid : Valid charged tables) :
    Distinct Prod.fst (seenAccounts tables ⟨wanted, none⟩) := by
  apply List.Pairwise.filterMap _ _ (valid.accountIds.filter _)
  intro first second apart left named right other
  simp only [Option.map_eq_some_iff] at named other
  obtain ⟨_, _, rfl⟩ := named
  obtain ⟨_, _, rfl⟩ := other
  simpa using apart

theorem distinct_seenPlans (valid : Valid charged tables) :
    Distinct Prod.fst (seenPlans tables ⟨wanted, none⟩) := by
  apply List.pairwise_map.mpr ((valid.planIds.filter _).imp _)
  intro first second apart
  simpa using apart

theorem distinct_seenWindows (valid : Valid charged tables) :
    Distinct Prod.fst (seenWindows runtime tables ⟨wanted, none⟩) := by
  apply List.pairwise_map.mpr ((valid.windowKeys.filter _).imp _)
  intro first second apart
  simpa using apart

theorem distinct_seenResets (valid : Valid charged tables) :
    Distinct Prod.fst (seenResets tables ⟨wanted, none⟩ now) := by
  apply List.pairwise_map.mpr (((valid.accountIds.filter _).filter _).imp _)
  intro first second apart
  simpa using apart

/-- Entries of two kinds are of two subjects. -/
theorem Distinct.appendKinds {first second : List (Subject × Seen)}
    (left : Distinct Prod.fst first) (right : Distinct Prod.fst second)
    (apart : ∀ entry ∈ first, ∀ other ∈ second, entry.1.kind ≠ other.1.kind) :
    Distinct Prod.fst (first ++ second) := by
  apply left.append right
  intro entry member other stored same
  exact apart entry member other stored (congrArg Subject.kind same)

theorem distinct_seen (valid : Valid charged tables) {scope : Scope} {parts : Parts}
    (whole : scope.filter tables = ⟨wanted, none⟩) :
    Distinct Prod.fst (snapshotOf runtime scope parts now tables).seen := by
  have accounts : ∀ entry ∈ seenAccounts tables ⟨wanted, none⟩, entry.1.kind = .accountChanged := by
    rintro ⟨_, _⟩ member
    obtain ⟨⟨id, rfl⟩, _⟩ := (@mem_seenAccounts _ _ runtime now _ _ _ valid).mp member
    rfl
  have plans : ∀ entry ∈ seenPlans tables ⟨wanted, none⟩, entry.1.kind = .planChanged := by
    rintro ⟨_, _⟩ member
    obtain ⟨⟨id, rfl⟩, _⟩ := (@mem_seenPlans _ _ runtime now _ _ _ valid).mp member
    rfl
  have windows : ∀ entry ∈ seenWindows runtime tables ⟨wanted, none⟩,
      entry.1.kind = .quotaUpdated := by
    rintro ⟨_, _⟩ member
    obtain ⟨⟨id, key, rfl⟩, _⟩ := (@mem_seenWindows _ _ runtime now _ _ _ valid).mp member
    rfl
  have resets : ∀ entry ∈ seenResets tables ⟨wanted, none⟩ now, entry.1.kind = .resetUpdated := by
    rintro ⟨_, _⟩ member
    obtain ⟨⟨id, rfl⟩, _⟩ := (@mem_seenResets _ _ runtime now _ _ _ valid).mp member
    rfl
  have rows : Distinct Prod.fst (seenAccounts tables ⟨wanted, none⟩ ++
      seenPlans tables ⟨wanted, none⟩) := by
    apply Distinct.appendKinds (distinct_seenAccounts valid) (distinct_seenPlans valid)
    intro entry member other stored
    rw [accounts entry member, plans other stored]
    decide
  cases parts with
  | accounts => simpa only [snapshotOf, whole, List.append_nil] using rows
  | quota =>
    have quota : Distinct Prod.fst (seenWindows runtime tables ⟨wanted, none⟩ ++
        seenResets tables ⟨wanted, none⟩ now) := by
      apply Distinct.appendKinds (distinct_seenWindows valid) (distinct_seenResets valid)
      intro entry member other stored
      rw [windows entry member, resets other stored]
      decide
    simp only [snapshotOf, whole]
    apply Distinct.appendKinds rows quota
    intro entry member other stored
    rcases List.mem_append.mp member with left | left <;>
      rcases List.mem_append.mp stored with right | right <;>
      simp [accounts, plans, windows, resets, left, right]

theorem mem_iff_seenAs {entries : List (Subject × Seen)} (distinct : Distinct Prod.fst entries) :
    (subject, seen) ∈ entries ↔ seenAs entries subject = some seen := by
  simp only [seenAs, Option.map_eq_some_iff, lookup_eq_some distinct]
  constructor
  · exact fun member => ⟨_, ⟨member, rfl⟩, rfl⟩
  · rintro ⟨⟨_, _⟩, ⟨member, rfl⟩, rfl⟩
    exact member

/-- What a snapshot of whole sources keeps of each subject. -/
theorem seenAs_seen (valid : Valid charged tables) {scope : Scope} {parts : Parts}
    (whole : scope.filter tables = ⟨wanted, none⟩) (subject : Subject) :
    seenAs (snapshotOf runtime scope parts now tables).seen subject =
      if compares parts subject = true ∧ inScope wanted tables subject = true then
        (view runtime tables now subject).bind kept
      else none := by
  apply Option.ext
  intro seen
  rw [← mem_iff_seenAs (distinct_seen valid whole), mem_seen valid whole]
  split
  next both => simp [both]
  next neither =>
    simp only [reduceCtorEq, iff_false]
    exact fun ⟨compared, inScope, _⟩ => neither ⟨compared, inScope⟩

/-- A comparison of two reads names the subjects kept differently. -/
theorem mem_changedSubjects {before after : List (Subject × Seen)}
    (first : Distinct Prod.fst before) (second : Distinct Prod.fst after) :
    subject ∈ changedSubjects before after ↔ seenAs before subject ≠ seenAs after subject := by
  simp only [changedSubjects, List.mem_map, List.mem_append, List.mem_filter, decide_eq_true_eq]
  constructor
  · rintro ⟨⟨_, seen⟩, ⟨member, differs⟩ | ⟨member, differs⟩, rfl⟩
    · rw [(mem_iff_seenAs first).mp member]
      exact differs.symm
    · rw [(mem_iff_seenAs second).mp member]
      exact differs
  · intro differs
    cases left : seenAs before subject with
    | some seen =>
      rw [left] at differs
      exact ⟨(subject, seen), .inl ⟨(mem_iff_seenAs first).mpr left, differs.symm⟩, rfl⟩
    | none =>
      cases right : seenAs after subject with
      | none => exact absurd (left.trans right.symm) differs
      | some seen =>
        rw [left] at differs
        exact ⟨(subject, seen), .inr ⟨(mem_iff_seenAs second).mpr right, by simp [left]⟩, rfl⟩

/-- Each of the subjects is recorded once. -/
theorem count_inOrder (subjects : List Subject) (subject : Subject) :
    (inOrder subjects).count subject = if subject ∈ subjects then 1 else 0 := by
  rw [inOrder, (List.perm_insertionSort _ _).count_eq, List.count_dedup]

end MeteredUsage.Store.Views
