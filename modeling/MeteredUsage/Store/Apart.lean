import MeteredUsage.Store.Views

/-! What a reader sees of the accounts of the other sources is read from rows that a write to
one source leaves alone. -/

namespace MeteredUsage.Store.Apart
open MeteredUsage.Values MeteredUsage.Store.Schema MeteredUsage.Store.Continuations
open MeteredUsage.Store.Snapshots MeteredUsage.Store.Validity MeteredUsage.Store.Frames
open MeteredUsage.Store.Views MeteredUsage.Library.Keyed
open MeteredUsage.Changes.Table (Subject)

variable {charged : Prop} {parts : Parts} {source : SourceId} {base tables : Tables}
  {runtime : Sql.Runtime} {now : Timestamp} {old new other : Account}

theorem sameSource (matched : rowsMatch old new = true) : new.sourceId = old.sourceId := by
  simp only [rowsMatch, Bool.and_eq_true, decide_eq_true_eq] at matched
  exact matched.1.1.1.1.1.1.1

theorem rowsMatch_of_continues (pair : continues tables old new = true) :
    rowsMatch old new = true := by
  simp only [continues, couldContinue, Bool.and_eq_true] at pair
  exact pair.1.1.1.1.1

/-- Both accounts of a pair are as `isSole` finds another credential. -/
theorem alike_of_continues (pair : continues tables old new = true) :
    new.sourceId = old.sourceId ∧ new.provider = old.provider ∧ new.authKind = old.authKind ∧
      new.mergedInto.isNone = true ∧ new.id ≠ old.id ∧
      equals (folded new.label) (folded old.label) = true := by
  have matched := rowsMatch_of_continues pair
  simp only [rowsMatch, Bool.and_eq_true, decide_eq_true_eq] at matched
  obtain ⟨⟨⟨⟨⟨⟨⟨source, provider⟩, label⟩, _⟩, unmerged⟩, oldKind⟩, newKind⟩, _⟩ := matched
  refine ⟨source, provider, newKind.trans oldKind.symm, unmerged, ?_, label⟩
  intro same
  simp only [continues, couldContinue, same, Bool.and_eq_true, Bool.not_eq_true'] at pair
  obtain ⟨⟨⟨⟨_, has⟩, lacks⟩, _⟩, _⟩ := pair
  rw [has] at lacks
  cases lacks

/-- A sole pair has the only possible replacement of its previous account. -/
theorem sole_unique (sole : isSole tables old new = true) (stored : other ∈ tables.accounts)
    (pair : continues tables old other = true) : other.id = new.id := by
  by_contra apart
  simp only [isSole, Bool.and_eq_true, Bool.not_eq_true', List.any_eq_false] at sole
  apply sole.2 other stored
  have alike := alike_of_continues pair
  simp [alike, apart]

theorem mem_replacements {id replacement : AccountId} :
    (id, replacement) ∈ replacements tables ↔
      ∃ old ∈ tables.accounts, ∃ new ∈ tables.accounts, old.id = id ∧ new.id = replacement ∧
        continues tables old new = true ∧ isSole tables old new = true := by
  simp only [replacements, list, continuationsOf, List.mem_map, List.mem_filter, List.mem_flatMap,
    byId, List.mem_insertionSort, Option.all_none, and_true, Prod.mk.injEq]
  constructor
  · rintro ⟨_, ⟨⟨old, oldStored, new, ⟨newStored, pair⟩, rfl⟩, sole⟩, rfl, rfl⟩
    exact ⟨old, oldStored, new, newStored, rfl, rfl, pair, sole⟩
  · rintro ⟨old, oldStored, new, newStored, rfl, rfl, pair, sole⟩
    exact ⟨_, ⟨⟨old, oldStored, new, ⟨newStored, pair⟩, rfl⟩, sole⟩, rfl, rfl⟩

/-- The replacement a credential shows is the one of its sole pair. -/
theorem linked_eq_some (ids : Distinct Account.id tables.accounts) {id replacement : AccountId} :
    linked (replacements tables) id = some replacement ↔
      (id, replacement) ∈ replacements tables := by
  simp only [linked, Option.map_eq_some_iff]
  constructor
  · rintro ⟨⟨_, _⟩, found, rfl⟩
    obtain ⟨member, rfl⟩ := lookup_mem found
    exact List.mem_reverse.mp member
  · intro member
    cases found : lookup Prod.fst (replacements tables).reverse id with
    | none =>
      exact absurd rfl (lookup_eq_none.mp found _ (List.mem_reverse.mpr member))
    | some link =>
      obtain ⟨known, same⟩ := lookup_mem found
      obtain ⟨_, shown⟩ := link
      obtain rfl : _ = id := same
      refine ⟨_, rfl, ?_⟩
      obtain ⟨old, oldStored, new, newStored, oldId, rfl, _, sole⟩ := mem_replacements.mp member
      obtain ⟨again, againStored, other, otherStored, againId, rfl, pair, _⟩ :=
        mem_replacements.mp (List.mem_reverse.mp known)
      obtain rfl := ids.eq_of_key oldStored againStored (oldId.trans againId.symm)
      exact sole_unique sole otherStored pair

/-- The rows of the accounts of the other sources. -/
def elsewhere (source : SourceId) (tables : Tables) : Tables :=
  { Tables.empty with
    sources := tables.sources
    accounts := tables.accounts.filter fun account => account.sourceId ≠ source
    states := tables.states.filter fun state => outside tables source state.accountId
    plans := tables.plans.filter fun plan => outside tables source plan.accountId
    dismissals := tables.dismissals
    windows := tables.windows.filter fun window => outside tables source window.accountId
    credits := tables.credits.filter fun credit => outside tables source credit.accountId }

theorem outside_eq (frame : Frame charged parts source base tables) :
    outside tables source = outside base source := by
  have named : ∀ (some : Tables) (id : AccountId), outside some source id =
      (some.accounts.filter fun account => account.sourceId ≠ source).any (·.id = id) := by
    intro some id
    simp [outside, List.any_filter, Bool.and_comm]
  funext id
  rw [named, named, frame.accounts]

theorem elsewhere_eq (frame : Frame charged parts source base tables) :
    elsewhere source tables = elsewhere source base := by
  unfold elsewhere
  rw [outside_eq frame, frame.sources, frame.accounts, frame.states, frame.plans, frame.dismissals,
    frame.windows, frame.credits]

variable (source)

theorem accountOf_elsewhere (valid : Valid charged tables) (id : AccountId) :
    accountOf (elsewhere source tables) id =
      (accountOf tables id).filter fun account => account.sourceId ≠ source :=
  lookup_filter valid.accountIds _ id

variable {source}

/-- A lookup of a row of an account of another source. -/
theorem lookup_apart {Row Key : Type} [DecidableEq Key] {key : Row → Key} {rows : List Row}
    (distinct : Distinct key rows) {kept : Row → Bool} {name : Key}
    (keeps : ∀ row ∈ rows, key row = name → kept row = true) :
    lookup key (rows.filter kept) name = lookup key rows name := by
  rw [lookup_filter distinct]
  cases found : lookup key rows name with
  | none => rfl
  | some row =>
    obtain ⟨member, named⟩ := lookup_mem found
    simp [keeps row member named]

variable {id : AccountId}

theorem stateOf_elsewhere (valid : Valid charged tables) (apart : outside tables source id = true) :
    stateOf (elsewhere source tables) id = stateOf tables id :=
  lookup_apart valid.stateIds fun _ _ same => same ▸ apart

theorem hasPlan_elsewhere (apart : outside tables source id = true) :
    hasPlan (elsewhere source tables) id = hasPlan tables id := by
  simp only [hasPlan, elsewhere, List.any_filter]
  congr 1
  funext plan
  by_cases same : plan.accountId = id <;> simp [same, apart]

theorem outside_of_mem {account : Account} (member : account ∈ tables.accounts)
    (apart : account.sourceId ≠ source) : outside tables source account.id = true :=
  outside_iff.mpr ⟨account, member, rfl, apart⟩

theorem continues_elsewhere (valid : Valid charged tables) (oldStored : old ∈ tables.accounts)
    (newStored : new ∈ tables.accounts) (oldApart : old.sourceId ≠ source)
    (newApart : new.sourceId ≠ source) :
    continues (elsewhere source tables) old new = continues tables old new := by
  have oldOutside := outside_of_mem oldStored oldApart
  have newOutside := outside_of_mem newStored newApart
  simp only [continues, couldContinue, stateOf_elsewhere valid oldOutside,
    stateOf_elsewhere valid newOutside, hasPlan_elsewhere oldOutside, hasPlan_elsewhere newOutside]
  rfl

theorem isSole_elsewhere (apart : old.sourceId ≠ source) :
    isSole (elsewhere source tables) old new = isSole tables old new := by
  simp only [isSole, elsewhere, List.any_filter]
  congr 3
  funext other
  by_cases same : other.sourceId = old.sourceId
  · simp [same, apart]
  · simp [same]

theorem linked_elsewhere (valid : Valid charged tables) (apart : outside tables source id = true) :
    linked (replacements (elsewhere source tables)) id = linked (replacements tables) id := by
  have ids : Distinct Account.id (elsewhere source tables).accounts := valid.accountIds.filter _
  obtain ⟨known, knownStored, rfl, knownApart⟩ := outside_iff.mp apart
  apply Option.ext
  intro replacement
  rw [linked_eq_some ids, linked_eq_some valid.accountIds, mem_replacements, mem_replacements]
  constructor
  · rintro ⟨old, oldStored, new, newStored, same, rfl, pair, sole⟩
    simp only [elsewhere, List.mem_filter, decide_eq_true_eq] at oldStored newStored
    rw [continues_elsewhere valid oldStored.1 newStored.1 oldStored.2 newStored.2] at pair
    rw [isSole_elsewhere oldStored.2] at sole
    exact ⟨old, oldStored.1, new, newStored.1, same, rfl, pair, sole⟩
  · rintro ⟨old, oldStored, new, newStored, same, rfl, pair, sole⟩
    obtain rfl := valid.sameAccount oldStored knownStored same
    have newApart : new.sourceId ≠ source := by
      rw [sameSource (rowsMatch_of_continues pair)]
      exact knownApart
    rw [← continues_elsewhere valid oldStored newStored knownApart newApart] at pair
    rw [← isSole_elsewhere knownApart] at sole
    refine ⟨old, ?_, new, ?_, same, rfl, pair, sole⟩
    · exact List.mem_filter.mpr ⟨oldStored, decide_eq_true knownApart⟩
    · exact List.mem_filter.mpr ⟨newStored, decide_eq_true newApart⟩

/-- An account is merged into one of its own source. -/
theorem previousRows_elsewhere (valid : Valid charged tables) (apart : outside tables source id = true) :
    previousRows (elsewhere source tables) id = previousRows tables id := by
  unfold previousRows
  congr 2
  apply filter_filter_kept
  intro account member merged
  obtain ⟨target, targetStored, same, inSource, _⟩ :=
    valid.merges account member id (by simpa using merged)
  obtain ⟨known, knownStored, named, knownApart⟩ := outside_iff.mp apart
  have one := valid.sameAccount targetStored knownStored (same.trans named.symm)
  apply decide_eq_true
  rw [← inSource, one]
  exact knownApart

theorem accountRow_elsewhere (valid : Valid charged tables) {account : Account}
    (member : account ∈ tables.accounts) (apart : account.sourceId ≠ source) :
    accountRow (elsewhere source tables) account = accountRow tables account := by
  have outside := outside_of_mem member apart
  simp only [accountRow, stateOf_elsewhere valid outside, previousRows_elsewhere valid outside]
  rfl

theorem grantsOf_elsewhere (apart : outside tables source id = true) :
    grantsOf (elsewhere source tables) now id = grantsOf tables now id := by
  unfold grantsOf
  congr 3
  apply filter_filter_kept
  intro credit _ named
  exact (of_decide_eq_true named : credit.accountId = id) ▸ apart

theorem planOf_elsewhere (valid : Valid charged tables) (id : PlanId) :
    planOf (elsewhere source tables) id =
      (planOf tables id).filter fun plan => outside tables source plan.accountId :=
  lookup_filter valid.planIds _ id

theorem sourceOf_eq_some (valid : Valid charged tables) {subject : Subject} {inSource : SourceId} :
    sourceOf tables subject = some inSource ↔ ∃ id, owner tables subject = some id ∧
      ∃ account ∈ tables.accounts, account.id = id ∧ account.sourceId = inSource := by
  simp only [sourceOf, Option.map_eq_some_iff, Option.bind_eq_some_iff, Landing.accountOf_eq_some valid]
  constructor
  · rintro ⟨account, ⟨id, owned, member, same⟩, rfl⟩
    exact ⟨id, owned, account, member, same, rfl⟩
  · rintro ⟨id, owned, account, member, same, rfl⟩
    exact ⟨account, ⟨id, owned, member, same⟩, rfl⟩

variable {subject : Subject} {inSource : SourceId}

/-- The other sources' rows are read alike where only they are stored. -/
theorem view_elsewhere (valid : Valid charged tables) (read : sourceOf tables subject = some inSource)
    (apart : inSource ≠ source) :
    sourceOf (elsewhere source tables) subject = some inSource ∧
      view runtime (elsewhere source tables) now subject = view runtime tables now subject := by
  obtain ⟨id, owned, account, member, rfl, rfl⟩ := (sourceOf_eq_some valid).mp read
  have outside := outside_of_mem member apart
  have found : accountOf tables account.id = some account :=
    (Landing.accountOf_eq_some valid).mpr ⟨member, rfl⟩
  have left : accountOf (elsewhere source tables) account.id = some account := by
    rw [accountOf_elsewhere source valid, found]
    simp [apart]
  cases subject with
  | account id =>
    obtain rfl : id = account.id := Option.some.inj owned
    simp [sourceOf, owner, view, left, found, accountRow_elsewhere valid member apart,
      linked_elsewhere valid outside]
  | plan id =>
    obtain ⟨plan, stored, same⟩ := Option.map_eq_some_iff.mp owned
    have kept : planOf (elsewhere source tables) id = some plan := by
      rw [planOf_elsewhere valid, stored]
      simp [same, outside]
    simp [sourceOf, owner, view, kept, stored, same, left, linked_elsewhere valid outside]
  | window id windowKey =>
    obtain rfl : id = account.id := Option.some.inj owned
    have kept : windowOf (elsewhere source tables) account.id windowKey =
        windowOf tables account.id windowKey := by
      apply lookup_apart valid.windowKeys
      intro window _ same
      exact (Prod.mk.inj same).1 ▸ outside
    simp [sourceOf, owner, view, left, kept]
  | resets id =>
    obtain rfl : id = account.id := Option.some.inj owned
    simp [sourceOf, owner, view, left, grantsOf_elsewhere outside]
  | usage | quotaAction | price _ | arrival _ _ => cases owned

theorem sourceOf_elsewhere (valid : Valid charged tables)
    (read : sourceOf (elsewhere source tables) subject = some inSource) :
    inSource ≠ source ∧ sourceOf tables subject = some inSource := by
  simp only [sourceOf, Option.map_eq_some_iff, Option.bind_eq_some_iff,
    accountOf_elsewhere source valid, Option.filter_eq_some_iff, decide_eq_true_eq] at read ⊢
  obtain ⟨account, ⟨id, owned, found, apart⟩, rfl⟩ := read
  refine ⟨apart, account, ⟨id, ?_, found⟩, rfl⟩
  cases subject with
  | plan planId =>
    obtain ⟨plan, stored, same⟩ := Option.map_eq_some_iff.mp owned
    rw [planOf_elsewhere valid, Option.filter_eq_some_iff] at stored
    exact Option.map_eq_some_iff.mpr ⟨plan, stored.1, same⟩
  | account _ | window _ _ | resets _ => exact owned
  | usage | quotaAction | price _ | arrival _ _ => cases owned

/-- A write to one source leaves what a reader sees of the others. -/
theorem view_apart (frame : Frame charged parts source base tables) (valid : Valid charged base)
    (apart : inSource ≠ source) :
    (sourceOf base subject = some inSource ↔ sourceOf tables subject = some inSource) ∧
      (sourceOf base subject = some inSource →
        view runtime base now subject = view runtime tables now subject) := by
  have same := elsewhere_eq frame
  refine ⟨⟨?_, ?_⟩, ?_⟩
  · intro read
    obtain ⟨left, _⟩ := @view_elsewhere _ source base runtime now _ _ valid read apart
    exact (sourceOf_elsewhere frame.valid (same ▸ left)).2
  · intro read
    obtain ⟨left, _⟩ := @view_elsewhere _ source tables runtime now _ _ frame.valid read apart
    exact (sourceOf_elsewhere valid (same ▸ left)).2
  · intro read
    obtain ⟨left, before⟩ := @view_elsewhere _ source base runtime now _ _ valid read apart
    have later := (sourceOf_elsewhere frame.valid (same ▸ left)).2
    obtain ⟨_, after⟩ := @view_elsewhere _ source tables runtime now _ _ frame.valid later apart
    rw [← before, ← after, same]

/-- What a reader sees of a subject that is not there. -/
def nothing : Subject → Option View
  | .resets _ => some (.resets [])
  | _ => none

theorem view_unowned (valid : Valid charged tables) (unread : sourceOf tables subject = none) :
    view runtime tables now subject = nothing subject := by
  have missing : ∀ id, owner tables subject = some id → ∀ account ∈ tables.accounts,
      account.id ≠ id := by
    intro id owned account member same
    have read := (sourceOf_eq_some valid).mpr ⟨id, owned, account, member, same, rfl⟩
    rw [unread] at read
    cases read
  cases subject with
  | account id =>
    have unknown : accountOf tables id = none := lookup_eq_none.mpr (missing id rfl)
    simp [view, unknown, nothing]
  | plan id =>
    cases stored : planOf tables id with
    | none => simp [view, stored, nothing]
    | some plan =>
      obtain ⟨account, member, same⟩ :=
        valid.planAccounts plan ((planOf_eq_some valid).mp stored).1
      exact absurd same (missing plan.accountId (by simp [owner, stored]) account member)
  | window id windowKey =>
    cases stored : windowOf tables id windowKey with
    | none => simp [view, stored, nothing]
    | some window =>
      obtain ⟨held, rfl, _⟩ := (windowOf_eq_some valid).mp stored
      obtain ⟨account, member, same⟩ := valid.windowAccounts window held
      exact absurd same (missing window.accountId rfl account member)
  | resets id =>
    have none_held : tables.credits.filter (·.accountId = id) = [] := by
      apply List.filter_eq_nil_iff.mpr
      intro credit held named
      obtain ⟨account, member, same⟩ := valid.creditAccounts credit held
      exact missing id rfl account member (same.trans (of_decide_eq_true named))
    simp [view, nothing, grantsOf, none_held]
  | usage | quotaAction | price _ | arrival _ _ => rfl

/-- A snapshot keeps nothing of exactly the subjects a reader sees nothing of. -/
theorem kept_eq_none : (view runtime tables now subject).bind kept = none ↔
    view runtime tables now subject = nothing subject := by
  cases subject with
  | account id =>
    cases found : accountOf tables id with
    | none => simp [view, found, nothing]
    | some account => cases shown : accountRow tables account <;> simp [view, found, shown, nothing, kept]
  | plan id => cases stored : planOf tables id <;> simp [view, stored, nothing, kept]
  | window id windowKey =>
    cases stored : windowOf tables id windowKey <;> simp [view, stored, nothing, kept]
  | resets id => simp [view, nothing, kept]
  | usage | quotaAction | price _ | arrival _ _ => simp [view, nothing]

theorem planOf_columns (columns : tables.plans.map unassigned = base.plans.map unassigned)
    (id : PlanId) : (planOf tables id).map unassigned = (planOf base id).map unassigned := by
  have named : ∀ plan, (unassigned plan).id = plan.id := fun _ => rfl
  unfold planOf
  rw [← lookup_map named, ← lookup_map named, columns]

theorem view_plan {row : Plan} {replacedBy : Option AccountId}
    (read : view runtime tables now subject = some (.plan row replacedBy)) :
    ∃ id, subject = .plan id ∧ planOf tables id = some row := by
  cases subject with
  | plan id =>
    obtain ⟨plan, stored, same⟩ := Option.map_eq_some_iff.mp read
    cases same
    exact ⟨id, rfl, stored⟩
  | account id => simp [view, Option.bind_eq_some_iff] at read
  | window id windowKey => simp [view] at read
  | resets id => simp [view] at read
  | usage | quotaAction | price _ | arrival _ _ => cases read

theorem unassigned_inj {first second : Plan} (columns : unassigned first = unassigned second)
    (account : first.accountId = second.accountId) : first = second := by
  cases first
  cases second
  simp_all [unassigned]

/-- What a snapshot keeps tells two states apart where a plan's columns are the same. -/
theorem kept_inj (columns : tables.plans.map unassigned = base.plans.map unassigned) :
    (view runtime base now subject).bind kept = (view runtime tables now subject).bind kept ↔
      view runtime base now subject = view runtime tables now subject := by
  constructor
  case mpr => exact fun same => same ▸ rfl
  intro same
  cases left : view runtime base now subject with
  | none =>
    rw [left, Option.bind_none] at same
    have gone := kept_eq_none.mp same.symm
    have unseen := kept_eq_none.mp (congrArg (Option.bind · kept) left)
    rw [gone, ← unseen, left]
  | some first =>
    cases right : view runtime tables now subject with
    | none =>
      rw [right, Option.bind_none] at same
      have gone := kept_eq_none.mp same
      have unseen := kept_eq_none.mp (congrArg (Option.bind · kept) right)
      rw [← left, gone, ← unseen, right]
    | some second =>
      rw [left, right, Option.bind_some, Option.bind_some] at same
      cases first <;> cases second <;> simp only [kept] at same
      case plan.plan first _ second _ =>
        obtain ⟨id, rfl, before⟩ := view_plan left
        obtain ⟨_, named, after⟩ := view_plan right
        cases named
        have equal := planOf_columns columns id
        rw [before, after, Option.map_some, Option.map_some, Option.some.injEq] at equal
        simp only [Option.some.injEq, Seen.plan.injEq] at same
        rw [unassigned_inj equal same.1.symm, same.2]
      all_goals grind

/-- A snapshot of a source keeps what is seen of the subjects of no other. -/
theorem seenIn_own (valid : Valid charged tables)
    (own : ∀ inSource, sourceOf tables subject = some inSource → inSource = source) :
    seenAs (Landing.seenIn runtime source parts now tables) subject =
      if compares parts subject = true then (view runtime tables now subject).bind kept else none := by
  have whole : Scope.filter (.source source) tables = ⟨some source, none⟩ := rfl
  rw [Landing.seenIn, seenAs_seen valid whole]
  cases read : sourceOf tables subject with
  | none =>
    rw [kept_eq_none.mpr (view_unowned valid read)]
    simp
  | some inSource =>
    obtain rfl := own inSource read
    simp [inScope, read]

/-- Where a subject is not compared, the write leaves what a reader sees of it. -/
theorem view_uncompared (frame : Frame charged parts source base tables)
    (uncompared : compares parts subject ≠ true) :
    view runtime base now subject = view runtime tables now subject := by
  cases parts with
  | accounts =>
    obtain ⟨windows, credits⟩ := frame.quota rfl
    cases subject with
    | account id => exact absurd rfl uncompared
    | plan id => exact absurd rfl uncompared
    | window id windowKey => simp only [view, windowOf, windows]
    | resets id => simp only [view, grantsOf, credits]
    | usage | quotaAction | price _ | arrival _ _ => rfl
  | quota =>
    cases subject with
    | account _ | plan _ | window _ _ | resets _ => exact absurd rfl uncompared
    | usage | quotaAction | price _ | arrival _ _ => rfl

variable (now)

/-- The two reads of a write to one source differ on exactly the subjects a reader sees
differently. -/
theorem seenIn_iff_view (frame : Frame charged parts source base tables) (valid : Valid charged base) :
    seenAs (Landing.seenIn runtime source parts now base) subject =
        seenAs (Landing.seenIn runtime source parts now tables) subject ↔
      view runtime base now subject = view runtime tables now subject := by
  by_cases other : ∃ inSource, sourceOf base subject = some inSource ∧ inSource ≠ source
  · obtain ⟨inSource, read, apart⟩ := other
    have left := @view_apart _ _ source base tables runtime now subject inSource frame valid apart
    have unread : ∀ {either : Tables}, Valid charged either →
        sourceOf either subject = some inSource →
        seenAs (Landing.seenIn runtime source parts now either) subject = none := by
      intro either holds read
      have whole : Scope.filter (.source source) either = ⟨some source, none⟩ := rfl
      rw [Landing.seenIn, seenAs_seen holds whole]
      simp [inScope, read, apart]
    rw [unread valid read, unread frame.valid (left.1.mp read)]
    exact ⟨fun _ => left.2 read, fun _ => rfl⟩
  · have ownBefore : ∀ inSource, sourceOf base subject = some inSource → inSource = source := by
      intro inSource read
      by_contra apart
      exact other ⟨inSource, read, apart⟩
    have ownAfter : ∀ inSource, sourceOf tables subject = some inSource → inSource = source := by
      intro inSource read
      by_contra apart
      have left := @view_apart _ _ source base tables runtime now subject inSource frame valid apart
      exact apart (ownBefore inSource (left.1.mpr read))
    rw [seenIn_own valid ownBefore, seenIn_own frame.valid ownAfter]
    split
    next => exact kept_inj frame.planColumns
    next uncompared => exact ⟨fun _ => view_uncompared frame uncompared, fun _ => rfl⟩

end MeteredUsage.Store.Apart
