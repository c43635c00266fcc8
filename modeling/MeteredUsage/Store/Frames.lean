import MeteredUsage.Store.Validity

/-! What a write to one source leaves alone: every row of the other sources, the dismissals,
and what plans say other than whose they are. A write that compares accounts only leaves
the quota of every account alone as well. -/

namespace MeteredUsage.Store.Frames
open MeteredUsage.Values MeteredUsage.Store.Schema MeteredUsage.Store.Accounts
open MeteredUsage.Store.Validity MeteredUsage.Store.Snapshots
open MeteredUsage.Library.Keyed MeteredUsage.Library.Transaction
open MeteredUsage.Changes.Table (Feed Subject)

/-- The account is one of another source. -/
def outside (base : Tables) (source : SourceId) (id : AccountId) : Bool :=
  base.accounts.any fun account => account.id = id && account.sourceId ≠ source

/-- A plan without the account it is on. -/
def unassigned (plan : Plan) : Plan := { plan with accountId := 0 }

/-- Nothing a reader sees of an account, a plan or their quota. -/
def isHidden : Subject → Bool
  | .usage | .quotaAction | .price _ | .arrival _ _ => true
  | .account _ | .window _ _ | .resets _ | .plan _ => false

/-- So far only changes that are not compared were recorded. -/
def Quiet (base feed : Feed) : Prop :=
  base.sequence ≤ feed.sequence ∧ ∀ subject ∈ feed.since base, isHidden subject = true

structure Frame (charged : Prop) (parts : Parts) (source : SourceId) (base tables : Tables) : Prop where
  valid : Valid charged tables
  sources : tables.sources = base.sources
  accounts : tables.accounts.filter (fun account => account.sourceId ≠ source) =
    base.accounts.filter (fun account => account.sourceId ≠ source)
  stays : ∀ account ∈ base.accounts, Inside tables.accounts account.sourceId account.id
  states : tables.states.filter (fun state => outside base source state.accountId) =
    base.states.filter (fun state => outside base source state.accountId)
  plans : tables.plans.filter (fun plan => outside base source plan.accountId) =
    base.plans.filter (fun plan => outside base source plan.accountId)
  planColumns : tables.plans.map unassigned = base.plans.map unassigned
  dismissals : tables.dismissals = base.dismissals
  windows : tables.windows.filter (fun window => outside base source window.accountId) =
    base.windows.filter (fun window => outside base source window.accountId)
  credits : tables.credits.filter (fun credit => outside base source credit.accountId) =
    base.credits.filter (fun credit => outside base source credit.accountId)
  quota : parts = .accounts → tables.windows = base.windows ∧ tables.credits = base.credits
  quiet : Quiet base.feed tables.feed

theorem Quiet.refl (feed : Feed) : Quiet feed feed := by
  refine ⟨le_rfl, ?_⟩
  rw [Feed.since_self]
  simp

theorem Quiet.record {base feed : Feed} (quiet : Quiet base feed) {subject : Subject}
    (hidden : isHidden subject = true) (recordedAt : Timestamp) :
    Quiet base (feed.record subject recordedAt) := by
  refine ⟨Nat.le_succ_of_le quiet.1, ?_⟩
  rw [Feed.since_record quiet.1]
  intro other member
  rcases List.mem_append.mp member with earlier | last
  · exact quiet.2 other earlier
  · exact List.mem_singleton.mp last ▸ hidden

theorem Frame.start {charged : Prop} {base : Tables} (valid : Valid charged base) (parts : Parts)
    (source : SourceId) : Frame charged parts source base base :=
  ⟨valid, rfl, rfl, fun account member => ⟨account, member, rfl, rfl⟩, rfl, rfl, rfl, rfl, rfl, rfl,
    fun _ => ⟨rfl, rfl⟩, Quiet.refl _⟩

variable {charged : Prop} {parts : Parts} {source : SourceId} {base tables : Tables}

theorem Frame.record (frame : Frame charged parts source base tables) {subject : Subject}
    (hidden : isHidden subject = true) (recordedAt : Timestamp) :
    Frame charged parts source base
      { tables with feed := tables.feed.record subject recordedAt } :=
  { frame with valid := frame.valid.feed _, quiet := frame.quiet.record hidden recordedAt }

theorem outside_iff {id : AccountId} : outside base source id = true ↔
    ∃ account ∈ base.accounts, account.id = id ∧ account.sourceId ≠ source := by
  simp [outside]

theorem Frame.inside (frame : Frame charged parts source base tables) {id : AccountId}
    (inside : Inside tables.accounts source id) : outside base source id = false := by
  by_contra named
  obtain ⟨other, member, same, apart⟩ := outside_iff.mp (Bool.of_not_eq_false named)
  obtain ⟨account, stored, id, inSource⟩ := inside
  have kept : other ∈ tables.accounts.filter (fun account => account.sourceId ≠ source) := by
    rw [frame.accounts]
    simp [member, apart]
  have equal := frame.valid.sameAccount stored (List.mem_filter.mp kept).1 (id.trans same.symm)
  exact apart (equal ▸ inSource)

theorem Frame.stillInside (frame : Frame charged parts source base tables) {id : AccountId}
    (inside : Inside base.accounts source id) : Inside tables.accounts source id := by
  obtain ⟨account, member, rfl, rfl⟩ := inside
  exact frame.stays account member

theorem Frame.mapAccounts (frame : Frame charged parts source base tables)
    {change : Account → Account} (keeps : KeepsIdentity change)
    (fixed : ∀ account ∈ tables.accounts, account.sourceId ≠ source → change account = account) :
    Frame charged parts source base { tables with accounts := tables.accounts.map change } :=
  { frame with
    valid := frame.valid.mapAccounts keeps
    accounts := by
      rw [← frame.accounts]
      apply filter_map_fixed
      · intro account member named
        exact fixed account member (by simpa using named)
      · intro account _ named
        simpa [keeps.sourceId] using named
    stays := fun account member => (keeps.kept tables.accounts).inside (frame.stays account member) }

theorem Frame.updateAccount (frame : Frame charged parts source base tables)
    {change : Account → Account} (keeps : KeepsIdentity change) {id : AccountId}
    (inside : Inside tables.accounts source id) :
    Frame charged parts source base (updateAccount id change tables) := by
  apply frame.mapAccounts (keeps.onlyWhere fun account => account.id = id)
  intro account member apart
  obtain ⟨known, stored, same, inSource⟩ := inside
  have differs : account.id ≠ id := by
    intro equal
    have one := frame.valid.sameAccount member stored (equal.trans same.symm)
    exact apart (one ▸ inSource)
  rw [if_neg differs]

theorem Frame.upsert (frame : Frame charged parts source base tables) {row stored : Account}
    {conflict : Account → Account} {next : Tables} (keeps : KeepsIdentity conflict)
    (root : row.mergedInto = none) (inSource : row.sourceId = source)
    (upserted : upsert row conflict tables = some (stored, next)) :
    Frame charged parts source base next := by
  rcases upsert_cases upserted with ⟨known, _, _, _, rfl⟩ | ⟨fresh, free, has, _, rfl⟩
  · apply frame.mapAccounts (keeps.onlyWhere fun account =>
      holdsKey row.sourceId row.upstreamKey account = true)
    intro account _ apart
    have differs : holdsKey row.sourceId row.upstreamKey account ≠ true := fun holds =>
      apart ((holdsKey_iff.mp holds).1.trans inSource)
    rw [if_neg differs]
  · exact { frame with
      valid := frame.valid.appendAccount fresh free has root
      accounts := by
        rw [← frame.accounts]
        exact filter_append_apart _ (by simp [inSource])
      stays := by
        intro account member
        obtain ⟨known, stored, same⟩ := frame.stays account member
        exact ⟨known, List.mem_append_left _ stored, same⟩ }

theorem Frame.setStates (frame : Frame charged parts source base tables)
    {states : List CredentialState} (valid : Valid charged { tables with states := states })
    (left : states.filter (fun state => outside base source state.accountId) =
      tables.states.filter (fun state => outside base source state.accountId)) :
    Frame charged parts source base { tables with states := states } :=
  { frame with valid := valid, states := left.trans frame.states }

theorem Frame.mapStates (frame : Frame charged parts source base tables)
    {change : CredentialState → CredentialState}
    (same : ∀ state, (change state).accountId = state.accountId)
    (observed : ∀ state, state.softObservedAt.isSome = true →
      (change state).softObservedAt.isSome = true)
    (fixed : ∀ state ∈ tables.states, outside base source state.accountId = true →
      change state = state) :
    Frame charged parts source base { tables with states := tables.states.map change } := by
  apply frame.setStates (frame.valid.mapStates same observed)
  apply filter_map_fixed fixed
  intro state _ apart
  rw [same]
  exact apart

theorem Frame.appendState (frame : Frame charged parts source base tables) {row : CredentialState}
    (fresh : ∀ state ∈ tables.states, state.accountId ≠ row.accountId)
    (inside : Inside tables.accounts source row.accountId)
    (observed : row.softObservedAt.isSome = true) :
    Frame charged parts source base { tables with states := tables.states ++ [row] } := by
  apply frame.setStates
  · exact { frame.valid with
      stateIds := frame.valid.stateIds.append_singleton fresh
      stateAccounts := by
        intro state member
        rcases List.mem_append.mp member with stored | new
        · exact frame.valid.stateAccounts state stored
        · exact List.mem_singleton.mp new ▸ inside.hasAccount
      softObserved := by
        intro state member
        rcases List.mem_append.mp member with stored | new
        · exact frame.valid.softObserved state stored
        · exact List.mem_singleton.mp new ▸ observed }
  · exact filter_append_apart _ (frame.inside inside)

/-- Windows are only written where the accounts' quota is compared. -/
theorem Frame.setWindows (frame : Frame charged .quota source base tables)
    {windows : List QuotaWindow} (valid : Valid charged { tables with windows := windows })
    (left : windows.filter (fun window => outside base source window.accountId) =
      tables.windows.filter (fun window => outside base source window.accountId)) :
    Frame charged .quota source base { tables with windows := windows } :=
  { frame with
    valid := valid
    windows := left.trans frame.windows
    quota := fun accounts => by cases accounts }

theorem Frame.deleteWindows (frame : Frame charged .quota source base tables)
    {chosen : QuotaWindow → Bool}
    (inside : ∀ window ∈ tables.windows, chosen window = true →
      Inside tables.accounts source window.accountId) :
    Frame charged .quota source base (Windows.deleteWindows chosen tables) := by
  apply frame.setWindows
  · exact { frame.valid with
      windowKeys := frame.valid.windowKeys.filter _
      windowAccounts := fun window member =>
        frame.valid.windowAccounts window (List.mem_filter.mp member).1 }
  · apply filter_filter_kept
    intro window member named
    by_contra deleted
    have apart := frame.inside (inside window member (by simpa using deleted))
    rw [named] at apart
    cases apart

theorem Frame.insertWindow (frame : Frame charged .quota source base tables) {row : QuotaWindow}
    {next : Tables} (inside : Inside tables.accounts source row.accountId)
    (inserted : Windows.insertWindow row tables = some ((), next)) :
    Frame charged .quota source base next ∧ next.accounts = tables.accounts := by
  unfold Windows.insertWindow at inserted
  split at inserted
  next => cases inserted
  next fresh =>
    split at inserted
    next =>
      cases inserted
      refine ⟨frame.setWindows ?_ (filter_append_apart _ (frame.inside inside)), rfl⟩
      exact { frame.valid with
        windowKeys := frame.valid.windowKeys.append_singleton fun window member same => by
          simp only [Prod.mk.injEq] at same
          exact fresh (List.any_eq_true.mpr ⟨window, member, by simp [Windows.isWindow, same.1, same.2]⟩)
        windowAccounts := fun window member => by
          rcases List.mem_append.mp member with stored | new
          · exact frame.valid.windowAccounts window stored
          · exact List.mem_singleton.mp new ▸ inside.hasAccount }
    next => cases inserted

theorem Frame.mapWindows (frame : Frame charged .quota source base tables)
    {change : QuotaWindow → QuotaWindow}
    (account : ∀ window, (change window).accountId = window.accountId)
    (key : ∀ window, (change window).windowKey = window.windowKey)
    (fixed : ∀ window ∈ tables.windows, outside base source window.accountId = true →
      change window = window) :
    Frame charged .quota source base { tables with windows := tables.windows.map change } := by
  apply frame.setWindows
  · exact { frame.valid with
      windowKeys := frame.valid.windowKeys.map fun window => by rw [account, key]
      windowAccounts := by
        intro next member
        obtain ⟨window, stored, rfl⟩ := List.mem_map.mp member
        rw [account]
        exact frame.valid.windowAccounts window stored }
  · apply filter_map_fixed fixed
    intro window _ apart
    rw [account]
    exact apart

theorem Frame.setCredits (frame : Frame charged .quota source base tables) {credits : List Credit}
    (accounts : ∀ credit ∈ credits, HasAccount tables.accounts credit.accountId)
    (left : credits.filter (fun credit => outside base source credit.accountId) =
      tables.credits.filter (fun credit => outside base source credit.accountId)) :
    Frame charged .quota source base { tables with credits := credits } :=
  { frame with
    valid := { frame.valid with creditAccounts := accounts }
    credits := left.trans frame.credits
    quota := fun compared => by cases compared }

theorem Frame.clearCredits (frame : Frame charged .quota source base tables) {id : AccountId}
    (inside : Inside tables.accounts source id) :
    Frame charged .quota source base (Windows.clearCredits id tables) := by
  apply frame.setCredits
  · intro credit member
    exact frame.valid.creditAccounts credit (List.mem_filter.mp member).1
  · apply filter_filter_kept
    intro credit _ named
    by_contra cleared
    have same : credit.accountId = id := by simpa using cleared
    rw [same, frame.inside inside] at named
    cases named

theorem Frame.insertCredit (frame : Frame charged .quota source base tables) {row : Credit}
    {next : Tables} (inside : Inside tables.accounts source row.accountId)
    (inserted : Windows.insertCredit row tables = some ((), next)) :
    Frame charged .quota source base next ∧ next.accounts = tables.accounts := by
  unfold Windows.insertCredit at inserted
  split at inserted
  next =>
    cases inserted
    refine ⟨frame.setCredits ?_ (filter_append_apart _ (frame.inside inside)), rfl⟩
    intro credit member
    rcases List.mem_append.mp member with stored | new
    · exact frame.valid.creditAccounts credit stored
    · exact List.mem_singleton.mp new ▸ inside.hasAccount
  next => cases inserted

end MeteredUsage.Store.Frames
