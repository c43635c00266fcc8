import MeteredUsage.Gateway.Requests
import MeteredUsage.Store.Replaced

/-! The manual reset grants of a Claude credential: which answers are read, and what recording the
refresh leaves of the stored grants. An answer is read as a whole or not at all. -/

namespace MeteredUsage.Gateway.ResetGrants
open MeteredUsage.Values MeteredUsage.Store MeteredUsage.Store.Schema MeteredUsage.Store.Credentials
open MeteredUsage.Store.Windows MeteredUsage.Store.Quota MeteredUsage.Store.Commands
open MeteredUsage.Store.Response (asInteger)
open MeteredUsage.Store.Statements MeteredUsage.Store.Replaced MeteredUsage.Gateway.Adapters
open MeteredUsage.Library.Interaction MeteredUsage.Library.Transaction

variable {runtime : Sql.Runtime} {reading : Reading}

/-- A whole number under a name. -/
def Counts (value : Json) (name : String) (count : Int) : Prop :=
  ∃ written, member value name = some written ∧ asInteger written = some count

/-- An end that is absent or null, or that is an instant. -/
def Ends (reading : Reading) (value : Json) (expiresAt : Option Timestamp) : Prop :=
  (member value "ends_at" = none ∨ member value "ends_at" = some .null) ∧ expiresAt = none ∨
    ∃ written instant, member value "ends_at" = some written ∧ written ≠ .null ∧
      reading.instant written = some instant ∧ expiresAt = some instant

/-- A listed grant, with its id. -/
structure Entry (reading : Reading) (value : Json) (id : String) (grant : Grant) : Prop where
  object : isObject value = true
  names : member value "id" = some (.string id)
  nonempty : id ≠ ""
  counts : ∃ total, Counts value "resets_total" total ∧ Counts value "resets_left" grant.remaining ∧
    0 ≤ grant.remaining ∧ grant.remaining ≤ total ∧ grant.total = some total
  ends : Ends reading value grant.expiresAt
  labelled : grant.label = ((member value "label").bind asText).bind reading.claudeLabel

/-- The block of an answer lists entries. -/
inductive Lists (block : Json) : List Json → Prop where
  | absent : member block "grants" = none → Lists block []
  | null : member block "grants" = some .null → Lists block []
  | array (entries : List Json) : member block "grants" = some (.array entries) → Lists block entries

/-- A readable answer, with the grants of it that have a reset left. -/
def Readable (reading : Reading) (body : Json) (grants : List Grant) : Prop :=
  ∃ block eligible entries listed, member body "cedar_ember" = some block ∧
    member block "eligible" = some (.bool eligible) ∧ Lists block entries ∧
    List.Forall₂ (fun value (named : String × Grant) => Entry reading value named.1 named.2) entries listed ∧
    (listed.map Prod.fst).Nodup ∧
    grants = (listed.map Prod.snd).filter fun grant => 0 < grant.remaining

theorem isObject_of_member {value found : Json} {name : String} (present : member value name = some found) :
    isObject value = true := by
  cases value with
  | object fields => rfl
  | _ => cases present

theorem asText_eq_some_iff {value : Json} {text : String} : asText value = some text ↔ value = .string text := by
  cases value <;> simp [asText]

theorem asBool_eq_some_iff {value : Json} {flag : Bool} : asBool value = some flag ↔ value = .bool flag := by
  cases value <;> simp [asBool]

/-- The end of a grant as it is read. -/
def endsOf (reading : Reading) (value : Json) : Option (Option Timestamp) :=
  match member value "ends_at" with
  | none | some .null => some none
  | some ends => (reading.instant ends).map some

theorem grant_eq (value : Json) : Claude.grant reading value =
    (((member value "resets_total").bind asInteger).filter (0 ≤ ·)).bind fun total =>
      (((member value "resets_left").bind asInteger).filter fun left => 0 ≤ left ∧ left ≤ total).bind
        fun remaining => (endsOf reading value).map fun expiresAt =>
          ⟨((member value "label").bind asText).bind reading.claudeLabel, remaining, some total, expiresAt⟩ := by
  unfold Claude.grant endsOf
  cases member value "ends_at" with
  | none => rfl
  | some ends => cases ends <;> simp [Option.map_eq_bind]

theorem endsOf_eq_some_iff {value : Json} {expiresAt : Option Timestamp} :
    endsOf reading value = some expiresAt ↔ Ends reading value expiresAt := by
  unfold endsOf Ends
  split
  next absent => simp [absent, eq_comm]
  next null => simp [null, eq_comm]
  next written notNull present =>
    have differs : written ≠ .null := notNull
    simp only [present, Option.map_eq_some_iff, reduceCtorEq, Option.some.injEq, differs, or_self, false_and,
      false_or]
    constructor
    · rintro ⟨instant, reads, rfl⟩
      exact ⟨written, instant, rfl, differs, reads, rfl⟩
    · rintro ⟨_, instant, rfl, _, reads, rfl⟩
      exact ⟨instant, reads, rfl⟩

/-- A listed grant is read exactly where it is an entry, under its id. -/
theorem entry_iff {value : Json} {id : String} {grant : Grant} :
    ((member value "id").bind asText).filter (· ≠ "") = some id ∧ Claude.grant reading value = some grant ↔
      Entry reading value id grant := by
  simp only [grant_eq, Option.bind_eq_some_iff, Option.filter_eq_some_iff, Option.map_eq_some_iff,
    asText_eq_some_iff, endsOf_eq_some_iff, decide_eq_true_eq]
  constructor
  · rintro ⟨⟨⟨_, names, rfl⟩, nonempty⟩, total, ⟨totals, _⟩, remaining, ⟨left, least, most⟩, expiresAt, ends, rfl⟩
    exact ⟨isObject_of_member names, names, nonempty, ⟨total, totals, left, least, most, rfl⟩, ends, rfl⟩
  · intro entry
    obtain ⟨total, totals, left, least, most, states⟩ := entry.counts
    refine ⟨⟨⟨_, entry.names, rfl⟩, entry.nonempty⟩, total, ⟨totals, least.trans most⟩, _, ⟨left, least, most⟩,
      _, entry.ends, ?_⟩
    rw [← states, ← entry.labelled]

/-- The entries of a list are read exactly where each is one, under an id of its own. -/
theorem listedGrants_iff {entries : List Json} {ids : List String} {grants : List Grant} :
    Claude.listedGrants reading ids entries = some grants ↔ ∃ listed,
      List.Forall₂ (fun value (named : String × Grant) => Entry reading value named.1 named.2) entries listed ∧
      (listed.map Prod.fst).Nodup ∧ (∀ named ∈ listed, named.1 ∉ ids) ∧ grants = listed.map Prod.snd := by
  induction entries generalizing ids grants with
  | nil =>
    simp only [Claude.listedGrants, Option.some.injEq, List.forall₂_nil_left_iff, exists_eq_left, List.map_nil,
      List.nodup_nil, List.not_mem_nil, false_implies, implies_true, true_and, eq_comm]
  | cons value rest ih =>
    simp only [Claude.listedGrants, Option.bind_eq_bind, Option.bind_eq_some_iff, Option.ite_none_left_eq_some, ih]
    constructor
    · rintro ⟨id, named, fresh, grant, read, _, ⟨listed, related, distinct, apart, rfl⟩, same⟩
      obtain rfl := Option.some.inj same
      refine ⟨(id, grant) :: listed, .cons (entry_iff.mp ⟨named, read⟩) related, ?_, ?_, rfl⟩
      · rw [List.map_cons, List.nodup_cons]
        refine ⟨fun repeated => ?_, distinct⟩
        obtain ⟨other, member, same⟩ := List.mem_map.mp repeated
        exact apart other member (same ▸ List.mem_cons_self)
      · intro other member
        rcases List.mem_cons.mp member with rfl | later
        · exact fresh
        · exact fun known => apart other later (List.mem_cons_of_mem _ known)
    · rintro ⟨_, related, distinct, apart, rfl⟩
      obtain ⟨⟨id, grant⟩, listed, entry, others, rfl⟩ := List.forall₂_cons_left_iff.mp related
      obtain ⟨named, read⟩ := entry_iff.mpr entry
      rw [List.map_cons, List.nodup_cons] at distinct
      refine ⟨id, named, apart (id, grant) List.mem_cons_self, grant, read, _,
        ⟨listed, others, distinct.2, fun other member known => ?_, rfl⟩, rfl⟩
      rcases List.mem_cons.mp known with same | earlier
      · exact distinct.1 (List.mem_map.mpr ⟨other, member, same⟩)
      · exact apart other (List.mem_cons_of_mem _ member) earlier

theorem items_eq_some_iff {value : Json} {entries : List Json} :
    Codex.items value = some entries ↔ value = .array entries := by
  cases value <;> simp [Codex.items]

/-- An answer is read exactly where it is readable. -/
theorem resetGrants_iff {body : Json} {grants : List Grant} :
    Claude.resetGrants reading body = some grants ↔ Readable reading body grants := by
  simp only [Claude.resetGrants, Readable, Option.bind_eq_bind, Option.bind_eq_some_iff, asBool_eq_some_iff]
  constructor
  · rintro ⟨block, found, eligible, ⟨_, tells, rfl⟩, read⟩
    split at read
    next absent =>
      cases read
      exact ⟨block, eligible, [], [], found, tells, .absent absent, .nil, List.nodup_nil, rfl⟩
    next null =>
      cases read
      exact ⟨block, eligible, [], [], found, tells, .null null, .nil, List.nodup_nil, rfl⟩
    next listed _ present =>
      obtain ⟨entries, array, read⟩ := Option.bind_eq_some_iff.mp read
      obtain ⟨all, listed', same⟩ := Option.bind_eq_some_iff.mp read
      obtain rfl := items_eq_some_iff.mp array
      obtain ⟨named, related, distinct, _, rfl⟩ := listedGrants_iff.mp listed'
      exact ⟨block, eligible, entries, named, found, tells, .array entries present, related, distinct,
        (Option.some.inj same).symm⟩
  · rintro ⟨block, eligible, entries, listed, found, tells, lists, related, distinct, rfl⟩
    refine ⟨block, found, eligible, ⟨_, tells, rfl⟩, ?_⟩
    cases lists with
    | absent absent =>
      obtain rfl := List.forall₂_nil_left_iff.mp related
      rw [absent]
      rfl
    | null null =>
      obtain rfl := List.forall₂_nil_left_iff.mp related
      rw [null]
      rfl
    | array entries present =>
      have read : Claude.listedGrants reading [] entries = some (listed.map Prod.snd) :=
        listedGrants_iff.mpr ⟨listed, related, distinct, fun _ _ => List.not_mem_nil, rfl⟩
      simp [present, Codex.items, read]

/-- The stored grants of an account. -/
def grantsOf (tables : Tables) (id : AccountId) : List Grant :=
  (tables.credits.filter (·.accountId = id)).map Credit.grant

/-- What a recorded refresh leaves, besides the changes it announces. -/
structure Recorded (runtime : Sql.Runtime) (id : AccountId) (observation : Observation)
    (refreshedAt : Timestamp) (base next : Tables) : Prop where
  windows : next.windows = (replaced runtime id observation.windows refreshedAt base).windows
  states : next.states = base.states.map fun state =>
    if state.accountId = id then afterRefresh refreshedAt (.ok observation.plan) state else state
  credits : next.credits = match observation.manualResets with
    | .unchanged => base.credits
    | .reported grants => base.credits.filter (·.accountId ≠ id) ++ grants.map (⟨id, ·⟩)

theorem recorded_ignoresFeed {id : AccountId} {observation : Observation} {refreshedAt : Timestamp}
    {base : Tables} : IgnoresFeed (Recorded runtime id observation refreshedAt base) :=
  fun _ _ recorded => ⟨recorded.windows, recorded.states, recorded.credits⟩

/-- A list of grants replaces the stored one. -/
theorem holds_replaceCredits (id : AccountId) (grants : List Grant) (base : Tables) :
    Holds (fun tables => tables = base) (replaceCredits id grants) fun _ tables => tables =
      { base with credits := base.credits.filter (·.accountId ≠ id) ++ grants.map (⟨id, ·⟩) } := by
  have inserts (tables : Tables) : grants.foldl (fun tables grant =>
      { tables with credits := tables.credits ++ [⟨id, grant⟩] }) tables =
        { tables with credits := tables.credits ++ grants.map (⟨id, ·⟩) } := by
    induction grants generalizing tables with
    | nil => simp
    | cons grant rest ih => simp [ih]
  apply execute_at
  refine (Holds.forM_changes _ fun grant _ tables => ?_).weaken (fun _ same => same) fun _ _ same =>
    same.trans (inserts _)
  apply holds_attempt
  rintro _ _ next rfl taken
  unfold insertCredit at taken
  split at taken
  next =>
    cases taken
    rfl
  next => cases taken

theorem holds_storeResets (id : AccountId) (resets : ManualResets) (base : Tables) :
    Holds (fun tables => tables = base) (storeResets id resets) fun _ tables => tables =
      { base with credits := match resets with
        | .unchanged => base.credits
        | .reported grants => base.credits.filter (·.accountId ≠ id) ++ grants.map (⟨id, ·⟩) } := by
  cases resets with
  | unchanged => exact Holds.pure fun _ same => same
  | reported grants => exact holds_replaceCredits id grants base

theorem holds_storeResult (id : AccountId) (observation : Observation) (refreshedAt : Timestamp) (base : Tables) :
    Holds (fun tables => tables = base) (storeResult runtime id (.ok observation) refreshedAt)
      fun _ => Recorded runtime id observation refreshedAt base := by
  apply execute_at
  apply (holds_replaced _ _ _).bind
  intro _
  apply (holds_storeResets id observation.manualResets _).bind
  intro _
  apply holds_execute
  rintro _ rfl
  obtain ⟨rows, samples, frame⟩ := replaced_frame runtime id observation.windows refreshedAt
    { base with recoveries := base.recoveries.filter (·.accountId ≠ id) }
  constructor
  · dsimp only
    rw [(windows_replaced ..).1, (windows_replaced ..).1]
    rfl
  · rw [frame]
  · rw [frame]

theorem holds_recordRefresh (id : AccountId) (observation : Observation) (refreshedAt : Timestamp) (base : Tables) :
    Holds (fun tables => tables = base) (recordRefresh runtime id (.ok observation) refreshedAt)
      (OnCommit (Recorded runtime id observation refreshedAt base)) := by
  rw [Landing.recordRefresh_eq]
  apply Holds.reading_then
  intro now
  apply read_at
  apply (holds_storeResult id observation refreshedAt base).bind
  intro _
  apply (holds_recordChanges recorded_ignoresFeed _).bind
  exact fun _ => holds_commit _

/-- The requests of a Claude refresh. -/
def usageCall (authIndex : String) : Question := .call ⟨authIndex, "GET", Claude.usageUrl, none⟩
def profileCall (authIndex : String) : Question := .call ⟨authIndex, "GET", Claude.profileUrl, none⟩
def grantsCall (authIndex : String) : Question := .call ⟨authIndex, "GET", Claude.resetGrantsUrl, none⟩

/-- What a Claude refresh observes, once its usage is answered. -/
theorem fetch_observes (authIndex : String) (answers : ∀ question, Answer question) {usage : Json}
    (used : answered runtime (answers (usageCall authIndex)) = .ok usage) :
    (Claude.fetch runtime reading authIndex).run.given answers = .ok ⟨reading.claudeWindows usage,
      (answered runtime (answers (profileCall authIndex))).toOption.bind reading.claudePlan,
      ((answered runtime (answers (grantsCall authIndex))).toOption.bind (Claude.resetGrants reading)).elim
        .unchanged .reported⟩ := by
  have asked : (Claude.fetch runtime reading authIndex).run.given answers =
      ((ofExcept (answered runtime (answers (usageCall authIndex))) >>= fun usage =>
        ask ⟨authIndex, "GET", Claude.resetGrantsUrl, none⟩ >>= fun reply =>
          (pure ⟨reading.claudeWindows usage,
            (answered runtime (answers (profileCall authIndex))).toOption.bind reading.claudePlan,
            ((answered runtime reply).toOption.bind (Claude.resetGrants reading)).elim
              .unchanged .reported⟩ : Fetch Observation)).run).given answers := rfl
  rw [asked, used]
  rfl

theorem observed_grants {reply : Except ManagementError ApiResponse} :
    (∃ body grants, answered runtime reply = .ok body ∧ Readable reading body grants ∧
      ((answered runtime reply).toOption.bind (Claude.resetGrants reading)).elim
        ManualResets.unchanged .reported = .reported grants) ∨
    (¬∃ body grants, answered runtime reply = .ok body ∧ Readable reading body grants) ∧
      ((answered runtime reply).toOption.bind (Claude.resetGrants reading)).elim
        ManualResets.unchanged .reported = .unchanged := by
  rcases answer : answered runtime reply with error | body
  · refine .inr ⟨?_, rfl⟩
    rintro ⟨_, _, told, _⟩
    cases told
  · rcases Option.eq_none_or_eq_some (Claude.resetGrants reading body) with unread | ⟨grants, read⟩
    · refine .inr ⟨?_, ?_⟩
      · rintro ⟨_, grants, ⟨⟩, readable⟩
        rw [resetGrants_iff.mpr readable] at unread
        cases unread
      · change (Claude.resetGrants reading body).elim _ _ = _
        rw [unread]
        rfl
    · refine .inl ⟨body, grants, rfl, resetGrants_iff.mp read, ?_⟩
      change (Claude.resetGrants reading body).elim _ _ = _
      rw [read]
      rfl

theorem grantsOf_reported {id : AccountId} {grants : List Grant} {base next : Tables}
    (stored : next.credits = base.credits.filter (·.accountId ≠ id) ++ grants.map (⟨id, ·⟩)) :
    grantsOf next id = grants ∧ ∀ other, other ≠ id → grantsOf next other = grantsOf base other := by
  constructor
  · have gone : (base.credits.filter (·.accountId ≠ id)).filter (·.accountId = id) = [] := by
      rw [List.filter_filter, List.filter_eq_nil_iff]
      intro credit _
      simp
    have kept : (grants.map (Credit.mk id)).filter (·.accountId = id) = grants.map (Credit.mk id) := by
      apply List.filter_eq_self.mpr
      rintro _ member
      obtain ⟨grant, _, rfl⟩ := List.mem_map.mp member
      exact decide_eq_true rfl
    rw [grantsOf, stored, List.filter_append, gone, kept, List.nil_append, List.map_map]
    exact List.map_id grants
  · intro other apart
    have kept : (base.credits.filter (·.accountId ≠ id)).filter (·.accountId = other) =
        base.credits.filter (·.accountId = other) := by
      apply Library.Keyed.filter_filter_kept
      intro credit _ named
      simp [of_decide_eq_true named, apart]
    have none : (grants.map (Credit.mk id)).filter (·.accountId = other) = [] := by
      apply List.filter_eq_nil_iff.mpr
      rintro _ member
      obtain ⟨grant, _, rfl⟩ := List.mem_map.mp member
      simp [apart.symm]
    rw [grantsOf, grantsOf, stored, List.filter_append, kept, none, List.append_nil]

/-- The grants of an answer are stored where it is readable, and left as they were where it is not. The
windows and the plan are those of the refresh either way. -/
theorem grants_are_read_whole (authIndex : String) (answers : ∀ question, Answer question) {usage : Json}
    (used : answered runtime (answers (usageCall authIndex)) = .ok usage) :
    ∃ observation, (Claude.fetch runtime reading authIndex).run.given answers = .ok observation ∧
      ∀ id refreshedAt session next,
        performed (recordRefresh runtime id (.ok observation) refreshedAt) session = (true, next) →
        ((∃ body grants, answered runtime (answers (grantsCall authIndex)) = .ok body ∧
            Readable reading body grants ∧ grantsOf next id = grants) ∨
          (¬∃ body grants, answered runtime (answers (grantsCall authIndex)) = .ok body ∧
              Readable reading body grants) ∧ grantsOf next id = grantsOf session.data id) ∧
        (∀ other, other ≠ id → grantsOf next other = grantsOf session.data other) ∧
        windowsOf next id = session.data.windows.filter (isWindow id responseKey) ++
          (Library.Keyed.firsts NewWindow.key (reading.claudeWindows usage)).map
            (·.row (windowsOf session.data id) id refreshedAt) ∧
        next.states = session.data.states.map fun state =>
          if state.accountId = id then
            afterRefresh refreshedAt (.ok ((answered runtime (answers (profileCall authIndex))).toOption.bind
              reading.claudePlan)) state
          else state := by
  refine ⟨_, fetch_observes authIndex answers used, ?_⟩
  intro id refreshedAt session next landed
  obtain ⟨_, recorded⟩ := performed_holds (holds_recordRefresh id _ refreshedAt session.data) rfl landed
  have windows : windowsOf next id = _ := congrArg (List.filter _) recorded.windows
  refine ⟨?_, ?_, windows.trans (windowsOf_replaced ..), recorded.states⟩
  · rcases @observed_grants runtime reading (answers (grantsCall authIndex)) with
      ⟨body, grants, told, readable, observed⟩ | ⟨unreadable, observed⟩
    · have stored := recorded.credits
      simp only [observed] at stored
      exact .inl ⟨body, grants, told, readable, (grantsOf_reported stored).1⟩
    · have stored := recorded.credits
      simp only [observed] at stored
      exact .inr ⟨unreadable, by rw [grantsOf, grantsOf, stored]⟩
  · intro other apart
    rcases @observed_grants runtime reading (answers (grantsCall authIndex)) with
      ⟨_, grants, _, _, observed⟩ | ⟨_, observed⟩
    · have stored := recorded.credits
      simp only [observed] at stored
      exact (grantsOf_reported stored).2 other apart
    · have stored := recorded.credits
      simp only [observed] at stored
      rw [grantsOf, grantsOf, stored]

/-- Reads nothing but what a test is about. -/
def readsNothing : Reading where
  instant := fun _ => none
  codexWindows := fun _ _ => []
  codexPlan := fun _ _ => none
  claudeWindows := fun _ => []
  claudePlan := fun _ => none
  claudeLabel := some
  antigravityBody := id
  antigravityWindows := fun _ => []
  antigravityPlan := fun _ => none
  kimiWindows := fun _ _ => []
  devinWindows := fun _ => []
  devinPlan := fun _ => none
  xaiIsPaid := fun _ => false
  xaiWindows := fun _ => none
  metaWindows := fun _ => []
  metaPlan := fun _ => none

/-- A block that lists one grant, with one reset left of two. -/
def oneGrant : Json := .object [("cedar_ember", .object [("eligible", .bool true),
  ("grants", .array [.object [("id", .string "a"), ("resets_total", .number "2"), ("resets_left", .number "1")]])])]

/-- Reads the usage call's address as an empty answer, and any other text as the block. -/
def addressed : Sql.Runtime := { Sql.Runtime.inert with
  parseJson := fun text => some (if text = Claude.usageUrl then .object [] else oneGrant) }

/-- Every call answers its address. -/
def echoed : ∀ question, Answer question
  | .call call => .ok ⟨200, call.url⟩
  | .download _ => .error .invalidBaseUrl
  | .now => 0

/-- A Claude account with a stored grant. -/
def granted : Tables := { Tables.empty with
  accounts := [⟨1, 1, "claude", "key", .oauth, none, none, none, 0, 0⟩]
  credits := [⟨1, none, 3, none, none⟩] }

theorem one_grant_is_stored : ∃ observation next,
    (Claude.fetch addressed readsNothing "1").run.given echoed = .ok observation ∧
    performed (recordRefresh addressed 1 (.ok observation) 7) ((World.calm 0 (· + 1)).session granted) =
      (true, next) ∧ grantsOf next 1 = [⟨none, 1, some 2, none⟩] := by
  have used : answered addressed (echoed (usageCall "1")) = .ok (.object []) := rfl
  have told : answered addressed (echoed (grantsCall "1")) = .ok oneGrant := rfl
  have read : Claude.resetGrants readsNothing oneGrant = some [⟨none, 1, some 2, none⟩] := by decide
  obtain ⟨observation, fetched, recorded⟩ := @grants_are_read_whole addressed readsNothing "1" echoed _ used
  have same : observation = ⟨[], none, .reported [⟨none, 1, some 2, none⟩]⟩ := by
    rw [fetch_observes "1" echoed used, told, Except.ok.injEq] at fetched
    rw [← fetched]
    change Observation.mk [] none ((Claude.resetGrants readsNothing oneGrant).elim .unchanged .reported) = _
    rw [read]
    rfl
  have ran : (performed (recordRefresh addressed 1
      (.ok ⟨[], none, .reported [⟨none, 1, some 2, none⟩]⟩) 7) ((World.calm 0 (· + 1)).session granted)).1 = true := by
    decide +kernel
  rw [← same] at ran
  refine ⟨observation, _, fetched, Prod.ext ran rfl, ?_⟩
  obtain ⟨⟨body, grants, answer, readable, stored⟩ | ⟨unreadable, _⟩, _⟩ :=
    recorded 1 7 ((World.calm 0 (· + 1)).session granted) _ (Prod.ext ran rfl)
  · cases told.symm.trans answer
    rw [stored]
    exact Option.some.inj ((resetGrants_iff.mpr readable).symm.trans read)
  · exact absurd ⟨oneGrant, _, told, resetGrants_iff.mp read⟩ unreadable

end MeteredUsage.Gateway.ResetGrants
