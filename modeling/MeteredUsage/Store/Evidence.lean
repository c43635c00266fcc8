import Mathlib.Data.Int.Order.Basic
import Mathlib.Data.List.Induction
import Mathlib.Data.Set.Finite.Lemmas
import MeteredUsage.Values

/-! What a sequence of requests says of an account's subscription: the successes seen so far and
the evidence of exhaustion they leave, and on which sets of requests the evidence does not
depend on their order. -/

namespace MeteredUsage.Store.Evidence
open MeteredUsage.Values

inductive Report where
  /-- A rejected request of Meta's, and when it says the quota is full again. -/
  | exhausted (reset : Timestamp)
  | success (isMeta : Bool)
  | neither
deriving DecidableEq, Repr

structure Sign where
  occurredAt : Timestamp
  report : Report
deriving DecidableEq, Repr

def Sign.IsExhausted (sign : Sign) : Prop := ∃ reset, sign.report = .exhausted reset
def Sign.IsSuccess (sign : Sign) : Prop := ∃ isMeta, sign.report = .success isMeta

structure History where
  successes : List Timestamp
  /-- The reset named, and when the request that names it happened. -/
  evidence : Option (Timestamp × Timestamp)
deriving DecidableEq, Repr

def History.start : History := ⟨[], none⟩

/-- Whether a success is known that happened later. -/
def History.isPast (history : History) (occurredAt : Timestamp) : Bool :=
  history.successes.any (occurredAt < ·)

/-- The evidence beside a new one, which replaces all but a later one. -/
def latest (kept : Option (Timestamp × Timestamp)) (reset occurredAt : Timestamp) :
    Timestamp × Timestamp :=
  match kept with
  | some kept => if kept.2 ≤ occurredAt then (reset, occurredAt) else kept
  | none => (reset, occurredAt)

/-- What one request adds. -/
def History.next (history : History) (sign : Sign) : History :=
  match sign.report with
  | .exhausted reset =>
    if history.isPast sign.occurredAt then history else
      { history with evidence := some (latest history.evidence reset sign.occurredAt) }
  | .success isMeta =>
    { successes := sign.occurredAt :: history.successes
      evidence := if isMeta && !history.isPast sign.occurredAt then
          history.evidence.filter fun kept => sign.occurredAt < kept.2
        else history.evidence }
  | .neither => history

def settle (signs : List Sign) : History := signs.foldl History.next .start

theorem settle_append (signs : List Sign) (sign : Sign) :
    settle (signs ++ [sign]) = (settle signs).next sign := by
  rw [settle, List.foldl_append]
  rfl

theorem mem_successes {signs : List Sign} {occurredAt : Timestamp} :
    occurredAt ∈ (settle signs).successes ↔
      ∃ sign ∈ signs, sign.IsSuccess ∧ sign.occurredAt = occurredAt := by
  induction signs using List.reverseRecOn with
  | nil => simp [settle, History.start]
  | append_singleton signs sign ih =>
    obtain ⟨happened, report⟩ := sign
    simp only [settle_append, List.mem_append, List.mem_singleton, or_and_right, exists_or,
      exists_eq_left, ← ih]
    cases report with
    | exhausted reset =>
      simp only [History.next, Sign.IsSuccess, reduceCtorEq, exists_false, false_and, or_false]
      split <;> rfl
    | success isMeta =>
      have named : ∃ shown, Report.success isMeta = .success shown := ⟨isMeta, rfl⟩
      simp only [History.next, Sign.IsSuccess, List.mem_cons, named, true_and]
      rw [or_comm, eq_comm (a := occurredAt)]
    | neither => simp [History.next, Sign.IsSuccess]

theorem isPast_settle {signs : List Sign} {occurredAt : Timestamp} :
    (settle signs).isPast occurredAt = true ↔
      ∃ sign ∈ signs, sign.IsSuccess ∧ occurredAt < sign.occurredAt := by
  simp only [History.isPast, List.any_eq_true, decide_eq_true_eq, mem_successes]
  constructor
  · rintro ⟨_, ⟨sign, member, succeeded, rfl⟩, later⟩
    exact ⟨sign, member, succeeded, later⟩
  · rintro ⟨sign, member, succeeded, later⟩
    exact ⟨_, ⟨sign, member, succeeded, rfl⟩, later⟩

/-- No success after an instant leaves it past. -/
theorem not_isPast {signs : List Sign} {occurredAt : Timestamp}
    (none_later : ∀ sign ∈ signs, sign.IsSuccess → sign.occurredAt ≤ occurredAt) :
    (settle signs).isPast occurredAt = false := by
  rw [← Bool.not_eq_true, isPast_settle]
  rintro ⟨sign, member, succeeded, later⟩
  exact absurd (none_later sign member succeeded) (not_le.mpr later)

theorem latest_cases (kept : Option (Timestamp × Timestamp)) (reset occurredAt : Timestamp) :
    latest kept reset occurredAt = (reset, occurredAt) ∨
      kept = some (latest kept reset occurredAt) := by
  cases kept with
  | none => exact .inl rfl
  | some kept =>
    by_cases earlier : kept.2 ≤ occurredAt
    · exact .inl (if_pos earlier)
    · exact .inr (congrArg some (if_neg earlier)).symm

/-- Evidence is that of a rejected request. -/
theorem evidence_mem {signs : List Sign} {kept : Timestamp × Timestamp}
    (evident : (settle signs).evidence = some kept) : ⟨kept.2, .exhausted kept.1⟩ ∈ signs := by
  induction signs using List.reverseRecOn with
  | nil => cases evident
  | append_singleton signs sign ih =>
    obtain ⟨happened, report⟩ := sign
    rw [settle_append] at evident
    rw [List.mem_append]
    cases report with
    | exhausted reset =>
      simp only [History.next] at evident
      split at evident
      · exact .inl (ih evident)
      · rcases latest_cases (settle signs).evidence reset happened with new | old
        · rw [new] at evident
          cases evident
          exact .inr (by simp)
        · exact .inl (ih (old.trans evident))
    | success isMeta =>
      simp only [History.next] at evident
      split at evident
      · exact .inl (ih (Option.filter_eq_some_iff.mp evident).1)
      · exact .inl (ih evident)
    | neither => exact .inl (ih evident)

/-- Evidence is no later than every rejected request is. -/
theorem evidence_le {signs : List Sign} {last : Timestamp}
    (exhausted : ∀ sign ∈ signs, sign.IsExhausted → sign.occurredAt ≤ last)
    {kept : Timestamp × Timestamp} (evident : (settle signs).evidence = some kept) : kept.2 ≤ last :=
  exhausted _ (evidence_mem evident) ⟨_, rfl⟩

/-- A rejected request with no success after it, and none rejected later, leaves its own
evidence. -/
theorem evidence_exhausted {signs : List Sign} {last reset : Timestamp}
    (succeeded : ∀ sign ∈ signs, sign.IsSuccess → sign.occurredAt ≤ last)
    (exhausted : ∀ sign ∈ signs, sign.IsExhausted → sign.occurredAt ≤ last) :
    (settle (signs ++ [⟨last, .exhausted reset⟩])).evidence = some (reset, last) := by
  have reached : latest (settle signs).evidence reset last = (reset, last) := by
    cases evident : (settle signs).evidence with
    | none => rfl
    | some kept => exact if_pos (evidence_le exhausted evident)
  rw [settle_append]
  simp only [History.next, not_isPast succeeded, Bool.false_eq_true, if_false, reached]

/-- A success of Meta's clears what was rejected before it, where no success is later. -/
theorem evidence_success {signs : List Sign} {last : Timestamp}
    (succeeded : ∀ sign ∈ signs, sign.IsSuccess → sign.occurredAt ≤ last)
    (exhausted : ∀ sign ∈ signs, sign.IsExhausted → sign.occurredAt ≤ last) :
    (settle (signs ++ [⟨last, .success true⟩])).evidence = none := by
  rw [settle_append]
  simp only [History.next, not_isPast succeeded, Bool.not_false, Bool.and_self, if_true]
  refine Option.eq_none_iff_forall_not_mem.mpr fun kept member => ?_
  obtain ⟨evident, later⟩ := Option.filter_eq_some_iff.mp member
  exact absurd (evidence_le exhausted evident) (by simpa using later)

/-- Once the latest success is one of Meta's, nothing rejected before it is evident. -/
theorem evidence_cleared {signs : List Sign} {last : Timestamp}
    (succeeded : ∀ sign ∈ signs, sign.IsSuccess → sign.occurredAt ≤ last)
    (exhausted : ∀ sign ∈ signs, sign.IsExhausted → sign.occurredAt < last)
    (cleared : ⟨last, .success true⟩ ∈ signs) : (settle signs).evidence = none := by
  induction signs using List.reverseRecOn with
  | nil => rfl
  | append_singleton signs sign ih =>
    have earlier {other : Sign} (member : other ∈ signs) : other ∈ signs ++ [sign] :=
      List.mem_append_left _ member
    rcases List.mem_append.mp cleared with before | here
    · have kept := ih (fun other member => succeeded other (earlier member))
        (fun other member => exhausted other (earlier member)) before
      obtain ⟨happened, report⟩ := sign
      rw [settle_append]
      cases report with
      | exhausted reset =>
        have past : (settle signs).isPast happened = true :=
          isPast_settle.mpr ⟨_, before, ⟨true, rfl⟩, exhausted ⟨happened, _⟩ (by simp) ⟨reset, rfl⟩⟩
        simp only [History.next, past, if_true, kept]
      | success isMeta => simp [History.next, kept]
      | neither => exact kept
    · rw [← List.mem_singleton.mp here]
      exact evidence_success (fun other member => succeeded other (earlier member))
        fun other member rejected => Int.le_of_lt (exhausted other (earlier member) rejected)

/-- Once the latest rejected request is stored, its evidence stays where every success came
before it and every other request rejected with it names its reset. -/
theorem evidence_stays {signs : List Sign} {last reset : Timestamp}
    (succeeded : ∀ sign ∈ signs, sign.IsSuccess → sign.occurredAt ≤ last)
    (cleared : ∀ sign ∈ signs, sign.report = .success true → sign.occurredAt < last)
    (exhausted : ∀ sign ∈ signs, sign.IsExhausted → sign.occurredAt ≤ last)
    (same : ∀ sign ∈ signs, sign.IsExhausted → sign.occurredAt = last →
      sign.report = .exhausted reset)
    (named : ⟨last, .exhausted reset⟩ ∈ signs) : (settle signs).evidence = some (reset, last) := by
  induction signs using List.reverseRecOn with
  | nil => cases named
  | append_singleton signs sign ih =>
    have earlier {other : Sign} (member : other ∈ signs) : other ∈ signs ++ [sign] :=
      List.mem_append_left _ member
    have succeeded' : ∀ other ∈ signs, other.IsSuccess → other.occurredAt ≤ last :=
      fun other member => succeeded other (earlier member)
    have exhausted' : ∀ other ∈ signs, other.IsExhausted → other.occurredAt ≤ last :=
      fun other member => exhausted other (earlier member)
    by_cases here : sign = ⟨last, .exhausted reset⟩
    · rw [here]
      exact evidence_exhausted succeeded' exhausted'
    · have before : ⟨last, .exhausted reset⟩ ∈ signs :=
        (List.mem_append.mp named).resolve_right fun member =>
          here (List.mem_singleton.mp member).symm
      have kept := ih succeeded' (fun other member => cleared other (earlier member)) exhausted'
        (fun other member => same other (earlier member)) before
      obtain ⟨happened, report⟩ := sign
      rw [settle_append]
      cases report with
      | exhausted other =>
        have lower : happened < last := by
          have member : ⟨happened, .exhausted other⟩ ∈ signs ++ [⟨happened, .exhausted other⟩] := by
            simp
          refine lt_of_le_of_ne (exhausted _ member ⟨other, rfl⟩) fun equal => here ?_
          exact (Sign.mk.injEq ..).mpr ⟨equal, same _ member ⟨other, rfl⟩ equal⟩
        have unchanged : latest (some (reset, last)) other happened = (reset, last) :=
          if_neg (not_le.mpr lower)
        simp only [History.next]
        split
        · exact kept
        · rw [kept, unchanged]
      | success isMeta =>
        simp only [History.next]
        split
        next clears =>
          simp only [Bool.and_eq_true] at clears
          have lower := cleared ⟨happened, .success isMeta⟩ (by simp) (by rw [clears.1])
          simp [kept, lower]
        next => exact kept
      | neither => exact kept

/-- A later success that is not Meta's leaves the evidence where it is, and keeps every earlier
success from clearing it. -/
theorem evidence_blocked {lower upper reset : Timestamp} {signs : List Sign}
    (succeeded : ∀ sign ∈ signs, sign.report = .success true → sign.occurredAt < upper)
    (exhausted : ∀ sign ∈ signs, sign.IsExhausted → sign.occurredAt < upper) :
    (settle ([⟨lower, .exhausted reset⟩, ⟨upper, .success false⟩] ++ signs)).evidence =
      some (reset, lower) := by
  induction signs using List.reverseRecOn with
  | nil => simp [settle, History.next, History.start, History.isPast, latest]
  | append_singleton signs sign ih =>
    have kept := ih (fun other member => succeeded other (List.mem_append_left _ member))
      (fun other member => exhausted other (List.mem_append_left _ member))
    have past {happened : Timestamp} (before : happened < upper) :
        (settle ([⟨lower, .exhausted reset⟩, ⟨upper, .success false⟩] ++ signs)).isPast happened =
          true :=
      isPast_settle.mpr ⟨⟨upper, .success false⟩, by simp, ⟨false, rfl⟩, before⟩
    obtain ⟨happened, report⟩ := sign
    rw [← List.append_assoc, settle_append]
    cases report with
    | exhausted other =>
      have before := exhausted ⟨happened, .exhausted other⟩ (by simp) ⟨other, rfl⟩
      simp only [History.next, past before, if_true, kept]
    | success isMeta =>
      simp only [History.next]
      cases isMeta with
      | false => simpa using kept
      | true =>
        have before := succeeded ⟨happened, .success true⟩ (by simp) rfl
        simp only [past before, Bool.not_true, Bool.and_false, Bool.false_eq_true, if_false, kept]
    | neither => exact kept

/-- The latest of the rejected requests. -/
def IsLast (signs : List Sign) (sign : Sign) : Prop :=
  sign ∈ signs ∧ sign.IsExhausted ∧
    ∀ other ∈ signs, other.IsExhausted → other.occurredAt ≤ sign.occurredAt

/-- The latest rejected request has no success after it. -/
def Exhausted (signs : List Sign) : Prop :=
  ∃ last, IsLast signs last ∧
    ∀ other ∈ signs, other.IsSuccess → other.occurredAt ≤ last.occurredAt

/-- Where a success comes after the latest rejected request, one of the latest successes is
Meta's. Where none does, no success of Meta's is as late as it, and all requests rejected as
late as it name one reset. -/
def Determined (signs : List Sign) : Prop :=
  ∀ last, IsLast signs last →
    (∃ top ∈ signs, top.report = .success true ∧ last.occurredAt < top.occurredAt ∧
      ∀ other ∈ signs, other.IsSuccess → other.occurredAt ≤ top.occurredAt) ∨
    ((∀ other ∈ signs, other.IsSuccess → other.occurredAt ≤ last.occurredAt) ∧
      (∀ other ∈ signs, other.report = .success true → other.occurredAt < last.occurredAt) ∧
      ∀ other ∈ signs, other.IsExhausted → other.occurredAt = last.occurredAt →
        other.report = last.report)

theorem exists_latest {Item : Type} (happened : Item → Timestamp) {kind : Item → Prop}
    {items : List Item} (any : ∃ item ∈ items, kind item) :
    ∃ last ∈ items, kind last ∧ ∀ other ∈ items, kind other → happened other ≤ happened last := by
  have finite : {item | item ∈ items ∧ kind item}.Finite :=
    items.finite_toSet.subset fun _ known => known.1
  obtain ⟨last, ⟨member, named⟩, above⟩ := Set.exists_max_image _ happened finite any
  exact ⟨last, member, named, fun other stored same => above other ⟨stored, same⟩⟩

/-- All latest rejected requests are equally late. -/
theorem IsLast.sameTime {signs : List Sign} {first second : Sign} (left : IsLast signs first)
    (right : IsLast signs second) : first.occurredAt = second.occurredAt :=
  le_antisymm (right.2.2 first left.1 left.2.1) (left.2.2 second right.1 right.2.1)

/-- In every order, determined requests leave one evidence, and leave it exactly when the
subscription is exhausted. -/
theorem evidence_determined {signs : List Sign} (determined : Determined signs) :
    ∃ expected : Option (Timestamp × Timestamp), (expected.isSome = true ↔ Exhausted signs) ∧
      ∀ order, (∀ sign, sign ∈ order ↔ sign ∈ signs) → (settle order).evidence = expected := by
  by_cases any : ∃ sign ∈ signs, sign.IsExhausted
  · obtain ⟨last, latest⟩ := exists_latest Sign.occurredAt any
    rcases determined last latest with ⟨top, member, cleared, later, above⟩ | ⟨before, uncleared, same⟩
    · refine ⟨none, ⟨nofun, ?_⟩, fun order same => ?_⟩
      · rintro ⟨other, isLast, quiet⟩
        have bound := quiet top member ⟨true, cleared⟩
        rw [isLast.sameTime latest] at bound
        exact absurd bound (not_le.mpr later)
      · have found : ⟨top.occurredAt, .success true⟩ ∈ order := by
          rw [same, ← cleared]
          exact member
        refine evidence_cleared (fun other stored => above other ((same other).mp stored)) ?_ found
        exact fun other stored rejected =>
          (latest.2.2 other ((same other).mp stored) rejected).trans_lt later
    · obtain ⟨reset, named⟩ := latest.2.1
      refine ⟨some (reset, last.occurredAt), ⟨fun _ => ⟨last, latest, before⟩, fun _ => rfl⟩, ?_⟩
      intro order members
      have found : ⟨last.occurredAt, .exhausted reset⟩ ∈ order := by
        rw [members, ← named]
        exact latest.1
      exact evidence_stays (fun other stored => before other ((members other).mp stored))
        (fun other stored => uncleared other ((members other).mp stored))
        (fun other stored => latest.2.2 other ((members other).mp stored))
        (fun other stored rejected simultaneous =>
          (same other ((members other).mp stored) rejected simultaneous).trans named) found
  · refine ⟨none, ⟨nofun, ?_⟩, fun order same => ?_⟩
    · rintro ⟨last, ⟨member, rejected, _⟩, _⟩
      exact absurd ⟨last, member, rejected⟩ any
    · refine Option.eq_none_iff_forall_not_mem.mpr fun kept evident => any ?_
      exact ⟨_, (same _).mp (evidence_mem evident), kept.1, rfl⟩

section Orders
variable {Item : Type} (sign : Item → Sign)

theorem holds_sign {items chosen : List Item} (among : ∀ item ∈ chosen, item ∈ items)
    {property : Sign → Prop} (holds : ∀ other ∈ items.map sign, property other) :
    ∀ other ∈ chosen.map sign, property other := by
  intro other member
  obtain ⟨item, stored, rfl⟩ := List.mem_map.mp member
  exact holds _ (List.mem_map_of_mem (among item stored))

variable [DecidableEq Item]

theorem reordered_last {items : List Item} (distinct : items.Nodup) {last : Item}
    (member : last ∈ items) :
    (items.filter (· ≠ last) ++ [last]).Nodup ∧
      ∀ item, item ∈ items.filter (· ≠ last) ++ [last] ↔ item ∈ items := by
  constructor
  · simpa [List.nodup_append] using distinct.filter _
  · intro item
    by_cases here : item = last <;> simp [here, member]

variable {sign} {items : List Item} {last : Item}

/-- A latest rejected request that comes in last leaves its evidence. -/
theorem evidence_last_exhausted (succeeded : ∀ other ∈ items.map sign, other.IsSuccess →
      other.occurredAt ≤ (sign last).occurredAt)
    (exhausted : ∀ other ∈ items.map sign, other.IsExhausted →
      other.occurredAt ≤ (sign last).occurredAt)
    {reset : Timestamp} (named : (sign last).report = .exhausted reset) :
    (settle ((items.filter (· ≠ last) ++ [last]).map sign)).evidence =
      some (reset, (sign last).occurredAt) := by
  have among : ∀ item ∈ items.filter (· ≠ last), item ∈ items :=
    fun item member => List.mem_of_mem_filter member
  have shape : sign last = ⟨(sign last).occurredAt, .exhausted reset⟩ := by rw [← named]
  rw [List.map_append, List.map_singleton, shape]
  exact evidence_exhausted (holds_sign sign among succeeded) (holds_sign sign among exhausted)

/-- A success of Meta's as late as all others that comes in last leaves no evidence. -/
theorem evidence_last_success (succeeded : ∀ other ∈ items.map sign, other.IsSuccess →
      other.occurredAt ≤ (sign last).occurredAt)
    (exhausted : ∀ other ∈ items.map sign, other.IsExhausted →
      other.occurredAt ≤ (sign last).occurredAt)
    (named : (sign last).report = .success true) :
    (settle ((items.filter (· ≠ last) ++ [last]).map sign)).evidence = none := by
  have among : ∀ item ∈ items.filter (· ≠ last), item ∈ items :=
    fun item member => List.mem_of_mem_filter member
  have shape : sign last = ⟨(sign last).occurredAt, .success true⟩ := by rw [← named]
  rw [List.map_append, List.map_singleton, shape]
  exact evidence_success (holds_sign sign among succeeded) (holds_sign sign among exhausted)

theorem reordered_first (distinct : items.Nodup) {first second : Item} (apart : first ≠ second)
    (left : first ∈ items) (right : second ∈ items) :
    ([first, second] ++ items.filter fun item => item ≠ first ∧ item ≠ second).Nodup ∧
      ∀ item, item ∈ [first, second] ++ items.filter (fun item => item ≠ first ∧ item ≠ second) ↔
        item ∈ items := by
  constructor
  · simpa [List.nodup_append, apart] using distinct.filter _
  · intro item
    by_cases here : item = first
    · simp [here, left]
    · by_cases there : item = second <;> simp [here, there, right]

/-- A latest success that is not Meta's, stored right after a rejected request before it, leaves
evidence. -/
theorem evidence_first_blocked {first second : Item}
    (exhausted : ∀ other ∈ items.map sign, other.IsExhausted →
      other.occurredAt < (sign second).occurredAt)
    (succeeded : ∀ other ∈ items.map sign, other.report = .success true →
      other.occurredAt < (sign second).occurredAt)
    {reset : Timestamp} (rejected : (sign first).report = .exhausted reset)
    (other : (sign second).report = .success false) :
    (settle (([first, second] ++ items.filter fun item => item ≠ first ∧ item ≠ second).map
      sign)).evidence = some (reset, (sign first).occurredAt) := by
  have among : ∀ item ∈ items.filter fun item => item ≠ first ∧ item ≠ second, item ∈ items :=
    fun item member => List.mem_of_mem_filter member
  have early : sign first = ⟨(sign first).occurredAt, .exhausted reset⟩ := by rw [← rejected]
  have late : sign second = ⟨(sign second).occurredAt, .success false⟩ := by rw [← other]
  rw [List.map_append, List.map_cons, List.map_singleton, early, late]
  exact evidence_blocked (holds_sign sign among succeeded) (holds_sign sign among exhausted)

/-- Requests that are not determined have an order with the wrong evidence, or two with
different evidence. -/
theorem evidence_undetermined (distinct : items.Nodup)
    (undetermined : ¬Determined (items.map sign)) :
    ∃ first second : List Item, first.Nodup ∧ second.Nodup ∧
      (∀ item, item ∈ first ↔ item ∈ items) ∧ (∀ item, item ∈ second ↔ item ∈ items) ∧
      ¬((settle (first.map sign)).evidence = (settle (second.map sign)).evidence ∧
        ((settle (first.map sign)).evidence.isSome = true ↔ Exhausted (items.map sign))) := by
  simp only [Determined, not_forall, not_or, exists_prop] at undetermined
  obtain ⟨_, latest, uncleared, unkept⟩ := undetermined
  obtain ⟨last, member, rfl⟩ := List.mem_map.mp latest.1
  obtain ⟨reset, named⟩ := latest.2.1
  by_cases quiet : ∀ other ∈ items.map sign, other.IsSuccess →
      other.occurredAt ≤ (sign last).occurredAt
  · have exhausted : Exhausted (items.map sign) := ⟨sign last, latest, quiet⟩
    by_cases tied : ∃ other ∈ items, (sign other).report = .success true ∧
        (sign other).occurredAt = (sign last).occurredAt
    · obtain ⟨other, stored, succeeded, same⟩ := tied
      obtain ⟨nodup, members⟩ := reordered_last distinct stored
      have cleared := evidence_last_success (same ▸ quiet) (same ▸ latest.2.2) succeeded
      refine ⟨_, _, nodup, nodup, members, members, fun correct => ?_⟩
      have evident := correct.2.mpr exhausted
      rw [cleared] at evident
      cases evident
    · have earlier : ∀ other ∈ items.map sign, other.report = .success true →
          other.occurredAt < (sign last).occurredAt := by
        intro other stored succeeded
        obtain ⟨item, present, rfl⟩ := List.mem_map.mp stored
        exact lt_of_le_of_ne (quiet _ stored ⟨true, succeeded⟩) fun same =>
          tied ⟨item, present, succeeded, same⟩
      have differs : ∃ other ∈ items, ∃ another, (sign other).report = .exhausted another ∧
          (sign other).occurredAt = (sign last).occurredAt ∧ another ≠ reset := by
        by_contra! agree
        refine unkept ⟨quiet, earlier, ?_⟩
        rintro other stored ⟨another, rejected⟩ same
        obtain ⟨item, present, rfl⟩ := List.mem_map.mp stored
        rw [rejected, named, agree item present another rejected same]
      obtain ⟨other, stored, another, rejected, same, apart⟩ := differs
      obtain ⟨nodup, members⟩ := reordered_last distinct member
      obtain ⟨nodup', members'⟩ := reordered_last distinct stored
      refine ⟨_, _, nodup, nodup', members, members', fun correct => apart ?_⟩
      have first := evidence_last_exhausted quiet latest.2.2 named
      have second := evidence_last_exhausted (same ▸ quiet) (same ▸ latest.2.2) rejected
      have agree := first.symm.trans (correct.1.trans second)
      rw [same] at agree
      cases agree
      rfl
  · have any : ∃ item ∈ items, (sign item).IsSuccess ∧
        (sign last).occurredAt < (sign item).occurredAt := by
      push Not at quiet
      obtain ⟨_, stored, succeeded, later⟩ := quiet
      obtain ⟨item, present, rfl⟩ := List.mem_map.mp stored
      exact ⟨item, present, succeeded, later⟩
    obtain ⟨item, present, succeeded, later⟩ := any
    obtain ⟨top, stored, ⟨isMeta, topSucceeded⟩, above⟩ :=
      @exists_latest _ (fun item => (sign item).occurredAt) (fun item => (sign item).IsSuccess) items
        ⟨item, present, succeeded⟩
    have past : (sign last).occurredAt < (sign top).occurredAt :=
      later.trans_le (above item present succeeded)
    have bound : ∀ other ∈ items.map sign, other.IsSuccess →
        other.occurredAt ≤ (sign top).occurredAt := by
      intro other member succeeded
      obtain ⟨item, present, rfl⟩ := List.mem_map.mp member
      exact above item present succeeded
    -- No success of Meta's is as late as the latest, or the evidence would be cleared for good.
    have earlier : ∀ other ∈ items.map sign, other.report = .success true →
        other.occurredAt < (sign top).occurredAt := by
      intro other member cleared
      refine lt_of_le_of_ne (bound other member ⟨true, cleared⟩) fun same => uncleared ?_
      exact ⟨other, member, cleared, same ▸ past, same ▸ bound⟩
    cases isMeta with
    | true => exact absurd (earlier _ (List.mem_map_of_mem stored) topSucceeded) (lt_irrefl _)
    | false =>
      have apart : last ≠ top := fun same => absurd (same ▸ past) (lt_irrefl _)
      obtain ⟨nodup, members⟩ := reordered_first distinct apart member stored
      have blocked := evidence_first_blocked
        (fun other member rejected => (latest.2.2 other member rejected).trans_lt past)
        earlier named topSucceeded
      refine ⟨_, _, nodup, nodup, members, members, fun correct => ?_⟩
      obtain ⟨other, isLast, quiet⟩ := correct.2.mp (by rw [blocked]; rfl)
      have low := quiet _ (List.mem_map_of_mem stored) ⟨false, topSucceeded⟩
      rw [isLast.sameTime latest] at low
      exact absurd low (not_le.mpr past)

end Orders

end MeteredUsage.Store.Evidence
