import Mathlib.Data.List.Dedup
import Mathlib.Data.List.Sort
import MeteredUsage.Library.Outcome
import MeteredUsage.Library.Reading
import MeteredUsage.Analytics.Shift

/-! Requests and failures per account over the last stretch of time, in buckets aligned to whole
multiples of their length since the Unix epoch, so consecutive polls line up. -/

namespace MeteredUsage.Analytics.HealthBuckets
open MeteredUsage.Values MeteredUsage.Store.Schema MeteredUsage.Codec MeteredUsage.Analytics.Filter
open MeteredUsage.Analytics.Shift MeteredUsage.Library.Reading MeteredUsage.Library.Calendar
open MeteredUsage.Library.Outcome (mapM_ok)

def minWindowMinutes : Nat := 5
def maxWindowMinutes : Nat := 1440
def maxHealthBuckets : Nat := 288

inductive HealthWindowError where
  | window
  | bucket
  | indivisible
  | tooManyBuckets
deriving DecidableEq

/-- A window that divides into at most `maxHealthBuckets` whole buckets. -/
structure HealthWindow where
  bucketMinutes : Nat
  buckets : Nat
  long : minWindowMinutes ≤ bucketMinutes * buckets
  short : bucketMinutes * buckets ≤ maxWindowMinutes
  few : buckets ≤ maxHealthBuckets

/-- `HealthWindow::new`. -/
def HealthWindow.new (windowMinutes bucketMinutes : Nat) : Except HealthWindowError HealthWindow :=
  if inRange : minWindowMinutes ≤ windowMinutes ∧ windowMinutes ≤ maxWindowMinutes then
    if bucketMinutes = 0 then .error .bucket
    else if divides : windowMinutes % bucketMinutes = 0 then
      if few : windowMinutes / bucketMinutes ≤ maxHealthBuckets then
        have whole := Nat.mul_div_cancel' (Nat.dvd_of_mod_eq_zero divides)
        .ok ⟨bucketMinutes, windowMinutes / bucketMinutes, whole.symm ▸ inRange.1, whole.symm ▸ inRange.2, few⟩
      else .error .tooManyBuckets
    else .error .indivisible
  else .error .window

def HealthWindow.bucketSeconds (window : HealthWindow) : Int := window.bucketMinutes * 60

structure HealthBucket where
  start : Timestamp
  requests : Nat
  failures : Nat
deriving DecidableEq

structure AccountHealth where
  accountId : AccountId
  /-- Oldest first, every bucket of the window. -/
  buckets : List HealthBucket
deriving DecidableEq

structure Health where
  bucketMinutes : Nat
  bucketsStart : Timestamp
  /-- By account id. -/
  accounts : List AccountHealth
deriving DecidableEq

/-- `Timestamp::as_second`, which drops a fraction towards the epoch. -/
def asSecond (instant : Timestamp) : Int := instant.tdiv 1000000000

/-- The seconds an instant may be of. -/
def firstSecond : Int := -377705023201
def lastSecond : Int := 253402207200

/-- An instant, of those `Timestamp` can hold. -/
abbrev Held := { instant : Timestamp // instant ≤ lastInstant }

theorem held_of_second {second : Int} (below : second ≤ lastSecond) :
    second * 1000000000 ≤ lastInstant := by
  unfold lastSecond at below
  unfold lastInstant
  omega

/-- `Timestamp::from_second`. -/
def fromSecond (second : Int) : Except AnalyticsError Held :=
  if inRange : firstSecond ≤ second ∧ second ≤ lastSecond then
    .ok ⟨second * 1000000000, held_of_second inRange.2⟩
  else .error .window

/-- `unixepoch(substr(…, 1, 19))`, which is NULL of a text that is not a date and time. -/
def unixepoch (text : String) : Option Int := readDateTime (text.toList.take 19)

/-- The bucket a row is grouped under: the quotient of SQL, which drops a fraction towards zero. -/
def bucketOf (start bucketSeconds : Int) (event : UsageEvent) : Option Int :=
  (unixepoch (stored event.occurredAt)).map fun second => (second - start).tdiv bucketSeconds

structure HealthRow where
  accountId : AccountId
  bucket : Int
  requests : Nat
  failures : Nat
deriving DecidableEq

/-- What the statement groups by. -/
def groupOf (start bucketSeconds : Int) (event : UsageEvent) : AccountId × Option Int :=
  (event.accountId, bucketOf start bucketSeconds event)

/-- A row of the statement. A NULL bucket decodes as 0. -/
def rowOf (start bucketSeconds : Int) (events : List UsageEvent) (group : AccountId × Option Int) : HealthRow :=
  let members := events.filter (groupOf start bucketSeconds · = group)
  ⟨group.1, group.2.getD 0, members.length, members.countP (·.failed)⟩

def healthRows (start bucketSeconds : Int) (events : List UsageEvent) : List HealthRow :=
  (events.map (groupOf start bucketSeconds)).dedup.map (rowOf start bucketSeconds events)

/-- The accounts of a `BTreeMap`, of which a new one starts empty. -/
def withAccount (empty : List HealthBucket) (id : AccountId) (accounts : List AccountHealth) :
    List AccountHealth :=
  if accounts.any (·.accountId = id) then accounts else ⟨id, empty⟩ :: accounts

/-- Sets the bucket a row counts. -/
def place (empty : List HealthBucket) (accounts : List AccountHealth) (row : HealthRow) :
    Except AnalyticsError (List AccountHealth) :=
  if 0 ≤ row.bucket ∧ row.bucket < empty.length then
    .ok ((withAccount empty row.accountId accounts).map fun account =>
      if account.accountId = row.accountId then
        { account with buckets := account.buckets.modify row.bucket.toNat fun bucket =>
            { bucket with
              requests := row.requests
              failures := row.failures } }
      else account)
  else .error (.unreadable "occurred_at" (toString row.bucket))

/-- The buckets of an account without a request. -/
def emptyBuckets (start bucketSeconds : Int) (buckets : Nat) :
    Except AnalyticsError (List HealthBucket) :=
  (List.range buckets).mapM fun index : Nat => do
    let instant ← fromSecond (start + (index : Int) * bucketSeconds)
    return ⟨instant.val, 0, 0⟩

/-- The end of the bucket that holds an instant, in seconds. -/
def endOf (window : HealthWindow) (second : Int) : Int :=
  (second / window.bucketSeconds + 1) * window.bucketSeconds

/-- `Health::load`. -/
def load (tables : Tables) (window : HealthWindow) (now : Timestamp) (sourceIds : List SourceId)
    (accountIds : List AccountId) : Except AnalyticsError Health := do
  let finish := endOf window (asSecond now)
  let start := finish - window.bucketSeconds * window.buckets
  let bucketsStart ← fromSecond start
  let bucketsEnd ← fromSecond finish
  let filter : AnalyticsFilter :=
    ⟨some bucketsStart.val, bucketsEnd.val, .utc, sourceIds, accountIds, [], [], [], bucketsEnd.property⟩
  filter.check tables
  let empty ← emptyBuckets start window.bucketSeconds window.buckets
  let named := accountIds.foldl (fun accounts id => withAccount empty id accounts) []
  let rows := healthRows start window.bucketSeconds (tables.events.filter filter.selects)
  let accounts ← rows.foldlM (place empty) named
  return ⟨window.bucketMinutes, bucketsStart.val,
    accounts.insertionSort fun first second => first.accountId ≤ second.accountId⟩

section Placing
variable {cell : AccountId → Nat → HealthBucket} {emptyCell : Nat → HealthBucket} {ids : List AccountId}
  {buckets : Nat} {rows : List HealthRow}

/-- Accounts with what each of their buckets holds. -/
def strips (buckets : Nat) (cell : AccountId → Nat → HealthBucket) (ids : List AccountId) :
    List AccountHealth := ids.map fun id => ⟨id, (List.range buckets).map (cell id)⟩

/-- The buckets once a row is counted. -/
def counted (cell : AccountId → Nat → HealthBucket) (row : HealthRow) (id : AccountId) (index : Nat) :
    HealthBucket :=
  if id = row.accountId ∧ index = row.bucket.toNat then
    { cell id index with
      requests := row.requests
      failures := row.failures }
  else cell id index

theorem withAccount_strips (fresh : ∀ id ∉ ids, cell id = emptyCell) (id : AccountId) :
    withAccount ((List.range buckets).map emptyCell) id (strips buckets cell ids) =
      strips buckets cell (ids.insert id) := by
  have known : (strips buckets cell ids).any (·.accountId = id) = decide (id ∈ ids) := by
    rw [Bool.eq_iff_iff, List.any_eq_true, decide_eq_true_eq]
    simp [strips]
  unfold withAccount
  rw [known]
  by_cases member : id ∈ ids
  · rw [List.insert_of_mem member, if_pos (decide_eq_true member)]
  · rw [List.insert_of_not_mem member, if_neg (by simpa using member)]
    unfold strips
    rw [List.map_cons, fresh id member]

theorem modify_range (buckets : Nat) (cell : Nat → HealthBucket) (index : Nat)
    (change : HealthBucket → HealthBucket) : ((List.range buckets).map cell).modify index change =
      (List.range buckets).map fun other => if other = index then change (cell other) else cell other := by
  apply List.ext_getElem?
  intro place
  rw [List.getElem?_modify, List.getElem?_map, List.getElem?_map]
  by_cases inside : place < buckets
  · rw [List.getElem?_range inside]
    by_cases same : index = place
    · simp [same]
    · simp [same, Ne.symm same]
  · rw [List.getElem?_eq_none (by simpa using inside)]
    simp

theorem place_strips (fresh : ∀ id ∉ ids, cell id = emptyCell) {row : HealthRow} (first : 0 ≤ row.bucket)
    (last : row.bucket < buckets) :
    place ((List.range buckets).map emptyCell) (strips buckets cell ids) row =
      .ok (strips buckets (counted cell row) (ids.insert row.accountId)) := by
  unfold place
  rw [if_pos (by simpa using ⟨first, last⟩), withAccount_strips fresh]
  congr 1
  unfold strips
  rw [List.map_map]
  apply List.map_congr_left
  intro id _
  simp only [Function.comp_apply]
  split
  next same =>
    rw [modify_range]
    unfold counted
    simp only [same, true_and]
  next apart =>
    unfold counted
    simp only [apart, false_and, if_false]

/-- Rows that say of their account and bucket what there is to say: their buckets say it, and no other
is changed. -/
theorem foldl_counted (requests failures : AccountId → Nat → Nat)
    (tell : ∀ row ∈ rows, row.requests = requests row.accountId row.bucket.toNat ∧
      row.failures = failures row.accountId row.bucket.toNat) (id : AccountId) (index : Nat) :
    rows.foldl counted cell id index =
      if ∃ row ∈ rows, row.accountId = id ∧ row.bucket.toNat = index then
        { cell id index with
          requests := requests id index
          failures := failures id index }
      else cell id index := by
  induction rows generalizing cell with
  | nil => simp
  | cons row rest ih =>
    have ⟨rowRequests, rowFailures⟩ := tell row List.mem_cons_self
    rw [List.foldl_cons, ih fun other member => tell other (List.mem_cons_of_mem _ member)]
    by_cases here : row.accountId = id ∧ row.bucket.toNat = index
    · obtain ⟨rfl, rfl⟩ := here
      rw [if_pos (show ∃ other ∈ row :: rest, _ from ⟨row, List.mem_cons_self, rfl, rfl⟩)]
      unfold counted
      simp only [and_self, if_true, rowRequests, rowFailures, ite_self]
    · have same : counted cell row id index = cell id index :=
        if_neg fun both => here ⟨both.1.symm, both.2.symm⟩
      rw [same]
      congr 1
      simp [here]

theorem foldlM_place (inside : ∀ row ∈ rows, 0 ≤ row.bucket ∧ row.bucket < buckets)
    (fresh : ∀ id ∉ ids, cell id = emptyCell) :
    rows.foldlM (place ((List.range buckets).map emptyCell)) (strips buckets cell ids) =
      .ok (strips buckets (rows.foldl counted cell)
        (rows.foldl (fun ids row => ids.insert row.accountId) ids)) := by
  induction rows generalizing cell ids with
  | nil => rfl
  | cons row rest ih =>
    have ⟨first, last⟩ := inside row List.mem_cons_self
    rw [List.foldlM_cons, place_strips fresh first last, List.foldl_cons, List.foldl_cons]
    apply ih fun other member => inside other (List.mem_cons_of_mem _ member)
    intro id absent
    have apart : id ≠ row.accountId := fun same => absent (same ▸ List.mem_insert_self)
    have before := fresh id fun member => absent (List.mem_insert_of_mem member)
    funext index
    rw [← before]
    exact if_neg fun both => apart both.1

theorem mem_foldl_insert {Item : Type} {items : List Item} {name : Item → AccountId} {id : AccountId} :
    id ∈ items.foldl (fun ids item => ids.insert (name item)) ids ↔
      id ∈ ids ∨ ∃ item ∈ items, name item = id := by
  induction items generalizing ids with
  | nil => simp
  | cons item rest ih =>
    rw [List.foldl_cons, ih, List.mem_insert_iff]
    simp only [List.exists_mem_cons_iff]
    tauto

theorem nodup_foldl_insert {Item : Type} (items : List Item) (name : Item → AccountId) (once : ids.Nodup) :
    (items.foldl (fun ids item => ids.insert (name item)) ids).Nodup := by
  induction items generalizing ids with
  | nil => exact once
  | cons item rest ih => exact ih once.insert

theorem foldl_withAccount (buckets : Nat) (emptyCell : Nat → HealthBucket) (named ids : List AccountId) :
    named.foldl (fun accounts id => withAccount ((List.range buckets).map emptyCell) id accounts)
      (strips buckets (fun _ => emptyCell) ids) =
      strips buckets (fun _ => emptyCell) (named.foldl (fun ids id => ids.insert id) ids) := by
  induction named generalizing ids with
  | nil => rfl
  | cons id rest ih =>
    rw [List.foldl_cons, withAccount_strips fun _ _ => rfl, ih]
    rfl

end Placing

/-- The stretch of time from one instant to before another. -/
def within (start finish instant : Int) : Bool := decide (start ≤ instant ∧ instant < finish)

theorem within_iff {start finish instant : Int} :
    within start finish instant = true ↔ start ≤ instant ∧ instant < finish := decide_eq_true_iff

/-- How many of the events to count lie in a stretch of time. -/
def tally (counts : UsageEvent → Bool) (events : List UsageEvent) (start finish : Timestamp) : Nat :=
  events.countP fun event => counts event && within start finish event.occurredAt

/-- An instant of a stretch is in its first part or in the rest of it. -/
theorem within_parts {start middle finish : Int} (first : start ≤ middle) (second : middle ≤ finish)
    (instant : Int) : (within start middle instant).toNat + (within middle finish instant).toNat =
      (within start finish instant).toNat := by
  unfold within
  by_cases early : instant < middle
  · have late : ¬(middle ≤ instant ∧ instant < finish) := by omega
    have same : (start ≤ instant ∧ instant < middle) ↔ (start ≤ instant ∧ instant < finish) := by omega
    rw [decide_eq_false late, decide_eq_decide.mpr same]
    rfl
  · have late : ¬(start ≤ instant ∧ instant < middle) := by omega
    have same : (middle ≤ instant ∧ instant < finish) ↔ (start ≤ instant ∧ instant < finish) := by omega
    rw [decide_eq_false late, decide_eq_decide.mpr same]
    exact Nat.zero_add _

/-- Two stretches one after the other are one. -/
theorem tally_add (counts : UsageEvent → Bool) (events : List UsageEvent) {start middle finish : Int}
    (first : start ≤ middle) (second : middle ≤ finish) :
    tally counts events start middle + tally counts events middle finish = tally counts events start finish := by
  unfold tally
  induction events with
  | nil => rfl
  | cons event rest ih =>
    have parts := within_parts first second event.occurredAt
    have one (counted : Bool) : (if counted = true then 1 else 0) = counted.toNat := by
      cases counted <;> rfl
    rw [List.countP_cons, List.countP_cons, List.countP_cons, ← ih]
    simp only [one]
    cases counts event with
    | false =>
      simp only [Bool.false_and, Bool.toNat_false]
      omega
    | true =>
      simp only [Bool.true_and]
      omega

/-- A window is its buckets. -/
theorem sum_tally (counts : UsageEvent → Bool) (events : List UsageEvent) (start : Int) {length : Int}
    (positive : 0 ≤ length) (buckets : Nat) :
    ((List.range buckets).map fun index : Nat => tally counts events (start + (index : Int) * length)
      (start + ((index : Int) + 1) * length)).sum =
      tally counts events start (start + (buckets : Int) * length) := by
  induction buckets with
  | zero =>
    symm
    unfold tally
    rw [List.range_zero, List.map_nil, List.sum_nil, List.countP_eq_zero]
    intro event _ counted
    have inside := within_iff.mp (Bool.and_eq_true_iff.mp counted).2
    rw [Nat.cast_zero, Int.zero_mul, Int.add_zero] at inside
    exact absurd inside.2 (not_lt.mpr inside.1)
  | succ buckets ih =>
    have before : start ≤ start + buckets * length :=
      Int.le_add_of_nonneg_right (Int.mul_nonneg (Int.natCast_nonneg _) positive)
    have after : start + buckets * length ≤ start + (buckets + 1) * length := by
      rw [Int.add_mul]
      omega
    rw [List.range_succ, List.map_append, List.sum_append, ih, List.map_singleton, List.sum_singleton,
      tally_add counts events before after, Nat.cast_succ]

/-- SQL reads the second of an instant of four digits. -/
theorem unixepoch_stored {instant : Timestamp} (printable : Printable instant) :
    unixepoch (stored instant) = some (secondOf instant) := by
  have width : (dateTime (secondOf instant)).length = 19 :=
    sorts_dateTime.length ⟨secondOf instant, printable⟩
  unfold unixepoch stored
  rw [String.toList_ofList, List.append_assoc, List.append_assoc, List.take_left' width]
  exact readDateTime_dateTime printable

/-- The events some ids ask for. -/
def asked (sourceIds : List SourceId) (accountIds : List AccountId) (event : UsageEvent) : Bool :=
  admits sourceIds event.sourceId && admits accountIds event.accountId

section Window
variable {sourceIds : List SourceId} {accountIds : List AccountId} {filter : AnalyticsFilter}
  {start finish : Timestamp} {event : UsageEvent}

/-- A window that begins in the year 0 or later selects the events of its stretch of time. -/
theorem selects_iff (begins : Printable start) (ends : Representable finish)
    (fits : finish ≤ lastInstant) (held : Representable event.occurredAt) :
    (AnalyticsFilter.mk (some start) finish .utc sourceIds accountIds [] [] [] fits).selects event = true ↔
      asked sourceIds accountIds event = true ∧ start ≤ event.occurredAt ∧ event.occurredAt < finish := by
  have startHeld : Representable start := ⟨lt_of_lt_of_le (by decide) begins.1, begins.2⟩
  have after := stored_le_iff_of_printable startHeld held (.inl begins)
  have before : start ≤ event.occurredAt →
      (stored event.occurredAt < stored finish ↔ event.occurredAt < finish) := by
    intro later
    have printable := printable_of_le begins held (after.mpr later)
    rw [← not_le, ← not_le, stored_le_iff_of_printable ends held (.inr printable)]
  have whole : (AnalyticsFilter.mk (some start) finish .utc sourceIds accountIds [] [] [] fits).selects event =
      (decide (stored event.occurredAt < stored finish) && decide (stored start ≤ stored event.occurredAt) &&
        admits sourceIds event.sourceId && admits accountIds event.accountId) := by
    simp [AnalyticsFilter.selects, admits]
  rw [whole]
  unfold asked
  simp only [Bool.and_eq_true, decide_eq_true_eq, after]
  constructor
  · rintro ⟨⟨⟨sorts, later⟩, source⟩, account⟩
    exact ⟨⟨source, account⟩, later, (before later).mp sorts⟩
  · rintro ⟨⟨source, account⟩, later, earlier⟩
    exact ⟨⟨⟨(before later).mpr earlier, later⟩, source⟩, account⟩

end Window

section Statement
variable {start bucketSeconds : Int} {events : List UsageEvent} {event : UsageEvent}

theorem mem_healthRows {row : HealthRow} : row ∈ healthRows start bucketSeconds events ↔
    ∃ event ∈ events, rowOf start bucketSeconds events (groupOf start bucketSeconds event) = row := by
  simp only [healthRows, List.mem_map, List.mem_dedup, exists_exists_and_eq_and]

theorem bucketOf_eq (printable : Printable event.occurredAt) (after : start ≤ secondOf event.occurredAt)
    (bucketSeconds : Int) : bucketOf start bucketSeconds event =
      some ((secondOf event.occurredAt - start) / bucketSeconds) := by
  have left : 0 ≤ secondOf event.occurredAt - start := Int.sub_nonneg_of_le after
  unfold bucketOf
  rw [unixepoch_stored printable, Option.map_some, Int.tdiv_eq_ediv_of_nonneg left]

/-- The bucket of an instant is the one whose interval holds it. -/
theorem bucket_eq_iff (positive : 0 < bucketSeconds) (instant index : Int) :
    (secondOf instant - start) / bucketSeconds = index ↔
      within (start * 1000000000 + index * (bucketSeconds * 1000000000))
        (start * 1000000000 + (index + 1) * (bucketSeconds * 1000000000)) instant = true := by
  have low := Int.le_ediv_iff_mul_le (a := index) (b := secondOf instant - start) positive
  have high := Int.ediv_lt_iff_lt_mul (a := secondOf instant - start) (b := index + 1) positive
  rw [within_iff]
  unfold secondOf at *
  have first : index * (bucketSeconds * 1000000000) = index * bucketSeconds * 1000000000 :=
    (Int.mul_assoc _ _ _).symm
  have second : (index + 1) * (bucketSeconds * 1000000000) = (index + 1) * bucketSeconds * 1000000000 :=
    (Int.mul_assoc _ _ _).symm
  rw [first, second]
  generalize index * bucketSeconds = lowest at *
  generalize (index + 1) * bucketSeconds = highest at *
  omega

end Statement

end MeteredUsage.Analytics.HealthBuckets
