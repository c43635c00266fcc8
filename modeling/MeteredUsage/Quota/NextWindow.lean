import MeteredUsage.Gateway.Readers
import MeteredUsage.Quota.OpenedOnUse

/-! When a prediction describes a window that holds now. The next window of a schedule is found by
dividing by its length, which a length of no seconds defeats, and the share used of it has no lower
bound of its own. -/

namespace MeteredUsage.Quota.NextWindow
open MeteredUsage.Values MeteredUsage.Store MeteredUsage.Store.Schema MeteredUsage.Store.Windows
open MeteredUsage.Quota.Predictions MeteredUsage.Quota.OpenedOnUse MeteredUsage.Library.GreedyWindows
open MeteredUsage.Billing.Periods (isTimestamp)
open MeteredUsage.Gateway.Readers.Xai (span)

variable {value : Sql.Float64 → ℚ} {tables : Tables} {window : QuotaWindow} {calibration : Option Calibration}
  {now reset start finish : Timestamp} {length : Int}

/-- A window as the adapters and `replace` store it: its share used is clamped, its length is no less
than nothing, and one that starts on use is a session of five hours. -/
structure Stored (value : Sql.Float64 → ℚ) (window : QuotaWindow) : Prop where
  share : ∀ used, window.usedFraction = some used → 0 ≤ value used ∧ value used ≤ 1
  lasts : ∀ length, window.windowSeconds = some length → 0 ≤ length
  session : window.startsOnUse = true → window.windowSeconds = some 18000
  resets : ∀ reset, window.resetsAt = some reset → isTimestamp reset = true

/-- What the floats of a report read as: a clamped one is a share. -/
structure Reads (value : Sql.Float64 → ℚ) : Prop where
  zero : value .zero = 0
  one : value .one = 1
  lt_iff : ∀ first second, first.isNan = false → second.isNan = false →
    (first.lt second = true ↔ value first < value second)

/-- The prediction is of a window that holds now. -/
structure Describes (value : Sql.Float64 → ℚ) (tables : Tables) (window : QuotaWindow)
    (calibration : Option Calibration) (now : Timestamp) (prediction : Prediction) : Prop where
  later : ∀ resetsAt, prediction.resetsAt = some resetsAt → now < resetsAt
  /-- A window that follows its schedule is a whole number of lengths after the reported one, and the
  usage before it makes no difference. -/
  scheduled : window.startsOnUse = false → ∀ reset, window.resetsAt = some reset → reset ≤ now →
    ∀ resetsAt, prediction.resetsAt = some resetsAt → ∃ length, window.windowSeconds = some length ∧
      (∃ count, 1 ≤ count ∧ resetsAt = reset + seconds (count * length)) ∧
      resetsAt - seconds length ≤ now ∧
      ∀ other : Tables, (other.events.filter fun event => resetsAt - seconds length ≤ event.occurredAt) =
          (tables.events.filter fun event => resetsAt - seconds length ≤ event.occurredAt) →
        Prediction.of value other window calibration now = Prediction.of value tables window calibration now
  share : 0 ≤ prediction.usedFraction ∧ prediction.usedFraction ≤ 1

def Sound (value : Sql.Float64 → ℚ) (tables : Tables) (window : QuotaWindow)
    (calibration : Option Calibration) (now : Timestamp) : Prop :=
  ∀ prediction, Prediction.of value tables window calibration now = some (some prediction) →
    Describes value tables window calibration now prediction

/-- The reported window has reset, and usage counts toward it at a rate. -/
structure Passed (value : Sql.Float64 → ℚ) (window : QuotaWindow) (calibration : Option Calibration)
    (now reset : Timestamp) (length : Int) : Prop where
  metered : scopeOf window.scope ≠ .unmetered
  rated : (rateOf value window calibration).isSome = true
  resets : window.resetsAt = some reset
  past : reset ≤ now
  lasts : window.windowSeconds = some length

/-- The window of the schedule that holds now, fewer than 2^31 of them after the reported one. -/
structure Scheduled (reset : Timestamp) (length : Int) (now start finish : Timestamp) : Prop where
  begins : ∃ count, 0 ≤ count ∧ count + 1 < 2 ^ 31 ∧ start = reset + seconds (count * length)
  begun : start ≤ now
  ends : finish = start + seconds length
  running : now < finish
  stored : isTimestamp finish = true

def HoldsNow (tables : Tables) (window : QuotaWindow) (reset : Timestamp) (length : Int)
    (now start finish : Timestamp) : Prop :=
  if window.startsOnUse then
    Holding (requestsOf tables window.accountId) (fun request => truncHour request + seconds length)
      reset now start finish ∧ isTimestamp finish = true
  else Scheduled reset length now start finish

/-- Fewer than 2^31 requests of the window succeeded since. -/
def Counted (tables : Tables) (window : QuotaWindow) (start now : Timestamp) : Prop :=
  succeeded (usedBetween tables window start now) < 2 ^ 31

/-- What was spent on the window since, in list dollars. -/
def spentSince (value : Sql.Float64 → ℚ) (tables : Tables) (window : QuotaWindow) (start now : Timestamp) : ℚ :=
  listCost value (usedBetween tables window start now)

/-- A window that resets on a schedule lasts at least a second, where usage since its reset can be
told; and the list cost since the window that holds now is not negative where it is told in dollars. -/
structure Regular (value : Sql.Float64 → ℚ) (tables : Tables) (window : QuotaWindow)
    (calibration : Option Calibration) (now : Timestamp) : Prop where
  lasting : ∀ reset, Passed value window calibration now reset 0 → window.startsOnUse = false →
    (now - reset) / seconds 1 + 1 < 2 ^ 31 → Counted tables window reset now →
      window.unit ≠ some requests ∧ calibration.isNone = true ∧ 0 < spentSince value tables window reset now
  earned : ∀ reset length start finish, Passed value window calibration now reset length →
    HoldsNow tables window reset length now start finish → Counted tables window start now →
      window.unit ≠ some requests → calibration.isSome = true → 0 ≤ spentSince value tables window start now

theorem stored_row (reads : Reads value) {report : NewWindow} {stored : List QuotaWindow} {id : AccountId}
    {observedAt : Timestamp} (told : ∀ used, report.usedFraction = some used → used.isNan = false)
    (lasts : ∀ length, report.windowSeconds = some length → 0 ≤ length)
    (session : report.startsOnUse = true → report.windowSeconds = some 18000)
    (resets : ∀ reset, (report.row stored id observedAt).resetsAt = some reset → isTimestamp reset = true) :
    Stored value (report.row stored id observedAt) := by
  refine ⟨fun used clamped => ?_, lasts, session, resets⟩
  obtain ⟨fraction, reported, rfl⟩ := Option.map_eq_some_iff.mp clamped
  have known := told fraction reported
  unfold Sql.Float64.clamp
  split
  next => rw [reads.zero]; exact ⟨le_refl 0, zero_le_one⟩
  next least =>
    split
    next => rw [reads.one]; exact ⟨zero_le_one, le_refl 1⟩
    next most =>
      rw [reads.lt_iff _ _ known (by decide), reads.zero, not_lt] at least
      rw [reads.lt_iff _ _ (by decide) known, reads.one, not_lt] at most
      exact ⟨least, most⟩

theorem le_seconds_iff {span count : Int} : seconds count ≤ span ↔ count ≤ span / seconds 1 := by
  simp only [seconds]
  omega

theorem seconds_add (first second : Int) : seconds (first + second) = seconds first + seconds second := by
  simp only [seconds]
  omega

/-- Of the windows in a schedule, the one that holds now is as many lengths after the reset as whole
ones have passed. -/
theorem passed_lengths {count : Int} (positive : 0 < length) :
    (now - reset) / seconds 1 / length = count ↔
      reset + seconds (count * length) ≤ now ∧ now < reset + seconds (count * length) + seconds length := by
  rw [Int.ediv_eq_iff_of_pos positive, ← not_le, ← le_seconds_iff, ← le_seconds_iff, seconds_add, not_le]
  constructor
  · rintro ⟨least, most⟩
    constructor <;> linarith
  · rintro ⟨least, most⟩
    constructor <;> linarith

theorem fits_of_isTimestamp {reset later : Int} {after : Int} (stored : isTimestamp reset = true)
    (reached : isTimestamp later = true) (same : later = reset + seconds after) :
    Fits after := by
  simp only [isTimestamp, Bool.and_eq_true, decide_eq_true_eq, Timestamp] at stored reached
  unfold firstInstant lastInstant at stored reached
  simp only [seconds] at same
  unfold Fits
  omega

theorem isTimestamp_between {first middle last : Int} (lower : isTimestamp first = true)
    (upper : isTimestamp last = true) (after : first ≤ middle) (before : middle ≤ last) :
    isTimestamp middle = true := by
  simp only [isTimestamp, Bool.and_eq_true, decide_eq_true_eq, Timestamp] at lower upper ⊢
  omega

theorem nextOnSchedule_eq_some_iff (positive : 0 < length) (past : reset ≤ now)
    (stored : isTimestamp reset = true) :
    nextOnSchedule reset length now = some (start, finish) ↔ Scheduled reset length now start finish := by
  have elapsed : (now - reset).tdiv (seconds 1) = (now - reset) / seconds 1 :=
    Int.tdiv_eq_ediv_of_nonneg (sub_nonneg.mpr past)
  have atLeast : max length 1 = length := max_eq_left (by omega)
  simp only [nextOnSchedule, elapsed, atLeast]
  generalize counted : (now - reset) / seconds 1 / length = count
  have nonneg : 0 ≤ count := by
    rw [← counted]
    exact Int.ediv_nonneg (Int.ediv_nonneg (sub_nonneg.mpr past) (by decide)) positive.le
  obtain ⟨begun, running⟩ := (passed_lengths positive).mp counted
  have split : reset + seconds (length * (count + 1)) = reset + seconds (count * length) + seconds length := by
    rw [mul_add, mul_one, mul_comm, seconds_add]
    ring
  rw [split]
  constructor
  · intro answer
    split at answer
    next fits =>
      obtain ⟨rfl, rfl⟩ := Prod.mk.inj (Option.some.inj answer)
      rw [add_sub_cancel_right]
      exact ⟨⟨count, nonneg, fits.1, rfl⟩, begun, rfl, running, fits.2.2.1⟩
    next => cases answer
  · rintro ⟨⟨other, _, few, rfl⟩, begins, rfl, runs, reached⟩
    obtain rfl := counted.symm.trans ((passed_lengths positive).mpr ⟨begins, runs⟩)
    rw [add_sub_cancel_right]
    have spans : 0 ≤ seconds (count * length) := by
      simp only [seconds]
      exact mul_nonneg (mul_nonneg nonneg positive.le) (by decide)
    have lasts : 0 ≤ seconds length := mul_nonneg positive.le (by decide)
    refine if_pos ⟨few, fits_of_isTimestamp stored reached split.symm, reached, ?_⟩
    exact isTimestamp_between stored reached (by linarith) (by linarith)

theorem nextOnSchedule_zero (past : reset ≤ now) (stored : isTimestamp reset = true) :
    nextOnSchedule reset 0 now =
      if (now - reset) / seconds 1 + 1 < 2 ^ 31 then some (reset, reset) else none := by
  have elapsed : (now - reset).tdiv (seconds 1) = (now - reset) / seconds 1 :=
    Int.tdiv_eq_ediv_of_nonneg (sub_nonneg.mpr past)
  simp only [nextOnSchedule, elapsed]
  simp [seconds, stored]

theorem lt_truncHour (request : Int) : request < truncHour request + hours 1 := by
  rcases le_total 0 request with since | before
  · rw [truncHour, Int.tdiv_eq_ediv_of_nonneg since]
    simp only [hours, minutes, seconds]
    omega
  · have mirrored : request.tdiv (hours 1) = -(-request / hours 1) := by
      rw [← Int.tdiv_eq_ediv_of_nonneg (Int.neg_nonneg.mpr before), Int.neg_tdiv, neg_neg]
    rw [truncHour, mirrored]
    simp only [hours, minutes, seconds]
    omega

theorem running_of_holdsNow (holds : HoldsNow tables window reset length now start finish) :
    start ≤ now ∧ now < finish := by
  unfold HoldsNow at holds
  split at holds
  next => exact ⟨holds.1.begun, holds.1.running⟩
  next => exact ⟨holds.begun, holds.running⟩

theorem current_eq_some_iff (stored : Stored value window) (knows : isTimestamp now = true)
    (passed : Passed value window calibration now reset length)
    (positive : window.startsOnUse = false → 0 < length) :
    current tables window reset length now = some (some (start, finish)) ↔
      HoldsNow tables window reset length now start finish := by
  have known := stored.resets reset passed.resets
  unfold current HoldsNow
  split
  next session =>
    obtain rfl : length = 18000 := Option.some.inj (passed.lasts.symm.trans (stored.session session))
    have closesLater (request : Timestamp) : request < truncHour request + seconds 18000 :=
      (lt_truncHour request).trans (Int.add_lt_add_left (by decide) _)
    obtain ⟨answer, answered, walks⟩ := openedOnUse_walks known knows
      (fun request (_ : request ∈ requestsOf tables window.accountId) => closesLater request)
      (fun _ _ _ _ => rfl) passed.past (Nat.lt_succ_self _)
    rw [answered, Option.some.injEq]
    exact walks.some_iff start finish
  next scheduled =>
    rw [Option.some.injEq]
    exact nextOnSchedule_eq_some_iff (positive (Bool.eq_false_of_not_eq_true scheduled)) passed.past known

def meteredSince (value : Sql.Float64 → ℚ) (tables : Tables) (window : QuotaWindow) (start now : Timestamp) :
    Metered :=
  ⟨succeeded (usedBetween tables window start now), spentSince value tables window start now⟩

theorem between_eq_some_iff {metered : Metered} : between value tables window start now = some metered ↔
    Counted tables window start now ∧ metered = meteredSince value tables window start now := by
  unfold between Counted meteredSince spentSince
  simp only
  split
  next few => exact ⟨fun same => ⟨few, (Option.some.inj same).symm⟩, fun same => congrArg some same.2.symm⟩
  next many => exact ⟨fun absent => (nomatch absent), fun counted => absurd counted.1 many⟩

theorem between_of_counted (value : Sql.Float64 → ℚ) (counted : Counted tables window start now) :
    between value tables window start now = some (meteredSince value tables window start now) :=
  between_eq_some_iff.mpr ⟨counted, rfl⟩

def predicted (value : Sql.Float64 → ℚ) (tables : Tables) (window : QuotaWindow) (now : Timestamp) (rate : Rate)
    (holding : Option (Timestamp × Timestamp)) : Option (Option Prediction) :=
  match holding with
  | none => some (some ⟨0, none, true⟩)
  | some (start, finish) => (between value tables window start now).map fun metered =>
    (rate.spent metered).map fun used => ⟨min used 1, some finish, true⟩

theorem of_passed (passed : Passed value window calibration now reset length) {rate : Rate}
    (rated : rateOf value window calibration = some rate) (tables : Tables) :
    Prediction.of value tables window calibration now =
      (current tables window reset length now).bind (predicted value tables window now rate) := by
  have reached : window.resetsAt.filter (· ≤ now) = some reset := by
    rw [passed.resets]
    exact Option.filter_some_pos (decide_eq_true passed.past)
  simp only [Prediction.of, if_neg passed.metered, rated, reached, passed.lasts]
  rfl

theorem of_found (passed : Passed value window calibration now reset length) {rate : Rate}
    (rated : rateOf value window calibration = some rate)
    (found : current tables window reset length now = some (some (start, finish)))
    (counted : Counted tables window start now) : Prediction.of value tables window calibration now =
      some ((rate.spent (meteredSince value tables window start now)).map fun used =>
        ⟨min used 1, some finish, true⟩) := by
  rw [of_passed passed rated, found, Option.bind_some, predicted, between_of_counted value counted,
    Option.map_some]

/-- Usage is at no known share only where it has a cost and nothing to price it by. -/
theorem spent_eq_none_iff {rate : Rate} (rated : rateOf value window calibration = some rate)
    {metered : Metered} : rate.spent metered = none ↔
      window.unit ≠ some requests ∧ calibration.isNone = true ∧ 0 < metered.costUsd := by
  unfold rateOf at rated
  split at rated
  next counted =>
    obtain ⟨limit, _, rfl⟩ := Option.map_eq_some_iff.mp rated
    simp [Rate.spent, counted]
  next dollars =>
    obtain rfl := Option.some.inj rated
    cases calibration with
    | none => simp [Rate.spent, dollars]
    | some learned => simp [Rate.spent]

/-- The share is negative only where a negative cost is told in dollars. -/
theorem spent_nonneg_iff {rate : Rate} (rated : rateOf value window calibration = some rate)
    {metered : Metered} (counted : 0 ≤ metered.requests) {used : ℚ} (told : rate.spent metered = some used) :
    0 ≤ used ↔ (window.unit ≠ some requests → calibration.isSome = true → 0 ≤ metered.costUsd) := by
  unfold rateOf at rated
  split at rated
  next inRequests =>
    obtain ⟨limit, filtered, rfl⟩ := Option.map_eq_some_iff.mp rated
    have positive : 0 < limit := by simpa using (Option.filter_eq_some_iff.mp filtered).2
    obtain rfl := Option.some.inj told
    have share : 0 ≤ 1 / limit * metered.requests :=
      mul_nonneg (div_pos zero_lt_one positive).le (by exact_mod_cast counted)
    exact ⟨fun _ dollars => absurd inRequests dollars, fun _ => share⟩
  next dollars =>
    obtain rfl := Option.some.inj rated
    cases calibration with
    | none =>
      simp only [Rate.spent, Option.map_none] at told
      split at told
      next => simp [← Option.some.inj told]
      next => cases told
    | some learned =>
      obtain rfl := Option.some.inj told
      simp [dollars, mul_nonneg_iff_of_pos_left learned.positive]

theorem usedBetween_congr {other : Tables}
    (same : (other.events.filter fun event => start ≤ event.occurredAt) =
      tables.events.filter fun event => start ≤ event.occurredAt) :
    usedBetween other window start now = usedBetween tables window start now := by
  have narrowed (tables : Tables) : usedBetween tables window start now =
      (tables.events.filter fun event => start ≤ event.occurredAt).filter fun event =>
        event.accountId = window.accountId && event.occurredAt ≤ now && counts (scopeOf window.scope) event := by
    rw [usedBetween, List.filter_filter]
    apply List.filter_congr
    intro event _
    ac_rfl
  rw [narrowed other, narrowed tables, same]

theorem describes_reported (stored : Stored value window) {prediction : Prediction}
    (before : ∀ reset, window.resetsAt = some reset → ¬reset ≤ now)
    (answered : Prediction.of value tables window calibration now = some (some prediction)) :
    Describes value tables window calibration now prediction := by
  have open' : window.resetsAt.filter (· ≤ now) = none := by
    rw [Option.filter_eq_none_iff]
    intro reset reported
    simpa using before reset reported
  unfold Prediction.of at answered
  split at answered
  next => cases answered
  next =>
    split at answered
    next => cases answered
    next rate _ =>
      rw [open'] at answered
      simp only at answered
      split at answered
      next => cases answered
      next used share =>
        obtain ⟨metered, _, answer⟩ := Option.map_eq_some_iff.mp answered
        obtain ⟨added, told, rfl⟩ := Option.map_eq_some_iff.mp answer
        have more : 0 < added := by simpa using (Option.filter_eq_some_iff.mp told).2
        have least := (stored.share used share).1
        refine ⟨fun resetsAt reported => not_le.mp (before resetsAt reported), ?_, ?_, min_le_right _ _⟩
        · intro _ reset reported past
          exact absurd past (before reset reported)
        · exact le_min (by linarith) zero_le_one

theorem passed_of_answered {prediction : Prediction} (reported : window.resetsAt = some reset)
    (past : reset ≤ now)
    (answered : Prediction.of value tables window calibration now = some (some prediction)) :
    ∃ length, Passed value window calibration now reset length := by
  have reached : window.resetsAt.filter (· ≤ now) = some reset := by
    rw [reported]
    exact Option.filter_some_pos (decide_eq_true past)
  unfold Prediction.of at answered
  split at answered
  next => cases answered
  next metered =>
    split at answered
    next => cases answered
    next rate rated =>
      rw [reached] at answered
      simp only at answered
      split at answered
      next => cases answered
      next length lasts => exact ⟨length, metered, by rw [rated]; rfl, reported, past, lasts⟩

theorem lasts_of_holdsNow (holds : HoldsNow tables window reset length now start finish)
    (scheduled : window.startsOnUse = false) : 0 < length := by
  simp only [HoldsNow, scheduled, if_neg Bool.false_ne_true] at holds
  have after := holds.begun.trans_lt holds.running
  rw [holds.ends] at after
  simp only [seconds, Timestamp] at after
  omega

/-- The usage before a window that follows its schedule makes no difference to what is answered. -/
theorem of_congr (passed : Passed value window calibration now reset length)
    (scheduled : window.startsOnUse = false)
    (found : nextOnSchedule reset length now = some (start, finish)) {other : Tables}
    (same : (other.events.filter fun event => start ≤ event.occurredAt) =
      tables.events.filter fun event => start ≤ event.occurredAt) :
    Prediction.of value other window calibration now = Prediction.of value tables window calibration now := by
  obtain ⟨rate, rated⟩ := Option.isSome_iff_exists.mp passed.rated
  have holding (tables : Tables) : current tables window reset length now = some (some (start, finish)) := by
    rw [current, scheduled, if_neg Bool.false_ne_true, found]
  rw [of_passed passed rated, of_passed passed rated, holding, holding, Option.bind_some, Option.bind_some,
    predicted, predicted, between, between, usedBetween_congr same]

theorem describes_found (passed : Passed value window calibration now reset length)
    (known : isTimestamp reset = true)
    (holds : HoldsNow tables window reset length now start finish) {used : ℚ} (share : 0 ≤ used) :
    Describes value tables window calibration now ⟨min used 1, some finish, true⟩ := by
  obtain ⟨begun, running⟩ := running_of_holdsNow holds
  refine ⟨?_, ?_, le_min share zero_le_one, min_le_right _ _⟩
  · rintro _ ⟨⟩
    exact running
  · rintro scheduled _ reported _ _ ⟨⟩
    obtain rfl := Option.some.inj (passed.resets.symm.trans reported)
    have positive := lasts_of_holdsNow holds scheduled
    simp only [HoldsNow, scheduled, if_neg Bool.false_ne_true] at holds
    have found := (nextOnSchedule_eq_some_iff positive passed.past known).mpr holds
    have begins : finish - seconds length = start := by rw [holds.ends, add_sub_cancel_right]
    obtain ⟨count, nonneg, _, stands⟩ := holds.begins
    refine ⟨length, passed.lasts, ?_⟩
    rw [begins]
    refine ⟨⟨count + 1, by omega, ?_⟩, begun, fun other same => ?_⟩
    · rw [holds.ends, stands, add_mul, one_mul, seconds_add, add_assoc]
    · exact of_congr passed scheduled found same

theorem regular_of_sound (stored : Stored value window) (knows : isTimestamp now = true)
    (sound : Sound value tables window calibration now) : Regular value tables window calibration now := by
  constructor
  · intro reset passed scheduled few counted
    obtain ⟨rate, rated⟩ := Option.isSome_iff_exists.mp passed.rated
    have found : current tables window reset 0 now = some (some (reset, reset)) := by
      rw [current, scheduled, if_neg Bool.false_ne_true,
        nextOnSchedule_zero passed.past (stored.resets reset passed.resets), if_pos few]
    have answers := of_found passed rated found counted
    rcases Option.eq_none_or_eq_some (rate.spent (meteredSince value tables window reset now))
      with unknown | ⟨used, told⟩
    · exact (spent_eq_none_iff rated).mp unknown
    · rw [told] at answers
      have described := sound _ answers
      exact absurd (described.later reset rfl) passed.past.not_gt
  · intro reset length start finish passed holds counted dollars learned
    obtain ⟨rate, rated⟩ := Option.isSome_iff_exists.mp passed.rated
    have found := (current_eq_some_iff stored knows passed (lasts_of_holdsNow holds)).mpr holds
    have answers := of_found passed rated found counted
    rcases Option.eq_none_or_eq_some (rate.spent (meteredSince value tables window start now))
      with unknown | ⟨used, told⟩
    · exact ((spent_eq_none_iff rated).mp unknown).2.2.le
    · rw [told] at answers
      have described := sound _ answers
      have share : 0 ≤ used := described.share.1.trans (min_le_left _ _)
      exact (spent_nonneg_iff rated (Int.natCast_nonneg _) told).mp share dollars learned

theorem sound_of_regular (stored : Stored value window) (knows : isTimestamp now = true)
    (regular : Regular value tables window calibration now) : Sound value tables window calibration now := by
  intro prediction answered
  by_cases before : ∀ reset, window.resetsAt = some reset → ¬reset ≤ now
  · exact describes_reported stored before answered
  · push Not at before
    obtain ⟨reset, reported, past⟩ := before
    obtain ⟨length, passed⟩ := passed_of_answered reported past answered
    obtain ⟨rate, rated⟩ := Option.isSome_iff_exists.mp passed.rated
    rw [of_passed passed rated, Option.bind_eq_some_iff] at answered
    obtain ⟨holding, found, answer⟩ := answered
    unfold predicted at answer
    rcases holding with _ | ⟨start, finish⟩
    · obtain rfl := Option.some.inj (Option.some.inj answer)
      exact ⟨nofun, fun _ _ _ _ _ => nofun, le_refl 0, zero_le_one⟩
    · obtain ⟨metered, counts, answer⟩ := Option.map_eq_some_iff.mp answer
      obtain ⟨used, told, rfl⟩ := Option.map_eq_some_iff.mp answer
      obtain ⟨counted, rfl⟩ := between_eq_some_iff.mp counts
      have positive (scheduled : window.startsOnUse = false) : 0 < length := by
        rcases (stored.lasts length passed.lasts).eq_or_lt with rfl | positive
        · rw [current, scheduled, if_neg Bool.false_ne_true,
            nextOnSchedule_zero past (stored.resets reset reported)] at found
          split at found
          next few =>
            obtain ⟨rfl, rfl⟩ := Prod.mk.inj (Option.some.inj (Option.some.inj found))
            have unknown : rate.spent (meteredSince value tables window reset now) = none :=
              (spent_eq_none_iff rated).mpr (regular.lasting reset passed scheduled few counted)
            rw [unknown] at told
            cases told
          next => cases found
        · exact positive
      have holds := (current_eq_some_iff stored knows passed positive).mp found
      have share := (spent_nonneg_iff rated (Int.natCast_nonneg _) told).mpr fun dollars learned =>
        regular.earned reset length start finish passed holds counted dollars learned
      exact describes_found passed (stored.resets reset reported) holds share

/-- Predictions describe a window that holds now exactly where the window that resets on a schedule
lasts, and what was spent since is not negative. -/
theorem sound_iff (stored : Stored value window) (knows : isTimestamp now = true) :
    Sound value tables window calibration now ↔ Regular value tables window calibration now :=
  ⟨regular_of_sound stored knows, sound_of_regular stored knows⟩

/-- A window of account 1 that follows its schedule. -/
def lasting (windowSeconds : Option Int) (resetsAt : Timestamp) : QuotaWindow where
  accountId := 1
  windowKey := "monthly"
  label := "Credits"
  usedFraction := some .zero
  usedValue := none
  limitValue := none
  unit := none
  windowSeconds := windowSeconds
  resetsAt := some resetsAt
  observedAt := 0
  scope := "account"
  startsOnUse := false

def unitValue (float : Sql.Float64) : ℚ :=
  if float = .zero then 0 else if float.isSignNegative then -1 else 1

theorem stored_lasting {windowSeconds : Option Int} {resetsAt : Timestamp}
    (lasts : ∀ length, windowSeconds = some length → 0 ≤ length) (known : isTimestamp resetsAt = true) :
    Stored unitValue (lasting windowSeconds resetsAt) := by
  refine ⟨?_, lasts, nofun, ?_⟩
  · rintro _ ⟨⟩
    simp [unitValue]
  · rintro _ ⟨⟩
    exact known

/-- Every event with a cost, at no less than nothing. -/
def Costed (value : Sql.Float64 → ℚ) (tables : Tables) : Prop :=
  ∀ event ∈ tables.events, 0 ≤ (event.listCostUsd.map value).getD 0

theorem spentSince_nonneg (costed : Costed value tables) : 0 ≤ spentSince value tables window start now := by
  apply List.sum_nonneg
  intro cost member
  obtain ⟨event, counted, rfl⟩ := List.mem_map.mp member
  exact costed event (List.mem_of_mem_filter counted)

/-- Floats in their order, with one at 1. -/
def placeValue (float : Sql.Float64) : ℚ := float.place / Sql.Float64.one.place

theorem one_place_pos : (0 : ℚ) < Sql.Float64.one.place :=
  Int.cast_pos.mpr (by decide : 0 < Sql.Float64.one.place)

theorem reads_placeValue : Reads placeValue where
  zero := by
    have none : Sql.Float64.zero.place = 0 := by decide
    rw [placeValue, none, Int.cast_zero, zero_div]
  one := div_self one_place_pos.ne'
  lt_iff first second known others := by
    rw [placeValue, placeValue, div_lt_div_iff_of_pos_right one_place_pos]
    simp [Sql.Float64.lt, known, others]

/-- A report of a day in which three quarters were used. -/
def reportedDay : NewWindow where
  key := "daily"
  label := "Credits"
  usedFraction := some ⟨0x3fe8000000000000⟩
  usedValue := none
  limitValue := none
  unit := none
  windowSeconds := some 86400
  resetsAt := some 0
  scope := .account
  startsOnUse := false

/-- Requests of two days, at a list dollar each. -/
def usedDays : Tables := { Tables.empty with
  events := [20, 26, 29].map fun hour => { usedAt (hours hour) with listCostUsd := some .one } }

/-- A tenth of the window for each dollar. -/
def tenth : Calibration := ⟨1 / 10, 3, [], by norm_num⟩

/-- Thirty hours after the reset, what was spent in the second day is told. -/
theorem a_used_day_is_sound :
    Sound placeValue usedDays (reportedDay.row [] 1 0) (some tenth) (hours 30) ∧
      Prediction.of placeValue usedDays (reportedDay.row [] 1 0) (some tenth) (hours 30) =
        some (some ⟨1 / 5, some (hours 48), true⟩) := by
  have stored : Stored placeValue (reportedDay.row [] 1 0) := by
    refine stored_row reads_placeValue ?_ ?_ nofun ?_
    · rintro _ ⟨⟩
      decide
    · rintro _ ⟨⟩
      decide
    · rintro _ ⟨⟩
      decide
  refine ⟨(sound_iff stored (by decide)).mpr ⟨?_, ?_⟩, by decide +kernel⟩
  · intro reset passed
    cases passed.lasts
  · intro reset length start finish _ _ _ _ _
    apply spentSince_nonneg
    intro event member
    obtain ⟨hour, _, rfl⟩ := List.mem_map.mp member
    change 0 ≤ placeValue .one
    rw [reads_placeValue.one]
    exact zero_le_one

/-- A period that ends in the second it starts in is answered as resetting when it did, and a cost below nothing
metered since the reset as a negative share. -/
theorem predictions_not_sound :
    (Stored unitValue (lasting (span (some (seconds 60 + 1)) (some (seconds 60 + 2))) (seconds 60 + 2)) ∧
      ¬Sound unitValue Tables.empty (lasting (span (some (seconds 60 + 1)) (some (seconds 60 + 2))) (seconds 60 + 2))
        none (seconds 90)) ∧
    Stored unitValue (lasting (some 3600) 0) ∧
      ¬Sound unitValue { Tables.empty with events := [{ usedAt 30 with listCostUsd := some ⟨0xbff0000000000000⟩ }] }
        (lasting (some 3600) 0) (some ⟨1 / 10, 3, [], by decide +kernel⟩) (seconds 90) := by
  refine ⟨⟨stored_lasting (by rintro _ ⟨⟩; decide) (by decide), fun sound => ?_⟩,
    stored_lasting (by rintro _ ⟨⟩; decide) (by decide), fun sound => ?_⟩
  · have described := sound ⟨0, some (seconds 60 + 2), true⟩ (by decide)
    exact absurd (described.later _ rfl) (by decide)
  · have described := sound ⟨-1 / 10, some (hours 1), true⟩ (by decide +kernel)
    exact absurd described.share.1 (by decide +kernel)

end MeteredUsage.Quota.NextWindow
