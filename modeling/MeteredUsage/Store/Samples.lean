import MeteredUsage.Billing.Periods
import MeteredUsage.Store.Windows

/-! When two reports of a window teach the median once. A sample is kept under the start of its
window, rounded to a minute so that jitter does not split it; two starts a moment apart still round
to two minutes where a half minute lies between them. -/

namespace MeteredUsage.Store.Samples
open MeteredUsage.Values MeteredUsage.Store.Schema MeteredUsage.Store.Windows
open MeteredUsage.Billing.Periods (isTimestamp)
open MeteredUsage.Library.Transaction

/-- The samples after a report. -/
def recorded (runtime : Sql.Runtime) (id : AccountId) (window : NewWindow) (observedAt : Timestamp)
    (tables : Tables) : Tables :=
  ((window.sample runtime id observedAt).map (upsertSample · tables)).getD tables

/-- The primary key of `quota_sample`. -/
def keyOf (sample : QuotaSample) : AccountId × String × Timestamp :=
  (sample.accountId, sample.windowKey, sample.startedAt)

/-- Both reports are kept, and the second under the row of the first. -/
structure KeptTogether (runtime : Sql.Runtime) (id : AccountId) (first second : NewWindow) : Prop where
  kept : ∀ observedAt, (first.sample runtime id observedAt).isSome ∧
    (second.sample runtime id observedAt).isSome
  once : ∀ earlier later tables,
    (recorded runtime id second later (recorded runtime id first earlier tables)).samples.map keyOf =
      (recorded runtime id first earlier tables).samples.map keyOf

/-- The start a report states of its window. -/
def startOf (window : NewWindow) : Option Timestamp := do
  let resetsAt ← window.resetsAt
  let windowSeconds ← window.windowSeconds
  some (resetsAt - seconds windowSeconds)

/-- Half past a minute, counted from the epoch. -/
def half (minute : Int) : Int := minutes minute + seconds 30

/-- A half minute separates the instants. One that is exactly half past is rounded away from the
epoch. -/
def Parted (first second : Timestamp) : Prop :=
  ∃ minute, if 0 ≤ minute then min first second < half minute ∧ half minute ≤ max first second
    else min first second ≤ half minute ∧ half minute < max first second

/-- The report states a share used and a start that can be told, and is not counted in requests. -/
def Teaches (window : NewWindow) : Prop :=
  window.unit ≠ some requests ∧ window.usedFraction.isSome ∧
    (startOf window).any isTimestamp = true

/-- An instant is rounded up to a minute's end from the half minute on. -/
theorem le_roundMinute_iff (instant minute : Int) :
    minutes (minute + 1) ≤ roundMinute instant ↔
      if 0 ≤ minute then half minute ≤ instant else half minute < instant := by
  simp only [roundMinute, half, minutes, seconds, Timestamp]
  split <;> split <;> constructor <;> intro order <;> omega

theorem roundMinute_whole (instant : Timestamp) : ∃ minute, roundMinute instant = minutes minute := by
  simp only [roundMinute]
  split
  next => exact ⟨(instant + minutes 1 / 2) / minutes 1, by simp only [minutes, seconds, Timestamp]; omega⟩
  next => exact ⟨-((-instant + minutes 1 / 2) / minutes 1), by simp only [minutes, seconds, Timestamp]; omega⟩

theorem roundMinute_mono {first second : Timestamp} (order : first ≤ second) :
    roundMinute first ≤ roundMinute second := by
  obtain ⟨minute, whole⟩ := roundMinute_whole first
  have reached := (le_roundMinute_iff first (minute - 1)).mp (by rw [whole, sub_add_cancel])
  rw [whole, ← sub_add_cancel minute 1]
  apply (le_roundMinute_iff second (minute - 1)).mpr
  split
  next early =>
    rw [if_pos early] at reached
    exact reached.trans order
  next late =>
    rw [if_neg late] at reached
    exact lt_of_lt_of_le reached order

theorem minutes_lt_iff {first second : Int} : minutes first < minutes second ↔ first < second := by
  simp only [minutes, seconds]
  omega

/-- Of two instants in order, the later one rounds further exactly where a half minute lies between
them. -/
theorem roundMinute_lt_iff {first second : Timestamp} (order : first ≤ second) :
    roundMinute first < roundMinute second ↔ Parted first second := by
  unfold Parted
  rw [min_eq_left order, max_eq_right order]
  obtain ⟨minute, whole⟩ := roundMinute_whole first
  constructor
  · intro further
    obtain ⟨later, wholeLater⟩ := roundMinute_whole second
    rw [whole, wholeLater, minutes_lt_iff] at further
    have before := (le_roundMinute_iff first minute).not.mp (by
      rw [whole, not_le, minutes_lt_iff]
      omega)
    have after := (le_roundMinute_iff second minute).mp (by
      rw [wholeLater, ← not_lt, minutes_lt_iff]
      omega)
    refine ⟨minute, ?_⟩
    split
    next early =>
      rw [if_pos early] at before after
      exact ⟨not_le.mp before, after⟩
    next late =>
      rw [if_neg late] at before after
      exact ⟨not_lt.mp before, after⟩
  · rintro ⟨between, parts⟩
    have before : ¬minutes (between + 1) ≤ roundMinute first := by
      rw [le_roundMinute_iff]
      split at parts
      next early =>
        rw [if_pos early]
        exact not_le.mpr parts.1
      next late =>
        rw [if_neg late]
        exact not_lt.mpr parts.1
    have after : minutes (between + 1) ≤ roundMinute second := by
      rw [le_roundMinute_iff]
      split at parts
      next early =>
        rw [if_pos early]
        exact parts.2
      next late =>
        rw [if_neg late]
        exact parts.2
    exact (not_le.mp before).trans_le after

theorem parted_comm {first second : Timestamp} : Parted first second ↔ Parted second first := by
  unfold Parted
  rw [min_comm, max_comm]

theorem roundMinute_eq_iff (first second : Timestamp) :
    roundMinute first = roundMinute second ↔ ¬Parted first second := by
  rcases le_total first second with order | order
  · rw [← roundMinute_lt_iff order, not_lt, le_antisymm_iff, and_iff_right (roundMinute_mono order)]
  · rw [parted_comm, ← roundMinute_lt_iff order, not_lt, le_antisymm_iff,
      and_iff_left (roundMinute_mono order)]

/-- The first and the last instant are no half minute short of a whole one. -/
theorem isTimestamp_roundMinute {instant : Timestamp} (representable : isTimestamp instant = true) :
    isTimestamp (roundMinute instant) = true := by
  simp only [isTimestamp, Bool.and_eq_true, decide_eq_true_eq] at representable ⊢
  unfold firstInstant lastInstant at *
  simp only [roundMinute, minutes, seconds, Timestamp] at representable ⊢
  split <;> omega

variable {runtime : Sql.Runtime} {id : AccountId} {first second window : NewWindow}

/-- The instants of the runtime are those of `Timestamp`. -/
def KnowsInstants (runtime : Sql.Runtime) : Prop :=
  ∀ instant, runtime.isTimestamp instant = isTimestamp instant

/-- A report that teaches is kept under the start it states, rounded to a minute. -/
theorem sample_of_teaches (knows : KnowsInstants runtime) (teaches : Teaches window)
    (observedAt : Timestamp) : ∃ start fraction, startOf window = some start ∧
      window.sample runtime id observedAt =
        some ⟨id, window.key, roundMinute start, observedAt, fraction⟩ := by
  obtain ⟨metered, stated, told⟩ := teaches
  obtain ⟨used, fraction⟩ := Option.isSome_iff_exists.mp stated
  obtain ⟨start, starts, representable⟩ := (Option.any_eq_true _ _).mp told
  obtain ⟨resetsAt, reset, lasts⟩ := Option.bind_eq_some_iff.mp starts
  obtain ⟨windowSeconds, length, same⟩ := Option.bind_eq_some_iff.mp lasts
  cases same
  refine ⟨_, used.clamp .zero .one, starts, ?_⟩
  unfold NewWindow.sample
  rw [if_neg metered, fraction, reset, length]
  have whole : (runtime.isTimestamp (resetsAt - seconds windowSeconds) &&
      runtime.isTimestamp (roundMinute (resetsAt - seconds windowSeconds))) = true := by
    rw [knows, knows, representable, isTimestamp_roundMinute representable]
    rfl
  exact if_pos whole

theorem teaches_of_sample (knows : KnowsInstants runtime) {observedAt : Timestamp}
    (kept : (window.sample runtime id observedAt).isSome) : Teaches window := by
  obtain ⟨row, taught⟩ := Option.isSome_iff_exists.mp kept
  unfold NewWindow.sample at taught
  split at taught
  next => cases taught
  next metered =>
    obtain ⟨used, fraction, later⟩ := Option.bind_eq_some_iff.mp taught
    obtain ⟨resetsAt, reset, later⟩ := Option.bind_eq_some_iff.mp later
    obtain ⟨windowSeconds, length, later⟩ := Option.bind_eq_some_iff.mp later
    simp only at later
    split at later
    next whole =>
      refine ⟨metered, fraction ▸ rfl, ?_⟩
      rw [Bool.and_eq_true, knows] at whole
      unfold startOf
      rw [reset, length]
      exact whole.1
    next => cases later

theorem keys_upsertSample (row : QuotaSample) (tables : Tables) :
    (upsertSample row tables).samples.map keyOf =
      if keyOf row ∈ tables.samples.map keyOf then tables.samples.map keyOf
      else tables.samples.map keyOf ++ [keyOf row] := by
  have named (stored : QuotaSample) : (stored.accountId = row.accountId && stored.windowKey = row.windowKey &&
      stored.startedAt = row.startedAt) = true ↔ keyOf stored = keyOf row := by
    simp [keyOf, and_assoc]
  have known : (tables.samples.any fun stored => stored.accountId = row.accountId &&
      stored.windowKey = row.windowKey && stored.startedAt = row.startedAt) = true ↔
        keyOf row ∈ tables.samples.map keyOf := by
    rw [List.any_eq_true, List.mem_map]
    exact exists_congr fun stored => and_congr_right fun _ => named stored
  unfold upsertSample
  simp only
  by_cases stored : keyOf row ∈ tables.samples.map keyOf
  · rw [if_pos (known.mpr stored), if_pos stored, List.map_map]
    apply List.map_congr_left
    intro sample _
    simp only [Function.comp_apply]
    split
    next same => exact ((named sample).mp same).symm
    next => rfl
  · rw [if_neg (known.not.mpr stored), if_neg stored, List.map_append]
    rfl

theorem keyOf_mem_upsertSample (row : QuotaSample) (tables : Tables) :
    keyOf row ∈ (upsertSample row tables).samples.map keyOf := by
  rw [keys_upsertSample]
  split
  next stored => exact stored
  next => exact List.mem_append_right _ List.mem_cons_self

theorem recorded_of_sample {observedAt : Timestamp} {row : QuotaSample}
    (taught : window.sample runtime id observedAt = some row) (tables : Tables) :
    recorded runtime id window observedAt tables = upsertSample row tables := by
  unfold recorded
  rw [taught]
  rfl

theorem holds_recordSample (window : NewWindow) (observedAt : Timestamp) (base : Tables) :
    Holds (fun tables => tables = base) (recordSample runtime id window observedAt)
      fun _ tables => tables = recorded runtime id window observedAt base := by
  unfold recordSample recorded
  cases window.sample runtime id observedAt with
  | none => exact Holds.pure fun _ same => same
  | some row => exact Holds.update fun _ same => congrArg (upsertSample row) same

/-- Two reports of a window are kept under one row exactly where both teach and no half minute lies
between the starts they state. -/
theorem keptTogether_iff (knows : KnowsInstants runtime) (id : AccountId)
    (sameKey : first.key = second.key) :
    KeptTogether runtime id first second ↔ Teaches first ∧ Teaches second ∧
      ∀ one two, startOf first = some one → startOf second = some two → ¬Parted one two := by
  constructor
  · intro together
    have teaches := teaches_of_sample knows (together.kept 0).1
    have also := teaches_of_sample knows (together.kept 0).2
    refine ⟨teaches, also, fun one two starts begins => ?_⟩
    obtain ⟨start, share, stated, taught⟩ := @sample_of_teaches runtime id first knows teaches 0
    obtain ⟨other, part, told, learned⟩ := @sample_of_teaches runtime id second knows also 0
    obtain rfl := Option.some.inj (starts.symm.trans stated)
    obtain rfl := Option.some.inj (begins.symm.trans told)
    have once := together.once 0 0 Tables.empty
    rw [recorded_of_sample learned, recorded_of_sample taught, keys_upsertSample, keys_upsertSample] at once
    rw [← roundMinute_eq_iff]
    by_contra apart
    have fresh : keyOf ⟨id, second.key, roundMinute two, 0, part⟩ ∉
        [keyOf ⟨id, first.key, roundMinute one, 0, share⟩] := by
      rw [List.mem_singleton]
      exact fun same => apart (congrArg (·.2.2) same).symm
    simp [Tables.empty, fresh] at once
  · rintro ⟨teaches, also, close⟩
    refine ⟨fun observedAt => ?_, fun earlier later tables => ?_⟩
    · obtain ⟨_, _, _, taught⟩ := @sample_of_teaches runtime id first knows teaches observedAt
      obtain ⟨_, _, _, learned⟩ := @sample_of_teaches runtime id second knows also observedAt
      rw [taught, learned]
      exact ⟨rfl, rfl⟩
    · obtain ⟨one, share, starts, taught⟩ := @sample_of_teaches runtime id first knows teaches earlier
      obtain ⟨two, part, begins, learned⟩ := @sample_of_teaches runtime id second knows also later
      have same : roundMinute one = roundMinute two :=
        (roundMinute_eq_iff one two).mpr (close one two starts begins)
      rw [recorded_of_sample learned, recorded_of_sample taught, keys_upsertSample, if_pos]
      have stored := keyOf_mem_upsertSample ⟨id, first.key, roundMinute one, earlier, share⟩ tables
      unfold keyOf at stored ⊢
      rw [← sameKey, ← same]
      exact stored

/-- A runtime that knows every instant of `Timestamp`. -/
def knowing : Sql.Runtime := { Sql.Runtime.inert with isTimestamp := isTimestamp }

/-- A report of an hourly window that is used up, by its reset. -/
def hourly (resetsAt : Timestamp) : NewWindow where
  key := "five-hour"
  label := "5-hour"
  usedFraction := some .one
  usedValue := none
  limitValue := none
  unit := none
  windowSeconds := some 3600
  resetsAt := some resetsAt
  scope := .account
  startsOnUse := false

theorem hourly_kept_together : KeptTogether knowing 1 (hourly (seconds 7200)) (hourly (seconds 7205)) := by
  have knows : KnowsInstants knowing := fun _ => rfl
  have sameKey : (hourly (seconds 7200)).key = (hourly (seconds 7205)).key := rfl
  refine (keptTogether_iff knows 1 sameKey).mpr ⟨?_, ?_, ?_⟩
  · exact ⟨nofun, rfl, by decide⟩
  · exact ⟨nofun, rfl, by decide⟩
  · rintro _ _ ⟨⟩ ⟨⟩
    rw [← roundMinute_eq_iff]
    decide

/-- Half a minute past the hour and a second before it. -/
theorem hourly_split : ¬KeptTogether knowing 1 (hourly (seconds 7229)) (hourly (seconds 7230)) := by
  intro together
  have once := together.once 0 0 Tables.empty
  revert once
  decide

end MeteredUsage.Store.Samples
