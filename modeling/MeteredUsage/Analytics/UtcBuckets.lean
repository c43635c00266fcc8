import MeteredUsage.Analytics.SeriesRows

/-! UTC hours and days: the key the statement gives an event is that of the bucket whose span holds
it, and of no other, and the buckets of a window follow one another from its start to its end. -/

namespace MeteredUsage.Analytics.UtcBuckets
open MeteredUsage.Values MeteredUsage.Store.Schema MeteredUsage.Codec MeteredUsage.Analytics.Filter
open MeteredUsage.Library.Calendar MeteredUsage.Library.FixedWidth MeteredUsage.Library.Reading
open MeteredUsage.Analytics.Series MeteredUsage.Analytics.Shift

/-- How long each bucket is, in UTC. -/
inductive StepInput where
  | hour
  | day
deriving DecidableEq

def StepInput.bucket : StepInput → Bucket
  | .hour => .hour
  | .day => .day

/-- What the libraries of dates answer in UTC: a local time is its instant, and the text of a second of
the years 0 to 9999 is cut after its hour or its day. -/
structure InUtc (dates : Dates) : Prop where
  civil : ∀ instant, firstInstant ≤ instant → instant ≤ lastInstant →
    dates.toTimestamp .utc instant = some instant
  hour : ∀ second, FourDigits second → dates.strftime "%Y-%m-%dT%H" (String.ofList (dateTime second))
    [modifier 0] = some (String.ofList ((dateTime second).take 13))
  day : ∀ second, FourDigits second → dates.date (String.ofList (dateTime second)) [modifier 0] =
    some (String.ofList ((dateTime second).take 10))

section Texts

/-- The seconds of a bucket. -/
def StepInput.span : StepInput → Int
  | .hour => 3600
  | .day => 86400

/-- The text of a second up to its day. -/
def dayText (second : Int) : List Char :=
  yearText (yearAt second) ++ '-' :: monthDay (isLeap (yearAt second)) (ordinalAt second)

/-- The text of a second up to its hour or its day. -/
def StepInput.text (second : Int) : StepInput → List Char
  | .hour => dayText second ++ 'T' :: padded 2 (timeAt second / 3600)
  | .day => dayText second

/-- What follows that text. -/
def StepInput.mark : StepInput → Char
  | .hour => ':'
  | .day => 'T'

theorem mem_padded_le {width number : Nat} {symbol : Char} (member : symbol ∈ padded width number) :
    symbol ≤ '9' := by
  have digits : ∀ digit < 10, Nat.digitChar digit ≤ '9' := by decide
  induction width generalizing number with
  | zero => cases member
  | succ width ih =>
    rcases List.mem_append.mp member with earlier | last
    · exact ih earlier
    · rw [List.mem_singleton.mp last]
      exact digits _ (Nat.mod_lt number (by decide))

theorem mem_dayText_le {second : Int} {symbol : Char} (member : symbol ∈ dayText second) : symbol ≤ '9' := by
  have dash : '-' ≤ '9' := by decide
  unfold dayText yearText monthDay at member
  rcases List.mem_append.mp member with year | rest
  · split at year
    next => exact mem_padded_le year
    next =>
      rcases List.mem_cons.mp year with rfl | digits
      · exact dash
      · exact mem_padded_le digits
  · rcases List.mem_cons.mp rest with rfl | rest
    · exact dash
    · rcases List.mem_append.mp rest with month | day
      · rcases List.mem_append.mp month with digits | mark
        · exact mem_padded_le digits
        · rw [List.mem_singleton.mp mark]
          exact dash
      · exact mem_padded_le day

theorem mark_notMem_text (step : StepInput) (second : Int) : step.mark ∉ step.text second := by
  intro member
  cases step with
  | day => exact absurd (mem_dayText_le member) (by decide)
  | hour =>
    rcases List.mem_append.mp member with day | hour
    · exact absurd (mem_dayText_le day) (by decide)
    · rcases List.mem_cons.mp hour with mark | digits
      · exact absurd mark (by decide)
      · exact absurd (mem_padded_le digits) (by decide)

/-- The text of a second goes on after its hour or its day. -/
theorem dateTime_eq (step : StepInput) (second : Int) :
    ∃ rest, dateTime second = step.text second ++ step.mark :: rest := by
  cases step with
  | day =>
    refine ⟨timeOfDay (timeAt second), ?_⟩
    simp only [dateTime, withinYear, StepInput.text, StepInput.mark, dayText, List.append_assoc,
      List.cons_append, List.nil_append]
  | hour =>
    refine ⟨padded 2 (timeAt second / 60 % 60) ++ [':'] ++ padded 2 (timeAt second % 60), ?_⟩
    simp only [dateTime, withinYear, timeOfDay, StepInput.text, StepInput.mark, dayText,
      List.append_assoc, List.cons_append, List.nil_append]

theorem takeWhile_dateTime (step : StepInput) (second : Int) :
    (dateTime second).takeWhile (· ≠ step.mark) = step.text second := by
  obtain ⟨rest, text⟩ := dateTime_eq step second
  rw [text, List.takeWhile_append_of_pos, List.takeWhile_cons_of_neg (by simp), List.append_nil]
  intro symbol member
  simpa using fun same : symbol = step.mark => mark_notMem_text step second (same ▸ member)

theorem length_dayText {second : Int} (dated : FourDigits second) : (dayText second).length = 10 := by
  unfold dayText yearText monthDay
  rw [if_pos dated.1]
  simp only [List.length_append, List.length_cons, List.length_nil, length_padded]

theorem key_eq (step : StepInput) (civil : Int) :
    step.bucket.key civil = String.ofList (step.text (civil / seconds 1)) := by
  cases step with
  | hour => exact congrArg String.ofList (takeWhile_dateTime .hour (civil / seconds 1))
  | day => exact congrArg String.ofList (takeWhile_dateTime .day (civil / seconds 1))

theorem text_floor (step : StepInput) (second : Int) :
    step.text (second / step.span * step.span) = step.text second := by
  cases step with
  | day =>
    have day : second / 86400 * 86400 / daySeconds = second / daySeconds := by
      unfold daySeconds
      omega
    unfold StepInput.text StepInput.span dayText yearAt ordinalAt
    rw [day]
  | hour =>
    have day : second / 3600 * 3600 / daySeconds = second / daySeconds := by
      unfold daySeconds
      omega
    have hour : timeAt (second / 3600 * 3600) / 3600 = timeAt second / 3600 := by
      unfold timeAt daySeconds
      omega
    unfold StepInput.text StepInput.span dayText yearAt ordinalAt
    rw [hour]
    simp only [day]

/-- The first second of a bucket is written with zeros after its text. -/
theorem dateTime_floor (step : StepInput) (second : Int) :
    dateTime (second / step.span * step.span) = step.text second ++
      match step with
      | .hour => [':', '0', '0', ':', '0', '0']
      | .day => ['T', '0', '0', ':', '0', '0', ':', '0', '0'] := by
  rw [← text_floor step second]
  have zeros : padded 2 0 = ['0', '0'] := by decide
  cases step with
  | day =>
    have midnight : timeAt (second / 86400 * 86400) = 0 := by
      unfold timeAt daySeconds
      omega
    simp only [dateTime, withinYear, timeOfDay, StepInput.text, StepInput.span, dayText, midnight,
      List.append_assoc, List.cons_append, List.nil_append, Nat.zero_div, Nat.zero_mod, zeros]
  | hour =>
    have minute : timeAt (second / 3600 * 3600) / 60 % 60 = 0 := by
      unfold timeAt daySeconds
      omega
    have last : timeAt (second / 3600 * 3600) % 60 = 0 := by
      unfold timeAt daySeconds
      omega
    simp only [dateTime, withinYear, timeOfDay, StepInput.text, StepInput.span, dayText, minute, last,
      List.append_assoc, List.cons_append, List.nil_append, zeros]

theorem fourDigits_floor (step : StepInput) {second : Int} (dated : FourDigits second) :
    FourDigits (second / step.span * step.span) := by
  have day : second / step.span * step.span / daySeconds = second / daySeconds := by
    unfold daySeconds
    cases step <;> dsimp only [StepInput.span] <;> omega
  unfold FourDigits yearAt at dated ⊢
  rwa [day]

/-- A year before the year 0 begins with a sign, which no other year does. -/
theorem fourDigits_of_text {first second : Int} (dated : FourDigits first) (step : StepInput)
    (before : yearAt second < 10000) (same : step.text first = step.text second) : FourDigits second := by
  refine ⟨?_, before⟩
  by_contra sign
  have heads : (dayText first).head? = (dayText second).head? := by
    have filled (second : Int) : (step.text second).head? = (dayText second).head? := by
      cases step with
      | day => rfl
      | hour =>
        have some_digit : (dayText second).head?.isSome = true := by
          unfold dayText
          rw [List.head?_append]
          cases (yearText (yearAt second)).head? <;> rfl
        rw [StepInput.text, List.head?_append, Option.or_of_isSome some_digit]
    rw [← filled, ← filled, same]
  obtain ⟨digit, below, more, text⟩ := yearText_of_nonneg dated.1
    ('-' :: monthDay (isLeap (yearAt first)) (ordinalAt first))
  unfold dayText at heads
  rw [text, yearText, if_neg sign] at heads
  have signed : Nat.digitChar digit = '-' := Option.some.inj heads
  exact (sign_lt_digit below).ne signed.symm

theorem floor_of_text {first second : Int} (dated : FourDigits first) (step : StepInput)
    (before : yearAt second < 10000) (same : step.text first = step.text second) :
    first / step.span * step.span = second / step.span * step.span := by
  have other := fourDigits_of_text dated step before same
  have read := readDateTime_dateTime (fourDigits_floor step dated)
  have texts : dateTime (first / step.span * step.span) = dateTime (second / step.span * step.span) := by
    rw [dateTime_floor, dateTime_floor, same]
  rw [texts, readDateTime_dateTime (fourDigits_floor step other)] at read
  exact (Option.some.inj read).symm

end Texts

section Instants
variable {dates : Dates} {step : StepInput}

theorem floor_eq (step : StepInput) (civil : Int) :
    step.bucket.floor civil = civil / step.bucket.length * step.bucket.length := by
  cases step <;> rfl

theorem length_eq (step : StepInput) : step.bucket.length = step.span * 1000000000 := by
  cases step <;> rfl

theorem floor_seconds (step : StepInput) (instant : Int) :
    step.bucket.floor instant / seconds 1 = secondOf instant / step.span * step.span := by
  rw [floor_eq, length_eq]
  unfold secondOf
  cases step <;> dsimp only [StepInput.span, seconds] <;> omega

/-- Two instants are of one bucket where their seconds are. -/
theorem floor_eq_iff (step : StepInput) (first second : Int) :
    step.bucket.floor first = step.bucket.floor second ↔
      secondOf first / step.span * step.span = secondOf second / step.span * step.span := by
  rw [floor_eq, floor_eq, length_eq]
  unfold secondOf
  cases step <;> dsimp only [StepInput.span] <;> omega

theorem take_stored {instant : Timestamp} (dated : Printable instant) :
    (stored instant).toList.take 19 = dateTime (secondOf instant) := by
  have width : (dateTime (secondOf instant)).length = 19 := sorts_dateTime.length ⟨_, dated⟩
  unfold stored
  rw [String.toList_ofList, List.append_assoc, List.append_assoc, List.take_left' width]

/-- The statement gives an event the key of the bucket that holds it. -/
theorem expression_eq (utc : InUtc dates) (step : StepInput) {event : UsageEvent}
    (dated : Printable event.occurredAt) :
    step.bucket.expression dates ⟨[], 0⟩ event =
      some (step.bucket.key (step.bucket.floor event.occurredAt)) := by
  have written := take_stored dated
  rw [key_eq, floor_seconds, text_floor]
  obtain ⟨rest, text⟩ := dateTime_eq step (secondOf event.occurredAt)
  have day : (StepInput.text (secondOf event.occurredAt) .day).length = 10 := length_dayText dated
  cases step with
  | day =>
    change dates.date (String.ofList ((stored event.occurredAt).toList.take 19)) [modifier 0] = _
    rw [written, utc.day _ dated, text, List.take_left' day]
  | hour =>
    have hour : (StepInput.text (secondOf event.occurredAt) .hour).length = 13 := by
      unfold StepInput.text
      rw [List.length_append, length_dayText dated, List.length_cons, length_padded]
    change dates.strftime "%Y-%m-%dT%H" (String.ofList ((stored event.occurredAt).toList.take 19)) [modifier 0] = _
    rw [written, utc.hour _ dated, text, List.take_left' hour]

theorem key_inj {first second : Int} (dated : Printable first) (before : yearOfInstant second < 10000) :
    step.bucket.key (step.bucket.floor first) = step.bucket.key (step.bucket.floor second) ↔
      step.bucket.floor first = step.bucket.floor second := by
  refine ⟨fun same => ?_, fun same => by rw [same]⟩
  rw [key_eq, key_eq, floor_seconds, floor_seconds, text_floor, text_floor] at same
  have texts := congrArg String.toList same
  rw [String.toList_ofList, String.toList_ofList] at texts
  exact (floor_eq_iff step first second).mpr (floor_of_text dated step before texts)

theorem floor_le (step : StepInput) (instant : Int) : step.bucket.floor instant ≤ instant := by
  rw [floor_eq, length_eq]
  cases step <;> dsimp only [StepInput.span] <;> omega

/-- The buckets that overlap a window. -/
def overlapping (step : StepInput) (start finish : Int) : Nat :=
  ((finish - step.bucket.floor start + step.bucket.length - 1) / step.bucket.length).toNat

/-- Where a bucket of a window starts. -/
def startOf (step : StepInput) (start : Int) (index : Nat) : Int :=
  step.bucket.floor start + index * step.bucket.length

theorem startOf_lt_iff {start finish : Int} {index : Nat} :
    startOf step start index < finish ↔ index < overlapping step start finish := by
  unfold startOf overlapping
  rw [length_eq]
  cases step <;> dsimp only [StepInput.span] <;> omega

theorem floor_startOf (step : StepInput) (start : Int) (index : Nat) :
    step.bucket.floor (startOf step start index) = startOf step start index := by
  unfold startOf
  rw [floor_eq, floor_eq, length_eq]
  cases step <;> dsimp only [StepInput.span] <;> omega

theorem firstInstant_utc (utc : InUtc dates) {civil : Int} (whole : step.bucket.floor civil = civil)
    (first : firstInstant ≤ civil) (last : civil ≤ lastInstant) :
    step.bucket.firstInstant dates civil .utc = .ok (some civil) := by
  have inside : step.bucket.floor (toDatetime .utc civil) = civil := by
    have local_eq : toDatetime .utc civil = civil := Int.add_zero civil
    rw [local_eq, whole]
  unfold Bucket.firstInstant
  rw [utc.civil civil first last]
  dsimp only
  rw [if_pos (decide_eq_true inside)]

/-- The first buckets of a window. -/
def bucketsUpTo (step : StepInput) (start : Int) (count : Nat) : List BucketStart :=
  (List.range count).map fun index => ⟨step.bucket.key (startOf step start index), startOf step start index⟩

theorem startOf_succ (step : StepInput) (start : Int) (index : Nat) :
    startOf step start index + step.bucket.length = startOf step start (index + 1) := by
  unfold startOf
  push_cast
  rw [add_mul, one_mul, add_assoc]

theorem le_startOf (step : StepInput) (start : Int) (index : Nat) :
    step.bucket.floor start ≤ startOf step start index := by
  have positive := mul_nonneg (Int.natCast_nonneg index) step.bucket.length_pos.le
  unfold startOf
  omega

/-- A bucket of the window is listed after those before it, unless there are too many. -/
theorem startsFrom_step (utc : InUtc dates) {start finish : Int} (first : firstInstant ≤ step.bucket.floor start)
    (held : finish ≤ lastInstant) {done left : Nat} (inside : done < overlapping step start finish) :
    step.bucket.startsFrom dates finish .utc (left + 1) (startOf step start done) (bucketsUpTo step start done) =
      if done = maxBuckets then .error .tooManyBuckets
      else step.bucket.startsFrom dates finish .utc left (startOf step start (done + 1))
        (bucketsUpTo step start (done + 1)) := by
  have early : startOf step start done < finish := startOf_lt_iff.mpr inside
  have counts : (bucketsUpTo step start done).length = done := by
    unfold bucketsUpTo
    rw [List.length_map, List.length_range]
  have grown : bucketsUpTo step start done ++
      [⟨step.bucket.key (startOf step start done), startOf step start done⟩] =
        bucketsUpTo step start (done + 1) := by
    unfold bucketsUpTo
    rw [List.range_succ, List.map_append, List.map_singleton]
  rw [Bucket.startsFrom, firstInstant_utc utc (floor_startOf step start done)
    (first.trans (le_startOf step start done)) (early.le.trans held)]
  dsimp only
  rw [if_neg (not_le.mpr early), counts, startOf_succ, grown]

/-- The buckets found so far, and those to come until one starts past the window. -/
theorem startsFrom_utc (utc : InUtc dates) {start finish : Int} (first : firstInstant ≤ step.bucket.floor start)
    (held : finish ≤ lastInstant) (last : startOf step start (overlapping step start finish) ≤ lastInstant)
    (few : overlapping step start finish ≤ maxBuckets) {more done left : Nat}
    (counted : done + more = overlapping step start finish) (room : more < left) :
    step.bucket.startsFrom dates finish .utc left (startOf step start done) (bucketsUpTo step start done) =
      .ok (bucketsUpTo step start (overlapping step start finish)) := by
  induction more generalizing done left with
  | zero =>
    obtain ⟨left, rfl⟩ := Nat.exists_eq_succ_of_ne_zero (Nat.ne_of_gt room)
    obtain rfl : done = overlapping step start finish := counted
    have past : finish ≤ startOf step start (overlapping step start finish) :=
      not_lt.mp (mt startOf_lt_iff.mp (lt_irrefl _))
    rw [Bucket.startsFrom, firstInstant_utc utc (floor_startOf step start _)
      (first.trans (le_startOf step start _)) last]
    dsimp only
    rw [if_pos past]
  | succ more ih =>
    obtain ⟨left, rfl⟩ := Nat.exists_eq_succ_of_ne_zero (Nat.ne_of_gt (Nat.lt_of_le_of_lt (Nat.zero_le _) room))
    have inside : done < overlapping step start finish := by omega
    rw [startsFrom_step utc first held inside, if_neg (by omega)]
    exact ih (by omega) (by omega)

/-- One bucket more than the limit is too many, wherever the window ends. -/
theorem startsFrom_refused (utc : InUtc dates) {start finish : Int} (first : firstInstant ≤ step.bucket.floor start)
    (held : finish ≤ lastInstant) (many : maxBuckets < overlapping step start finish) {more done left : Nat}
    (counted : done + more = maxBuckets) (room : more < left) :
    step.bucket.startsFrom dates finish .utc left (startOf step start done) (bucketsUpTo step start done) =
      .error .tooManyBuckets := by
  induction more generalizing done left with
  | zero =>
    obtain ⟨left, rfl⟩ := Nat.exists_eq_succ_of_ne_zero (Nat.ne_of_gt room)
    rw [startsFrom_step utc first held (by omega), if_pos (by omega)]
  | succ more ih =>
    obtain ⟨left, rfl⟩ := Nat.exists_eq_succ_of_ne_zero (Nat.ne_of_gt (Nat.lt_of_le_of_lt (Nat.zero_le _) room))
    rw [startsFrom_step utc first held (by omega), if_neg (by omega)]
    exact ih (by omega) (by omega)

theorem lt_tries {start : Int} {count : Nat} (last : startOf step start count ≤ lastInstant) :
    count < ((lastCivil - step.bucket.floor start) / step.bucket.length + 1).toNat := by
  unfold startOf at last
  unfold lastInstant at last
  unfold lastCivil
  rw [length_eq] at last ⊢
  cases step <;> dsimp only [StepInput.span] at last ⊢ <;> omega

/-- Every bucket that overlaps a window, in order, unless there are too many. -/
theorem starts_utc (utc : InUtc dates) {start finish : Int} (first : firstInstant ≤ step.bucket.floor start)
    (held : finish ≤ lastInstant) (last : startOf step start (overlapping step start finish) ≤ lastInstant) :
    step.bucket.starts dates start finish .utc =
      if overlapping step start finish ≤ maxBuckets then .ok (bucketsUpTo step start (overlapping step start finish))
      else .error .tooManyBuckets := by
  have local_eq : toDatetime .utc start = start := Int.add_zero start
  have begins : step.bucket.floor start = startOf step start 0 := by
    unfold startOf
    simp
  have tries := lt_tries last
  have started : step.bucket.starts dates start finish .utc = step.bucket.startsFrom dates finish .utc
      ((lastCivil - step.bucket.floor start) / step.bucket.length + 1).toNat (startOf step start 0)
        (bucketsUpTo step start 0) := by
    unfold Bucket.starts
    rw [local_eq, ← begins]
    rfl
  rw [started]
  split
  next few => exact startsFrom_utc utc first held last few (Nat.zero_add _) tries
  next many =>
    have early : startOf step start maxBuckets < finish := startOf_lt_iff.mpr (not_le.mp many)
    exact startsFrom_refused utc first held (not_le.mp many) (Nat.zero_add _) (lt_tries (early.le.trans held))

end Instants

end MeteredUsage.Analytics.UtcBuckets
