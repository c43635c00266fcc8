import MeteredUsage.Analytics.HealthBuckets

/-! A poll counts every request of its window once, in the bucket that holds it, and two polls agree
about a bucket they share. -/

namespace MeteredUsage.Analytics.Polls
open MeteredUsage.Values MeteredUsage.Store.Schema MeteredUsage.Codec MeteredUsage.Analytics.Filter
open MeteredUsage.Analytics.Shift MeteredUsage.Analytics.HealthBuckets MeteredUsage.Library.Calendar
open MeteredUsage.Library.Outcome (mapM_ok)

def lengthOf (window : HealthWindow) : Int := window.bucketSeconds * 1000000000

/-- The second a window that ends with the bucket of a second starts at. -/
def startOf (window : HealthWindow) (second : Int) : Int :=
  endOf window second - window.bucketSeconds * window.buckets

/-- The window of an instant lies within the years 0 to 9999 that `Timestamp` can hold, and the instant is
not one before 1970 whose fraction, dropped towards the epoch, makes it one of the next bucket. -/
structure Suits (window : HealthWindow) (now : Timestamp) : Prop where
  fits : endOf window (asSecond now) ≤ lastSecond
  begins : 0 ≤ yearAt (startOf window (asSecond now))
  settled : 0 ≤ now ∨ now % 1000000000 = 0 ∨ (secondOf now + 1) % window.bucketSeconds ≠ 0

def ofAccount (sourceIds : List SourceId) (id : AccountId) (event : UsageEvent) : Bool :=
  admits sourceIds event.sourceId && event.accountId = id

/-- What the buckets of an answer say of the stored events. -/
structure Placed (tables : Tables) (window : HealthWindow) (now : Timestamp) (sourceIds : List SourceId)
    (accountIds : List AccountId) (answer : Health) : Prop where
  once : (answer.accounts.map AccountHealth.accountId).Nodup
  consecutive : ∀ account ∈ answer.accounts, account.buckets.map HealthBucket.start =
    (List.range window.buckets).map fun index : Nat => answer.bucketsStart + (index : Int) * lengthOf window
  aligned : lengthOf window ∣ answer.bucketsStart
  holdsNow : answer.bucketsStart + (window.buckets - 1) * lengthOf window ≤ now ∧
    now < answer.bucketsStart + window.buckets * lengthOf window
  /-- A bucket counts the events of its interval and no other. -/
  counts : ∀ account ∈ answer.accounts, ∀ bucket ∈ account.buckets,
    bucket.requests = tally (ofAccount sourceIds account.accountId) tables.events bucket.start
        (bucket.start + lengthOf window) ∧
      bucket.failures = tally (fun event => ofAccount sourceIds account.accountId event && event.failed)
        tables.events bucket.start (bucket.start + lengthOf window)
  /-- Every event of the window is an event of an account of the answer. -/
  reported : ∀ event ∈ tables.events, asked sourceIds accountIds event = true →
    within answer.bucketsStart (answer.bucketsStart + window.buckets * lengthOf window) event.occurredAt = true →
    ∃ account ∈ answer.accounts, account.accountId = event.accountId
  totals : ∀ account ∈ answer.accounts,
    (account.buckets.map HealthBucket.requests).sum = tally (ofAccount sourceIds account.accountId) tables.events
        answer.bucketsStart (answer.bucketsStart + window.buckets * lengthOf window) ∧
      (account.buckets.map HealthBucket.failures).sum =
        tally (fun event => ofAccount sourceIds account.accountId event && event.failed) tables.events
          answer.bucketsStart (answer.bucketsStart + window.buckets * lengthOf window)

variable {tables : Tables} {window : HealthWindow} {now : Timestamp} {sourceIds : List SourceId}
  {accountIds : List AccountId} {event : UsageEvent}

theorem bucketSeconds_pos (window : HealthWindow) : 0 < window.bucketSeconds := by
  have long := window.long
  unfold minWindowMinutes at long
  have positive : window.bucketMinutes ≠ 0 := by
    intro zero
    rw [zero, Nat.zero_mul] at long
    omega
  unfold HealthWindow.bucketSeconds
  omega

theorem yearAt_mono {first second : Int} (before : first ≤ second) : yearAt first ≤ yearAt second := by
  by_contra later
  have apart := (second_lt_iff second first).mpr (.inl (not_le.mp later))
  omega

theorem fourDigits_of {second : Int} (begins : 0 ≤ yearAt second) (fits : second ≤ lastSecond) :
    FourDigits second := by
  have last : yearAt lastSecond = 9999 := by decide
  have later := yearAt_mono fits
  exact ⟨begins, by omega⟩

theorem secondOf_whole (second : Int) : secondOf (second * 1000000000) = second :=
  Int.mul_ediv_cancel _ (by decide)

theorem start_le_end (window : HealthWindow) (second : Int) :
    startOf window second ≤ endOf window second := by
  have positive := bucketSeconds_pos window
  have some_time : 0 ≤ window.bucketSeconds * (window.buckets : Int) :=
    Int.mul_nonneg positive.le (Int.natCast_nonneg _)
  unfold startOf
  omega

/-- The bucket of the second an instant is cut to is the one of the second it is in. -/
theorem Suits.endOf_eq (suits : Suits window now) :
    endOf window (asSecond now) = endOf window (secondOf now) := by
  have positive := bucketSeconds_pos window
  have cut : asSecond now = secondOf now + if 0 ≤ now ∨ 1000000000 ∣ now then 0 else 1 := Int.tdiv_eq_ediv
  by_cases exact : 0 ≤ now ∨ 1000000000 ∣ now
  · rw [cut, if_pos exact, Int.add_zero]
  · rw [if_neg exact] at cut
    have crossed : (secondOf now + 1) % window.bucketSeconds ≠ 0 := by
      rcases suits.settled with early | whole | crossed
      · exact absurd (.inl early) exact
      · exact absurd (.inr (Int.dvd_of_emod_eq_zero whole)) exact
      · exact crossed
    have same : (secondOf now + 1) / window.bucketSeconds = secondOf now / window.bucketSeconds := by
      have parts := Int.mul_ediv_add_emod (secondOf now + 1) window.bucketSeconds
      have below := Int.emod_lt_of_pos (secondOf now + 1) positive
      have least := Int.emod_nonneg (secondOf now + 1) positive.ne'
      symm
      rw [Int.ediv_eq_iff_of_pos positive, Int.mul_comm]
      constructor <;> omega
    unfold endOf
    rw [cut, same]

theorem second_within (window : HealthWindow) (second : Int) :
    endOf window second - window.bucketSeconds ≤ second ∧ second < endOf window second := by
  have positive := bucketSeconds_pos window
  have parts := Int.mul_ediv_add_emod second window.bucketSeconds
  have below := Int.emod_lt_of_pos second positive
  have least := Int.emod_nonneg second positive.ne'
  unfold endOf
  rw [Int.add_mul, Int.mul_comm (second / window.bucketSeconds), Int.one_mul]
  omega

def fullCell (events : List UsageEvent) (sourceIds : List SourceId) (start bucketSeconds : Int)
    (id : AccountId) (index : Nat) : HealthBucket :=
  let low := start * 1000000000 + (index : Int) * (bucketSeconds * 1000000000)
  let high := start * 1000000000 + ((index : Int) + 1) * (bucketSeconds * 1000000000)
  ⟨low, tally (ofAccount sourceIds id) events low high,
    tally (fun event => ofAccount sourceIds id event && event.failed) events low high⟩

def emptyCell (start bucketSeconds : Int) (index : Nat) : HealthBucket :=
  ⟨start * 1000000000 + (index : Int) * (bucketSeconds * 1000000000), 0, 0⟩

def windowFilter (start finish : Int) (fits : finish ≤ lastSecond) (sourceIds : List SourceId)
    (accountIds : List AccountId) : AnalyticsFilter :=
  ⟨some (start * 1000000000), finish * 1000000000, .utc, sourceIds, accountIds, [], [], [], held_of_second fits⟩

theorem interval_within {start finish bucketSeconds : Int} {buckets index : Nat} (positive : 0 < bucketSeconds)
    (spans : finish = start + bucketSeconds * buckets) (below : index < buckets) :
    start * 1000000000 ≤ start * 1000000000 + (index : Int) * (bucketSeconds * 1000000000) ∧
      start * 1000000000 + ((index : Int) + 1) * (bucketSeconds * 1000000000) ≤ finish * 1000000000 := by
  have least : 0 ≤ (index : Int) * (bucketSeconds * 1000000000) :=
    Int.mul_nonneg (Int.natCast_nonneg _) (by omega)
  have steps : ((index : Int) + 1) * (bucketSeconds * 1000000000) ≤ buckets * (bucketSeconds * 1000000000) :=
    Int.mul_le_mul_of_nonneg_right (by omega) (by omega)
  have whole : (buckets : Int) * (bucketSeconds * 1000000000) = bucketSeconds * buckets * 1000000000 := by
    rw [← Int.mul_assoc, Int.mul_comm (buckets : Int)]
  omega

section Window
variable {start finish : Int} {fits : finish ≤ lastSecond} (begins : 0 ≤ yearAt start) (ordered : start ≤ finish)
include begins ordered

theorem windowFilter_selects (held : Representable event.occurredAt) :
    (windowFilter start finish fits sourceIds accountIds).selects event = true ↔
      asked sourceIds accountIds event = true ∧
        within (start * 1000000000) (finish * 1000000000) event.occurredAt = true := by
  have first := fourDigits_of begins (ordered.trans fits)
  have last := fourDigits_of (begins.trans (yearAt_mono ordered)) fits
  have printable : Printable (start * 1000000000) := by
    unfold Printable
    rw [secondOf_whole]
    exact first
  have ends : Representable (finish * 1000000000) := by
    unfold Representable yearOfInstant
    rw [secondOf_whole]
    exact ⟨lt_of_lt_of_le (by decide) last.1, last.2⟩
  rw [within_iff]
  exact selects_iff printable ends (held_of_second fits) held

theorem selected_second (held : Representable event.occurredAt)
    (selected : (windowFilter start finish fits sourceIds accountIds).selects event = true) :
    Printable event.occurredAt ∧ start ≤ secondOf event.occurredAt := by
  have ⟨_, inside⟩ := (windowFilter_selects begins ordered held).mp selected
  have ⟨after, _⟩ := within_iff.mp inside
  have second : start ≤ secondOf event.occurredAt := by
    unfold secondOf
    unfold Timestamp at *
    omega
  refine ⟨⟨begins.trans (yearAt_mono second), held.2⟩, second⟩

theorem selected_admitted (held : Representable event.occurredAt)
    (selected : (windowFilter start finish fits sourceIds accountIds).selects event = true) :
    admits accountIds event.accountId = true := by
  have ⟨wanted, _⟩ := (windowFilter_selects begins ordered held).mp selected
  exact (Bool.and_eq_true_iff.mp wanted).2

variable {bucketSeconds : Int} (positive : 0 < bucketSeconds) {events : List UsageEvent}
  (held : ∀ event ∈ events, Representable event.occurredAt)
include positive held

/-- What a group of the selected events counts: the account's events of the bucket's interval. -/
theorem group_counts {id : AccountId} (admitted : admits accountIds id = true) {index : Int}
    (low : start * 1000000000 ≤ start * 1000000000 + index * (bucketSeconds * 1000000000))
    (high : start * 1000000000 + (index + 1) * (bucketSeconds * 1000000000) ≤ finish * 1000000000)
    (extra : UsageEvent → Bool) :
    ((events.filter (windowFilter start finish fits sourceIds accountIds).selects).filter
      (groupOf start bucketSeconds · = (id, some index))).countP extra =
    tally (fun event => ofAccount sourceIds id event && extra event) events
      (start * 1000000000 + index * (bucketSeconds * 1000000000))
      (start * 1000000000 + (index + 1) * (bucketSeconds * 1000000000)) := by
  unfold tally
  rw [List.countP_filter, List.countP_filter]
  apply List.countP_congr
  intro event stored
  have represented := held event stored
  have selects : (windowFilter start finish fits sourceIds accountIds).selects event = true ↔ _ :=
    windowFilter_selects begins ordered represented
  simp only [Bool.and_eq_true, decide_eq_true_eq]
  constructor
  · rintro ⟨⟨counted, grouped⟩, selected⟩
    obtain ⟨printable, after⟩ := selected_second begins ordered represented selected
    obtain ⟨wanted, _⟩ := selects.mp selected
    unfold groupOf at grouped
    rw [bucketOf_eq printable after] at grouped
    obtain ⟨account, bucket⟩ := Prod.mk.inj grouped
    unfold asked at wanted
    unfold ofAccount
    simp only [Bool.and_eq_true, decide_eq_true_eq] at wanted ⊢
    exact ⟨⟨⟨wanted.1, account⟩, counted⟩, (bucket_eq_iff positive _ _).mp (Option.some.inj bucket)⟩
  · rintro ⟨⟨owned, counted⟩, inside⟩
    unfold ofAccount at owned
    simp only [Bool.and_eq_true, decide_eq_true_eq] at owned
    obtain ⟨after, before⟩ := within_iff.mp inside
    have selected : (windowFilter start finish fits sourceIds accountIds).selects event = true := by
      refine selects.mpr ⟨?_, within_iff.mpr ⟨low.trans after, before.trans_le high⟩⟩
      unfold asked
      rw [owned.1, owned.2, admitted]
      rfl
    obtain ⟨printable, later⟩ := selected_second begins ordered represented selected
    refine ⟨⟨counted, ?_⟩, selected⟩
    unfold groupOf
    rw [bucketOf_eq printable later, (bucket_eq_iff positive _ _).mpr inside, owned.2]

variable {buckets : Nat} (spans : finish = start + bucketSeconds * buckets)
include spans

theorem selected_bucket (stored : event ∈ events)
    (selected : (windowFilter start finish fits sourceIds accountIds).selects event = true) :
    ∃ index : Nat, index < buckets ∧ bucketOf start bucketSeconds event = some (index : Int) := by
  have represented := held event stored
  have ⟨printable, after⟩ := selected_second begins ordered represented selected
  have ⟨_, inside⟩ := (windowFilter_selects begins ordered represented).mp selected
  have ⟨_, before⟩ := within_iff.mp inside
  have least : 0 ≤ (secondOf event.occurredAt - start) / bucketSeconds :=
    Int.ediv_nonneg (Int.sub_nonneg_of_le after) positive.le
  have second : secondOf event.occurredAt < finish := by
    unfold secondOf
    unfold Timestamp at *
    omega
  have greatest : (secondOf event.occurredAt - start) / bucketSeconds < buckets := by
    rw [Int.ediv_lt_iff_lt_mul positive, Int.mul_comm]
    omega
  have cast := Int.toNat_of_nonneg least
  refine ⟨((secondOf event.occurredAt - start) / bucketSeconds).toNat, by omega, ?_⟩
  rw [bucketOf_eq printable after, cast]

theorem row_tells {row : HealthRow} (member : row ∈ healthRows start bucketSeconds
      (events.filter (windowFilter start finish fits sourceIds accountIds).selects)) :
    (0 ≤ row.bucket ∧ row.bucket < buckets) ∧
      row.requests = (fullCell events sourceIds start bucketSeconds row.accountId row.bucket.toNat).requests ∧
      row.failures = (fullCell events sourceIds start bucketSeconds row.accountId row.bucket.toNat).failures := by
  obtain ⟨event, chosen, rfl⟩ := mem_healthRows.mp member
  have ⟨stored, selects⟩ := List.mem_filter.mp chosen
  obtain ⟨index, below, found⟩ := selected_bucket begins ordered positive held spans stored selects
  have group : groupOf start bucketSeconds event = (event.accountId, some (index : Int)) := by
    rw [groupOf, found]
  have ⟨low, high⟩ := interval_within positive spans below
  have counts (extra : UsageEvent → Bool) :
      ((events.filter (windowFilter start finish fits sourceIds accountIds).selects).filter
        (groupOf start bucketSeconds · = (event.accountId, some (index : Int)))).countP extra = _ :=
    group_counts begins ordered positive held (selected_admitted begins ordered (held event stored) selects)
      low high extra
  rw [group]
  refine ⟨⟨Int.natCast_nonneg _, by simpa [rowOf] using below⟩, ?_, ?_⟩
  · have all := counts fun _ => true
    simp only [List.countP_true, Bool.and_true] at all
    exact all
  · exact counts (·.failed)

theorem tally_uncounted {id : AccountId} (admitted : admits accountIds id = true) {index : Nat}
    (below : index < buckets)
    (absent : ¬∃ row ∈ healthRows start bucketSeconds
      (events.filter (windowFilter start finish fits sourceIds accountIds).selects),
        row.accountId = id ∧ row.bucket.toNat = index)
    {counts : UsageEvent → Bool} (owned : ∀ event, counts event = true → ofAccount sourceIds id event = true) :
    tally counts events (start * 1000000000 + (index : Int) * (bucketSeconds * 1000000000))
      (start * 1000000000 + ((index : Int) + 1) * (bucketSeconds * 1000000000)) = 0 := by
  unfold tally
  rw [List.countP_eq_zero]
  intro event stored counted
  have ⟨counting, inside⟩ := Bool.and_eq_true_iff.mp counted
  have ⟨source, account⟩ := Bool.and_eq_true_iff.mp (owned event counting)
  have ofId : event.accountId = id := of_decide_eq_true account
  have ⟨low, high⟩ := interval_within positive spans below
  have ⟨after, before⟩ := within_iff.mp inside
  have selects : (windowFilter start finish fits sourceIds accountIds).selects event = true := by
    refine (windowFilter_selects begins ordered (held event stored)).mpr ⟨?_, ?_⟩
    · unfold asked
      rw [source, ofId, admitted]
      rfl
    · exact within_iff.mpr ⟨low.trans after, before.trans_le high⟩
  have ⟨printable, later⟩ := selected_second begins ordered (held event stored) selects
  have group : groupOf start bucketSeconds event = (id, some (index : Int)) := by
    rw [groupOf, ofId, bucketOf_eq printable later, (bucket_eq_iff positive _ _).mpr inside]
  apply absent
  refine ⟨_, mem_healthRows.mpr ⟨event, List.mem_filter.mpr ⟨stored, selects⟩, rfl⟩, ?_⟩
  rw [group]
  exact ⟨rfl, rfl⟩

theorem strips_counted {ids : List AccountId} (admitted : ∀ id ∈ ids, admits accountIds id = true) :
    strips buckets ((healthRows start bucketSeconds
      (events.filter (windowFilter start finish fits sourceIds accountIds).selects)).foldl counted
        fun _ => emptyCell start bucketSeconds) ids =
      strips buckets (fullCell events sourceIds start bucketSeconds) ids := by
  unfold strips
  apply List.map_congr_left
  intro id member
  congr 1
  apply List.map_congr_left
  intro index listed
  have below := List.mem_range.mp listed
  rw [foldl_counted (fun id index => (fullCell events sourceIds start bucketSeconds id index).requests)
    (fun id index => (fullCell events sourceIds start bucketSeconds id index).failures)
    fun row written => (row_tells begins ordered positive held spans written).2]
  split
  next => rfl
  next absent =>
    have nothing {counts : UsageEvent → Bool} :=
      @tally_uncounted sourceIds accountIds start finish fits begins ordered bucketSeconds positive events held
        buckets spans id (admitted id member) index below absent counts
    change HealthBucket.mk _ _ _ = HealthBucket.mk _ _ _
    rw [nothing fun _ owned => owned, nothing fun _ both => (Bool.and_eq_true_iff.mp both).1]

theorem placed_rows : ∃ ids : List AccountId,
    (healthRows start bucketSeconds
        (events.filter (windowFilter start finish fits sourceIds accountIds).selects)).foldlM
      (place ((List.range buckets).map (emptyCell start bucketSeconds)))
      (accountIds.foldl (fun accounts id =>
        withAccount ((List.range buckets).map (emptyCell start bucketSeconds)) id accounts) []) =
      .ok (strips buckets (fullCell events sourceIds start bucketSeconds) ids) ∧
    ids.Nodup ∧ ∀ event ∈ events,
      (windowFilter start finish fits sourceIds accountIds).selects event = true → event.accountId ∈ ids := by
  let selected := events.filter (windowFilter start finish fits sourceIds accountIds).selects
  let rows := healthRows start bucketSeconds selected
  let named := accountIds.foldl (fun ids id => ids.insert id) []
  let ids := rows.foldl (fun ids row => ids.insert row.accountId) named
  have known {id : AccountId} : id ∈ ids ↔ id ∈ accountIds ∨ ∃ row ∈ rows, row.accountId = id := by
    rw [mem_foldl_insert, mem_foldl_insert]
    simp
  have admitted (id : AccountId) (member : id ∈ ids) : admits accountIds id = true := by
    rcases known.mp member with asked | ⟨row, written, rfl⟩
    · unfold admits
      rw [List.contains_iff_mem.mpr asked, Bool.or_true]
    · obtain ⟨event, chosen, rfl⟩ := mem_healthRows.mp written
      have ⟨stored, selects⟩ := List.mem_filter.mp chosen
      exact selected_admitted begins ordered (held event stored) selects
  refine ⟨ids, ?_, nodup_foldl_insert _ _ (nodup_foldl_insert _ _ List.nodup_nil), ?_⟩
  · have placed : rows.foldlM (place ((List.range buckets).map (emptyCell start bucketSeconds)))
        (strips buckets (fun _ => emptyCell start bucketSeconds) named) = _ :=
      foldlM_place (fun row written => (row_tells begins ordered positive held spans written).1) fun _ _ => rfl
    have first := foldl_withAccount buckets (emptyCell start bucketSeconds) accountIds []
    rw [strips_counted begins ordered positive held spans admitted] at placed
    rw [← placed]
    exact congrArg (fun accounts =>
      rows.foldlM (place ((List.range buckets).map (emptyCell start bucketSeconds))) accounts) first
  · intro event stored selects
    have chosen : event ∈ selected := List.mem_filter.mpr ⟨stored, selects⟩
    exact known.mpr (.inr ⟨_, mem_healthRows.mpr ⟨event, chosen, rfl⟩, rfl⟩)

end Window

theorem check_ok (sources : ∀ id ∈ sourceIds, ∃ source ∈ tables.sources, source.id = id)
    (accounts : ∀ id ∈ accountIds, ∃ account ∈ tables.accounts, account.id = id) (filter : AnalyticsFilter)
    (left : filter.sourceIds = sourceIds) (right : filter.accountIds = accountIds) :
    filter.check tables = .ok () := by
  have noSource : missing (tables.sources.map Source.id) filter.sourceIds = none := by
    unfold missing
    rw [left, List.find?_eq_none]
    intro id member
    simpa using sources id member
  have noAccount : missing (tables.accounts.map Account.id) filter.accountIds = none := by
    unfold missing
    rw [right, List.find?_eq_none]
    intro id member
    simpa using accounts id member
  unfold AnalyticsFilter.check
  rw [noSource, noAccount]
  rfl

theorem emptyBuckets_ok {start finish bucketSeconds : Int} {buckets : Nat}
    (spans : finish = start + bucketSeconds * buckets) (positive : 0 ≤ bucketSeconds)
    (first : firstSecond ≤ start) (fits : finish ≤ lastSecond) :
    emptyBuckets start bucketSeconds buckets = .ok ((List.range buckets).map (emptyCell start bucketSeconds)) := by
  apply mapM_ok
  intro index member
  have below := List.mem_range.mp member
  have low : 0 ≤ (index : Int) * bucketSeconds := Int.mul_nonneg (Int.natCast_nonneg _) positive
  have high : (index : Int) * bucketSeconds ≤ bucketSeconds * buckets := by
    rw [Int.mul_comm bucketSeconds]
    exact Int.mul_le_mul_of_nonneg_right (by omega) positive
  have inRange : firstSecond ≤ start + (index : Int) * bucketSeconds ∧
      start + (index : Int) * bucketSeconds ≤ lastSecond := by omega
  have same : (start + (index : Int) * bucketSeconds) * 1000000000 =
      start * 1000000000 + (index : Int) * (bucketSeconds * 1000000000) := by
    rw [Int.add_mul, Int.mul_assoc]
  unfold fromSecond emptyCell
  rw [dif_pos inRange, ← same]
  rfl

/-- A window that suits is answered: each account that is named or has a request in it, with what each of
its buckets counts. -/
theorem load_suits (suits : Suits window now)
    (sources : ∀ id ∈ sourceIds, ∃ source ∈ tables.sources, source.id = id)
    (accounts : ∀ id ∈ accountIds, ∃ account ∈ tables.accounts, account.id = id)
    (held : ∀ event ∈ tables.events, Representable event.occurredAt) :
    ∃ ids : List AccountId, load tables window now sourceIds accountIds = .ok ⟨window.bucketMinutes,
        startOf window (asSecond now) * 1000000000,
        (strips window.buckets (fullCell tables.events sourceIds (startOf window (asSecond now))
          window.bucketSeconds) ids).insertionSort fun first second => first.accountId ≤ second.accountId⟩ ∧
      ids.Nodup ∧ ∀ event ∈ tables.events, asked sourceIds accountIds event = true →
        within (startOf window (asSecond now) * 1000000000) (endOf window (asSecond now) * 1000000000)
          event.occurredAt = true → event.accountId ∈ ids := by
  have positive := bucketSeconds_pos window
  have ordered := start_le_end window (asSecond now)
  have begins := suits.begins
  have fits := suits.fits
  have spans : endOf window (asSecond now) =
      startOf window (asSecond now) + window.bucketSeconds * window.buckets := by
    unfold startOf
    omega
  have unfolded : endOf window (asSecond now) - window.bucketSeconds * window.buckets =
      startOf window (asSecond now) := rfl
  unfold load
  simp only [unfolded]
  generalize startOf window (asSecond now) = start at *
  generalize endOf window (asSecond now) = finish at *
  have first : firstSecond ≤ start := by
    have early : yearAt firstSecond < 0 := by decide
    exact ((second_lt_iff firstSecond start).mpr (.inl (early.trans_le begins))).le
  have readStart : fromSecond start = .ok ⟨start * 1000000000, held_of_second (ordered.trans fits)⟩ :=
    dif_pos ⟨first, ordered.trans fits⟩
  have readFinish : fromSecond finish = .ok ⟨finish * 1000000000, held_of_second fits⟩ :=
    dif_pos ⟨first.trans ordered, fits⟩
  have checked := check_ok sources accounts (windowFilter start finish fits sourceIds accountIds) rfl rfl
  have emptyRead := emptyBuckets_ok spans positive.le first fits
  obtain ⟨ids, placed, once, covered⟩ :=
    @placed_rows sourceIds accountIds start finish fits begins ordered window.bucketSeconds positive tables.events held
      window.buckets spans
  refine ⟨ids, ?_, once, ?_⟩
  · unfold windowFilter at checked placed
    rw [readStart, readFinish]
    simp only [bind, Except.bind, checked, emptyRead, placed]
    rfl
  · intro event stored wanted inside
    exact covered event stored ((windowFilter_selects begins ordered (held event stored)).mpr ⟨wanted, inside⟩)

theorem mem_of_missing {Id : Type} [DecidableEq Id] {found ids : List Id} (none_missing : missing found ids = none)
    (id : Id) (member : id ∈ ids) : id ∈ found := by
  have all := List.find?_eq_none.mp none_missing id member
  simpa using all

theorem known_of_load {answer : Health} (answered : load tables window now sourceIds accountIds = .ok answer) :
    (∀ id ∈ sourceIds, ∃ source ∈ tables.sources, source.id = id) ∧
      ∀ id ∈ accountIds, ∃ account ∈ tables.accounts, account.id = id := by
  unfold load at answered
  simp only [bind, Except.bind] at answered
  split at answered
  · cases answered
  split at answered
  · cases answered
  split at answered
  · cases answered
  next checked =>
    unfold AnalyticsFilter.check at checked
    simp only at checked
    cases noSource : missing (tables.sources.map Source.id) sourceIds with
    | some id =>
      rw [noSource] at checked
      cases checked
    | none =>
      rw [noSource] at checked
      cases noAccount : missing (tables.accounts.map Account.id) accountIds with
      | some id =>
        rw [noAccount] at checked
        cases checked
      | none =>
        constructor
        · intro id member
          exact List.mem_map.mp (mem_of_missing noSource id member)
        · intro id member
          exact List.mem_map.mp (mem_of_missing noAccount id member)

theorem placed_of_suits (suits : Suits window now)
    (sources : ∀ id ∈ sourceIds, ∃ source ∈ tables.sources, source.id = id)
    (accounts : ∀ id ∈ accountIds, ∃ account ∈ tables.accounts, account.id = id)
    (held : ∀ event ∈ tables.events, Representable event.occurredAt) :
    ∃ answer, load tables window now sourceIds accountIds = .ok answer ∧
      answer.bucketMinutes = window.bucketMinutes ∧ Placed tables window now sourceIds accountIds answer := by
  obtain ⟨ids, loaded, once, covered⟩ := load_suits suits sources accounts held
  refine ⟨_, loaded, rfl, ?_⟩
  have positive := bucketSeconds_pos window
  have spans : startOf window (asSecond now) * 1000000000 + window.buckets * lengthOf window =
      endOf window (asSecond now) * 1000000000 := by
    unfold startOf lengthOf
    rw [Int.sub_mul, ← Int.mul_assoc, Int.mul_comm (window.buckets : Int)]
    omega
  have accountsOf {account : AccountHealth} : account ∈ (strips window.buckets (fullCell tables.events sourceIds
      (startOf window (asSecond now)) window.bucketSeconds) ids).insertionSort
        (fun first second => first.accountId ≤ second.accountId) ↔
      ∃ id ∈ ids, ⟨id, (List.range window.buckets).map (fullCell tables.events sourceIds
        (startOf window (asSecond now)) window.bucketSeconds id)⟩ = account := by
    rw [List.mem_insertionSort]
    exact List.mem_map
  have nonneg : 0 ≤ lengthOf window := by
    unfold lengthOf
    omega
  constructor
  · have sorted := List.perm_insertionSort (fun first second : AccountHealth => first.accountId ≤ second.accountId)
      (strips window.buckets (fullCell tables.events sourceIds (startOf window (asSecond now))
        window.bucketSeconds) ids)
    apply (sorted.map AccountHealth.accountId).nodup_iff.mpr
    unfold strips
    rw [List.map_map, show AccountHealth.accountId ∘ _ = id from rfl, List.map_id]
    exact once
  · intro account member
    obtain ⟨id, _, rfl⟩ := accountsOf.mp member
    rw [List.map_map]
    rfl
  · refine ⟨endOf window (asSecond now) / window.bucketSeconds - window.buckets, ?_⟩
    have whole : endOf window (asSecond now) = endOf window (asSecond now) / window.bucketSeconds *
        window.bucketSeconds := by
      unfold endOf
      rw [Int.mul_ediv_cancel _ positive.ne']
    have first : startOf window (asSecond now) = window.bucketSeconds *
        (endOf window (asSecond now) / window.bucketSeconds - window.buckets) := by
      rw [Int.mul_sub, Int.mul_comm window.bucketSeconds (endOf window _ / _), ← whole]
      rfl
    unfold lengthOf
    rw [Int.mul_right_comm, ← first]
  · have ⟨after, before⟩ := second_within window (secondOf now)
    have same := suits.endOf_eq
    rw [← same] at after before
    unfold secondOf at after before
    simp only
    rw [Int.sub_mul, ← Int.add_sub_assoc, spans]
    unfold lengthOf
    unfold Timestamp at *
    omega
  · intro account member bucket inside
    obtain ⟨id, _, rfl⟩ := accountsOf.mp member
    obtain ⟨index, _, rfl⟩ := List.mem_map.mp inside
    unfold fullCell lengthOf
    rw [Int.add_mul, Int.one_mul, ← Int.add_assoc]
    exact ⟨rfl, rfl⟩
  · intro event stored wanted inside
    simp only [spans] at inside
    exact ⟨_, accountsOf.mpr ⟨event.accountId, covered event stored wanted inside, rfl⟩, rfl⟩
  · intro account member
    obtain ⟨id, _, rfl⟩ := accountsOf.mp member
    have requests := sum_tally (ofAccount sourceIds id) tables.events
      (startOf window (asSecond now) * 1000000000) nonneg window.buckets
    have failures := sum_tally (fun event => ofAccount sourceIds id event && event.failed) tables.events
      (startOf window (asSecond now) * 1000000000) nonneg window.buckets
    rw [List.map_map, List.map_map]
    exact ⟨requests, failures⟩

/-- Two polls that share a bucket of an account count the same in it. -/
theorem Placed.agree {later : Tables} {otherWindow : HealthWindow} {otherNow : Timestamp} {first second : Health}
    (left : Placed tables window now sourceIds accountIds first)
    (right : Placed later otherWindow otherNow sourceIds accountIds second)
    (lengths : otherWindow.bucketMinutes = window.bucketMinutes) (unchanged : later.events = tables.events) :
    ∀ account ∈ first.accounts, ∀ other ∈ second.accounts, account.accountId = other.accountId →
      ∀ bucket ∈ account.buckets, ∀ shared ∈ other.buckets, bucket.start = shared.start → bucket = shared := by
  intro account member other otherMember named bucket inside shared sharedInside starts
  have ⟨requests, failures⟩ := left.counts account member bucket inside
  have ⟨otherRequests, otherFailures⟩ := right.counts other otherMember shared sharedInside
  have same : lengthOf otherWindow = lengthOf window := by
    unfold lengthOf HealthWindow.bucketSeconds
    rw [lengths]
  rw [← starts, ← named, same, unchanged] at otherRequests otherFailures
  obtain ⟨start, _, _⟩ := bucket
  obtain ⟨_, _, _⟩ := shared
  simp_all

/-- A poll whose window suits is answered and places every request, and a later poll with buckets of the
same length counts the same in a bucket both answer, if no event was stored in between. -/
theorem polls_place_every_request (tables : Tables) (window : HealthWindow) (now : Timestamp)
    (sourceIds : List SourceId) (accountIds : List AccountId) (suits : Suits window now)
    (sources : ∀ id ∈ sourceIds, ∃ source ∈ tables.sources, source.id = id)
    (accounts : ∀ id ∈ accountIds, ∃ account ∈ tables.accounts, account.id = id)
    (held : ∀ event ∈ tables.events, Representable event.occurredAt) :
    (∃ answer, load tables window now sourceIds accountIds = .ok answer ∧
      Placed tables window now sourceIds accountIds answer) ∧
    ∀ (later : Tables) (otherWindow : HealthWindow) (otherNow : Timestamp) (answer other : Health),
      later.events = tables.events → otherWindow.bucketMinutes = window.bucketMinutes →
      Suits otherWindow otherNow →
      load tables window now sourceIds accountIds = .ok answer →
      load later otherWindow otherNow sourceIds accountIds = .ok other →
      ∀ account ∈ answer.accounts, ∀ again ∈ other.accounts, account.accountId = again.accountId →
        ∀ bucket ∈ account.buckets, ∀ shared ∈ again.buckets, bucket.start = shared.start → bucket = shared := by
  obtain ⟨answer, loaded, _, placed⟩ := placed_of_suits suits sources accounts held
  refine ⟨⟨answer, loaded, placed⟩, ?_⟩
  intro later otherWindow otherNow first other unchanged lengths otherSuits firstLoaded otherLoaded
  obtain rfl := Except.ok.inj (loaded.symm.trans firstLoaded)
  have ⟨otherSources, otherAccounts⟩ := known_of_load otherLoaded
  obtain ⟨second, secondLoaded, _, otherPlaced⟩ :=
    placed_of_suits otherSuits otherSources otherAccounts (unchanged.symm ▸ held)
  obtain rfl := Except.ok.inj (secondLoaded.symm.trans otherLoaded)
  exact placed.agree otherPlaced lengths unchanged

def hourly : HealthWindow := ⟨5, 12, by decide, by decide, by decide⟩

/-- A request a nanosecond before a bucket ends, and a failed one as the next begins. -/
def atTheBoundary : Tables := { Tables.empty with
  events := [requestAt 1743296699999999999, { requestAt 1743296700000000000 with failed := true }] }

theorem requests_at_the_boundary : ∃ answer,
    load atTheBoundary hourly 1743296710000000000 [] [] = .ok answer ∧
      answer.accounts.map (fun account => (account.buckets.drop 10).map fun bucket =>
        (bucket.requests, bucket.failures)) = [[(1, 0), (1, 1)]] ∧
      Placed atTheBoundary hourly 1743296710000000000 [] [] answer := by
  have suits : Suits hourly 1743296710000000000 :=
    ⟨by decide, by decide, .inl (by decide)⟩
  have held : ∀ event ∈ atTheBoundary.events, Representable event.occurredAt := by
    intro event member
    simp only [atTheBoundary, List.mem_cons, List.not_mem_nil, or_false] at member
    rcases member with rfl | rfl
    all_goals
      unfold Representable
      decide
  obtain ⟨⟨answer, loaded, placed⟩, _⟩ := polls_place_every_request atTheBoundary hourly 1743296710000000000 [] []
    suits (fun _ member => absurd member List.not_mem_nil) (fun _ member => absurd member List.not_mem_nil) held
  have ran : (load atTheBoundary hourly 1743296710000000000 [] []).toOption.any (fun answer =>
      answer.accounts.map (fun account => (account.buckets.drop 10).map fun bucket =>
        (bucket.requests, bucket.failures)) = [[(1, 0), (1, 1)]]) = true := by decide
  rw [loaded] at ran
  exact ⟨answer, loaded, of_decide_eq_true ran, placed⟩

/-- At the last instant the window's end is none; just before 1970 the last bucket is after now; and before
the year 0 a request's bucket is NULL, so that one in the last bucket is counted in the first. -/
theorem polls_depart : HealthWindow.new 60 5 = .ok hourly ∧
    load Tables.empty hourly lastInstant [] [] = .error .window ∧
    (load Tables.empty hourly (-1) [] []).toOption.any (fun answer =>
      answer.bucketsStart + 11 * lengthOf hourly = 0) = true ∧
    (load { Tables.empty with events := [requestAt (-62200000000000000000)] } hourly (-62200000000000000000)
        [] []).toOption.any (fun answer =>
      decide (answer.bucketsStart + 11 * lengthOf hourly ≤ -62200000000000000000) &&
        answer.accounts.map (·.buckets.map (·.requests)) = [[1, 0, 0, 0, 0, 0, 0, 0, 0, 0, 0, 0]]) = true := by
  refine ⟨rfl, ?_, ?_, ?_⟩
  · decide
  · decide
  · decide

end MeteredUsage.Analytics.Polls
