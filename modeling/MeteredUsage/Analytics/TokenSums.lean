import MeteredUsage.Analytics.RunningSums
import MeteredUsage.Collector.Additions

/-! Token arithmetic, from the counts a gateway sends to the sums of the measures. Nothing bounds
the counts but the 64 bits they are read into, so sums of them may leave those. -/

namespace MeteredUsage.Analytics.TokenSums
open MeteredUsage.Values MeteredUsage.Store MeteredUsage.Store.Schema MeteredUsage.Store.Events
open MeteredUsage.Collector MeteredUsage.Collector.Additions
open MeteredUsage.Collector.Accounting (CliProxyRecord)
open MeteredUsage.Collector.LiteLlm (LiteLlmRow)
open MeteredUsage.Analytics.Metrics MeteredUsage.Analytics.RunningSums

/-- The token counts of a stored event. -/
def keptCounts (event : UsageEvent) : List Int :=
  [event.inputTokens, event.outputTokens, event.reasoningTokens, event.cacheReadTokens,
    event.cacheWriteTokens, event.unclassifiedTokens, event.totalTokens]

/-- A row holds the counts of an event some normalizer handed over. -/
def Stored (event : UsageEvent) : Prop := ∃ sent, Accepted sent ∧ keptCounts event = newCounts sent

theorem stored_row {event : NewUsageEvent} (accepted : Accepted event) (runtime : Sql.Runtime) (id : EventId)
    (sourceId : SourceId) (accountId : AccountId) : Stored (event.row runtime id sourceId accountId) :=
  ⟨event, accepted, rfl⟩

theorem Stored.fits {event : UsageEvent} (stored : Stored event) : ∀ count ∈ keptCounts event, Fits count := by
  have ⟨sent, accepted, same⟩ := stored
  rw [same]
  exact accepted.fits

theorem Stored.held {event : UsageEvent} (stored : Stored event) : Held event := by
  have fits := stored.fits
  unfold keptCounts at fits
  simp only [List.forall_mem_cons] at fits
  have ⟨input, _, _, hits, fills, _⟩ := fits
  exact ⟨input, hits, fills⟩

/-- The counts of an accepted record are added up exactly where their sums fit 64 bits, so is the
total of an accepted row, and stored events are summed exactly where their counts are bounded. -/
theorem tokens_add_up_iff (reading : Accounting.Reading) (logReading : LiteLlm.Reading)
    (rows : List Joined) :
    (∀ value record event, CliProxyRecord.read reading value = .ok record →
      record.event reading = .ok event →
        (RecordExact reading record event ↔ ∀ sum ∈ recordSums reading record, Fits sum)) ∧
    (∀ value row event, LiteLlmRow.read logReading value = some row →
      row.event logReading = .ok event → (RowExact row event ↔ Fits (rowSum row))) ∧
    ((∀ row ∈ rows, Stored row.event) → (SumsExact rows ↔ Bounded rows)) := by
  refine ⟨?_, ?_, ?_⟩
  · intro value record event _ made
    exact record_exact_iff made
  · intro value row event _ made
    exact row_exact_iff made
  · intro stored
    exact sumsExact_iff fun row member => (stored row member).held

/-- Every text is the same instant. -/
def timed : Sql.Runtime := { Sql.Runtime.inert with parseTimestamp := fun _ => some 0 }

def plain : Accounting.Reading where
  runtime := timed
  quoted := id
  refusal _ expected := expected
  sameNumber first second := first = second

def plainRow : LiteLlm.Reading where
  runtime := timed
  real _ := .zero
  civil _ := none
  quoted := id
  refusal _ := ""

/-- A record of a gateway older than the breakdown. -/
def sent (input cacheRead total : String) : Json :=
  .object [("endpoint", .string ""), ("fail", .object []), ("model", .string ""),
    ("provider", .string "claude"), ("timestamp", .string ""),
    ("tokens", .object [("cache_read_tokens", .number cacheRead), ("input_tokens", .number input),
      ("total_tokens", .number total)])]

/-- A row of a spend log that gives no total. -/
def logged (prompt completion : String) : Json :=
  .object [("completion_tokens", .number completion), ("prompt_tokens", .number prompt),
    ("request_id", .string "1"), ("startTime", .string "now")]

/-- The event of an accepted record. -/
def received (value : Json) : NewUsageEvent :=
  match Accounting.parse plain value with
  | .record event => event
  | .rejected _ _ => NewUsageEvent.idle "" 0

/-- The row it is stored as, before it is priced. -/
def kept (id : EventId) (value : Json) : Joined := ⟨(received value).row timed id 0 0, none, none, none⟩

theorem small_counts_add_up :
    (∃ record event, CliProxyRecord.read plain (sent "10" "5" "15") = .ok record ∧
      record.event plain = .ok event ∧ RecordExact plain record event) ∧
    (∃ row event, LiteLlmRow.read plainRow (logged "10" "5") = some row ∧
      row.event plainRow = .ok event ∧ RowExact row event) ∧
    SumsExact [kept 1 (sent "10" "5" "15"), kept 2 (sent "3" "0" "3")] := by
  have ⟨records, rows, sums⟩ := tokens_add_up_iff plain plainRow
    [kept 1 (sent "10" "5" "15"), kept 2 (sent "3" "0" "3")]
  refine ⟨⟨_, _, rfl, rfl, ?_⟩, ⟨_, _, rfl, rfl, ?_⟩, ?_⟩
  · exact (records (sent "10" "5" "15") _ _ rfl rfl).mpr (by decide)
  · exact (rows (logged "10" "5") _ _ rfl rfl).mpr (by decide)
  · have stored (id : EventId) (input cacheRead total : String)
        (accepted : Accounting.parse plain (sent input cacheRead total) =
          .record (received (sent input cacheRead total))) :
        Stored (kept id (sent input cacheRead total)).event :=
      stored_row (.inl ⟨plain, sent input cacheRead total, accepted⟩) timed id 0 0
    apply (sums ?_).mpr (by decide)
    rw [List.forall_mem_cons, List.forall_mem_singleton]
    exact ⟨stored 1 "10" "5" "15" rfl, stored 2 "3" "0" "3" rfl⟩

/-- The most tokens a record can hold. -/
def most : Json := sent "0" "0" "9223372036854775807"

/-- A record whose input wraps, a row whose total does, and two rows of the most tokens that no query
adds up, all accepted. -/
theorem tokens_overflow :
    (∃ record event, CliProxyRecord.read plain (sent "9223372036854775807" "1" "0") = .ok record ∧
      record.event plain = .ok event ∧ event.inputTokens = -2 ^ 63 ∧ ¬ RecordExact plain record event) ∧
    (∃ row event, LiteLlmRow.read plainRow (logged "9223372036854775807" "1") = some row ∧
      row.event plainRow = .ok event ∧ event.totalTokens = -2 ^ 63 ∧ ¬ RowExact row event) ∧
    (∀ row ∈ [kept 1 most, kept 2 most], Stored row.event) ∧ ¬ SumsExact [kept 1 most, kept 2 most] := by
  refine ⟨⟨_, _, rfl, rfl, by decide, ?_⟩, ⟨_, _, rfl, rfl, by decide, ?_⟩, ?_, ?_⟩
  · intro exact
    exact absurd ((record_exact_iff rfl).mp exact) (by decide)
  · intro exact
    exact absurd ((row_exact_iff (@rfl _ (LiteLlmRow.event plainRow _))).mp exact) (by decide)
  · rw [List.forall_mem_cons, List.forall_mem_singleton]
    have accepted : Accepted (received most) := .inl ⟨plain, most, rfl⟩
    exact ⟨stored_row accepted timed 1 0 0, stored_row accepted timed 2 0 0⟩
  · intro exact
    have overflow : leverageTokens [(kept 1 most).event, (kept 2 most).event] = none := by decide
    have added := exact.tokens [kept 1 most, kept 2 most] (List.Perm.refl _)
    cases overflow.symm.trans added

end MeteredUsage.Analytics.TokenSums
