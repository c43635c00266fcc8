import MeteredUsage.Collector.Accounting
import MeteredUsage.Library.CheckedSums
import MeteredUsage.Library.Outcome
import MeteredUsage.Store.Thresholds

/-! The token counts a normalizer adds up, with each addition done as a release build does it, as a
debug build does and exactly. -/

namespace MeteredUsage.Collector.Additions
open MeteredUsage.Values MeteredUsage.Store MeteredUsage.Store.Schema MeteredUsage.Store.Events
open MeteredUsage.Store.Thresholds (wrap_eq_self_iff)
open MeteredUsage.Store.Response (asInteger fits_asInteger)
open MeteredUsage.Collector.Accounting
open MeteredUsage.Collector.LiteLlm (wrap64 LiteLlmRow LiteLlmMetadata readInteger readMetadata)
open MeteredUsage.Library.CheckedSums (add add_eq_some_iff)
open MeteredUsage.Library.Outcome (bind_ok)

/-- An addition of a debug build, which panics past 64 bits. -/
def checkedAdd : Int → Int → Option Int := add (-2 ^ 63) (2 ^ 63)

def exactAdd (first second : Int) : Id Int := first + second

section
variable (M : Type → Type) [Monad M] (sum : Int → Int → M Int)

/-- `Tokens::flat`, with its additions done some way. -/
def flatBy (tokens : CliProxyTokens) (semantics : Semantics) : M Tokens :=
  let cacheRead := if 0 < tokens.cacheReadTokens then tokens.cacheReadTokens else tokens.cachedTokens
  let read (input cacheRead output : Int) : Tokens :=
    { input
      output
      reasoning := tokens.reasoningTokens
      cacheRead
      cacheWrite := tokens.cacheCreationTokens
      unclassified := 0
      total := tokens.totalTokens
      quality := none }
  match semantics with
  | .independent => do
    let uncreated ← sum tokens.inputTokens tokens.cacheReadTokens
    let input ← sum uncreated tokens.cacheCreationTokens
    return read input tokens.cacheReadTokens tokens.outputTokens
  | .separateReasoning => do
    let output ← sum tokens.outputTokens tokens.reasoningTokens
    return read tokens.inputTokens cacheRead output
  | .subset => return read tokens.inputTokens cacheRead tokens.outputTokens
  | .unknown =>
    return {
      input := 0
      output := 0
      reasoning := 0
      cacheRead := 0
      cacheWrite := 0
      unclassified := tokens.totalTokens
      total := tokens.totalTokens
      quality := some .unclassified }

/-- The counts of a record, from whichever token block is read. -/
def countBy (reading : Reading) (record : CliProxyRecord) : M (Except CliProxyError Tokens) :=
  if 2 ≤ record.accountingVersion then
    return record.tokenBreakdown.elim (.error (.missingBreakdown record.accountingVersion)) fun
      breakdown => .ok (Tokens.apart breakdown)
  else do
    let tokens ← flatBy M sum record.tokens
      (Semantics.of reading.runtime record.provider (record.executorType.getD ""))
    return .ok tokens

/-- The total of a LiteLLM row. Its default is added up whether or not it is needed. -/
def totalBy (row : LiteLlmRow) : M Int := do
  let total ← sum (row.promptTokens.getD 0) (row.completionTokens.getD 0)
  return row.totalTokens.getD total

end

/-- The sums `Tokens::flat` comes by, in order. -/
def flatSums (tokens : CliProxyTokens) : Semantics → List Int
  | .independent =>
    [tokens.inputTokens + tokens.cacheReadTokens,
      tokens.inputTokens + tokens.cacheReadTokens + tokens.cacheCreationTokens]
  | .separateReasoning => [tokens.outputTokens + tokens.reasoningTokens]
  | .subset | .unknown => []

/-- The sums a record's counts come by. The breakdown of version 2 needs none. -/
def recordSums (reading : Reading) (record : CliProxyRecord) : List Int :=
  if 2 ≤ record.accountingVersion then []
  else flatSums record.tokens
    (Semantics.of reading.runtime record.provider (record.executorType.getD ""))

def rowSum (row : LiteLlmRow) : Int := row.promptTokens.getD 0 + row.completionTokens.getD 0

def tokenCounts (tokens : Tokens) : List Int :=
  [tokens.input, tokens.output, tokens.reasoning, tokens.cacheRead, tokens.cacheWrite,
    tokens.unclassified, tokens.total]

/-- The token counts of an event as a normalizer hands it over. -/
def newCounts (event : NewUsageEvent) : List Int :=
  [event.inputTokens, event.outputTokens, event.reasoningTokens, event.cacheReadTokens,
    event.cacheWriteTokens, event.unclassifiedTokens, event.totalTokens]

/-- The counts of a record's event are the exact ones, and no addition on the way to them wraps
or panics. -/
def RecordExact (reading : Reading) (record : CliProxyRecord) (event : NewUsageEvent) : Prop :=
  ∃ tokens, Id.run (countBy Id exactAdd reading record) = .ok tokens ∧
    countBy Option checkedAdd reading record = some (.ok tokens) ∧
    newCounts event = tokenCounts tokens

/-- The same of the total of a LiteLLM row. -/
def RowExact (row : LiteLlmRow) (event : NewUsageEvent) : Prop :=
  Id.run (totalBy Id exactAdd row) = event.totalTokens ∧
    totalBy Option checkedAdd row = some event.totalTokens

/-- A normalizer made the event of some payload. -/
def Accepted (event : NewUsageEvent) : Prop :=
  (∃ reading value, Accounting.parse reading value = .record event) ∨
    ∃ reading row, LiteLlm.parse reading row = .record event

variable {reading : Reading} {record : CliProxyRecord} {event : NewUsageEvent}

theorem checkedAdd_eq_some_iff {first second total : Int} :
    checkedAdd first second = some total ↔ Fits (first + second) ∧ total = first + second :=
  add_eq_some_iff

theorem checkedAdd_of_fits {first second : Int} (fits : Fits (first + second)) :
    checkedAdd first second = some (first + second) :=
  checkedAdd_eq_some_iff.mpr ⟨fits, rfl⟩

/-- A release build computes the exact counts where the sums fit. -/
theorem flat_exact {tokens : CliProxyTokens} {semantics : Semantics}
    (fit : ∀ sum ∈ flatSums tokens semantics, Fits sum) :
    Tokens.flat tokens semantics = Id.run (flatBy Id exactAdd tokens semantics) := by
  cases semantics with
  | independent =>
    have first := (wrap_eq_self_iff _).mpr (fit _ List.mem_cons_self)
    have second := (wrap_eq_self_iff _).mpr (fit _ (List.mem_cons_of_mem _ List.mem_cons_self))
    simp only [Tokens.flat, first, second]
    rfl
  | separateReasoning =>
    have only := (wrap_eq_self_iff _).mpr (fit _ List.mem_cons_self)
    simp only [Tokens.flat, only]
    rfl
  | subset => rfl
  | unknown => rfl

/-- So does a debug build. -/
theorem flat_checked {tokens : CliProxyTokens} {semantics : Semantics}
    (fit : ∀ sum ∈ flatSums tokens semantics, Fits sum) :
    flatBy Option checkedAdd tokens semantics = some (Id.run (flatBy Id exactAdd tokens semantics)) := by
  cases semantics with
  | independent =>
    have first := checkedAdd_of_fits (fit _ List.mem_cons_self)
    have second := checkedAdd_of_fits (fit _ (List.mem_cons_of_mem _ List.mem_cons_self))
    simp only [flatBy, first, Option.bind_eq_bind, Option.bind_some, second]
    rfl
  | separateReasoning =>
    have only := checkedAdd_of_fits (fit _ List.mem_cons_self)
    simp only [flatBy, only]
    rfl
  | subset => rfl
  | unknown => rfl

/-- Elsewhere a debug build panics. -/
theorem fit_of_flat_checked {tokens : CliProxyTokens} {semantics : Semantics} {counts : Tokens}
    (defined : flatBy Option checkedAdd tokens semantics = some counts) :
    ∀ sum ∈ flatSums tokens semantics, Fits sum := by
  cases semantics with
  | independent =>
    have ⟨held, first, later⟩ := Option.bind_eq_some_iff.mp defined
    have ⟨input, second, _⟩ := Option.bind_eq_some_iff.mp later
    have ⟨fits, held_eq⟩ := checkedAdd_eq_some_iff.mp first
    have also := (checkedAdd_eq_some_iff.mp second).1
    rw [held_eq] at also
    simp [flatSums, fits, also]
  | separateReasoning =>
    have ⟨output, only, _⟩ := Option.bind_eq_some_iff.mp defined
    simp [flatSums, (checkedAdd_eq_some_iff.mp only).1]
  | subset => simp [flatSums]
  | unknown => simp [flatSums]

/-- The counts of an event are those of the tokens its record was read as. -/
theorem counts_of_event (made : record.event reading = .ok event) :
    ∃ tokens, record.countTokens reading = .ok tokens ∧ newCounts event = tokenCounts tokens := by
  unfold CliProxyRecord.event at made
  have ⟨occurredAt, _, later⟩ := bind_ok.mp made
  have ⟨tokens, counted, built⟩ := bind_ok.mp later
  cases built
  exact ⟨tokens, counted, rfl⟩

/-- An accepted record is counted exactly where its sums fit 64 bits. -/
theorem record_exact_iff (made : record.event reading = .ok event) :
    RecordExact reading record event ↔ ∀ sum ∈ recordSums reading record, Fits sum := by
  have ⟨tokens, counted, counts⟩ := counts_of_event made
  unfold RecordExact recordSums countBy
  unfold CliProxyRecord.countTokens at counted
  split
  case isTrue apart =>
    rw [if_pos apart] at counted
    refine ⟨fun _ sum none => (nomatch none), fun _ => ⟨tokens, counted, ?_, counts⟩⟩
    exact congrArg some counted
  case isFalse flat =>
    rw [if_neg flat] at counted
    constructor
    · intro ⟨exact, _, checked, _⟩
      have ⟨defined, flatly, _⟩ := Option.bind_eq_some_iff.mp checked
      exact fit_of_flat_checked flatly
    · intro fit
      rw [flat_exact fit] at counted
      refine ⟨tokens, counted, ?_, counts⟩
      rw [flat_checked fit]
      exact congrArg some counted

/-- The counts of an event are those of its row and of the usage its metadata reports. -/
theorem counts_of_row {reading : LiteLlm.Reading} {row : LiteLlmRow} (made : row.event reading = .ok event) :
    ∃ metadata, readMetadata reading row.metadata = .ok metadata ∧
      newCounts event = [row.promptTokens.getD 0, row.completionTokens.getD 0, 0,
        (metadata.additionalUsageValues.getD ⟨none, none⟩).cacheReadInputTokens.getD 0,
        (metadata.additionalUsageValues.getD ⟨none, none⟩).cacheCreationInputTokens.getD 0, 0,
        row.totalTokens.getD (wrap64 (rowSum row))] := by
  unfold LiteLlmRow.event at made
  have ⟨upstreamId, _, named⟩ := bind_ok.mp made
  have ⟨startTime, _, started⟩ := bind_ok.mp named
  have ⟨occurredAt, _, dated⟩ := bind_ok.mp started
  have ⟨firstToken, _, timed⟩ := bind_ok.mp dated
  have ⟨metadata, described, built⟩ := bind_ok.mp timed
  cases built
  exact ⟨metadata, described, rfl⟩

/-- An accepted row has an exact total where the sum of its two counts fits 64 bits. -/
theorem row_exact_iff {reading : LiteLlm.Reading} {row : LiteLlmRow}
    (made : row.event reading = .ok event) : RowExact row event ↔ Fits (rowSum row) := by
  have ⟨metadata, _, counts⟩ := counts_of_row made
  have total : event.totalTokens = row.totalTokens.getD (wrap64 (rowSum row)) := by
    unfold newCounts at counts
    simp only [List.cons.injEq] at counts
    exact counts.2.2.2.2.2.2.1
  unfold RowExact totalBy
  rw [total]
  constructor
  · intro ⟨_, checked⟩
    have ⟨sum, defined, _⟩ := Option.bind_eq_some_iff.mp checked
    exact (checkedAdd_eq_some_iff.mp defined).1
  · intro fits
    rw [(wrap_eq_self_iff _).mpr fits, checkedAdd_of_fits fits]
    exact ⟨rfl, rfl⟩

theorem fits_zero : Fits 0 := by decide

theorem fits_wrap (value : Int) : Fits (wrap64 value) := by
  unfold wrap64 Fits
  omega

/-- An integer serde reads for a record fits. -/
theorem fits_integerOf (value : Option Json) : Fits (integerOf value) := by
  unfold integerOf
  cases read : value.bind asInteger with
  | none => exact fits_zero
  | some integer =>
    have ⟨_, _, written⟩ := Option.bind_eq_some_iff.mp read
    exact fits_asInteger written

theorem fits_readInteger {value : Option Json} {integer : Option Int}
    (read : readInteger value = some integer) : Fits (integer.getD 0) := by
  unfold readInteger at read
  split at read
  case h_1 =>
    cases read
    exact fits_zero
  case h_2 =>
    have ⟨whole, written, same⟩ := Option.map_eq_some_iff.mp read
    cases same
    exact fits_asInteger written

theorem fits_getD {value : Option Int} {default : Int} (fits : Fits (value.getD 0)) (other : Fits default) :
    Fits (value.getD default) := by
  cases value with
  | none => exact other
  | some integer => exact fits

theorem fits_flat (value : Json) (semantics : Semantics) :
    ∀ count ∈ tokenCounts (Tokens.flat (CliProxyTokens.read reading value) semantics), Fits count := by
  have hit (first second : Option Json) : Fits
      (if 0 < integerOf first then integerOf first else integerOf second) := by
    split
    case isTrue => exact fits_integerOf first
    case isFalse => exact fits_integerOf second
  simp only [CliProxyTokens.read]
  cases semantics <;> simp only [Tokens.flat, tokenCounts, List.forall_mem_cons, fits_integerOf, fits_wrap,
    fits_zero, true_and, List.not_mem_nil, false_implies, implies_true, and_true]
  case subset => exact hit _ _
  case separateReasoning => exact hit _ _

theorem fits_apart (value : Json) :
    ∀ count ∈ tokenCounts (Tokens.apart (CliProxyBreakdown.read reading value)), Fits count := by
  simp only [Tokens.apart, tokenCounts, CliProxyBreakdown.read, List.forall_mem_cons, fits_integerOf,
    true_and, List.not_mem_nil, false_implies, implies_true]

theorem blocks_of_read {value : Json} (read : CliProxyRecord.read reading value = .ok record) :
    (∃ json, record.tokens = CliProxyTokens.read reading json) ∧
      ∀ breakdown, record.tokenBreakdown = some breakdown →
        ∃ json, breakdown = CliProxyBreakdown.read reading json := by
  unfold CliProxyRecord.read at read
  split at read
  case h_1 => cases read
  case h_2 =>
    cases read
    refine ⟨⟨_, rfl⟩, fun breakdown found => ?_⟩
    have ⟨json, _, same⟩ := Option.map_eq_some_iff.mp found
    exact ⟨json, same.symm⟩

/-- Whatever a record says, its counts fit 64 bits. -/
theorem fits_record {value : Json} (read : CliProxyRecord.read reading value = .ok record)
    (made : record.event reading = .ok event) : ∀ count ∈ newCounts event, Fits count := by
  have ⟨tokens, counted, counts⟩ := counts_of_event made
  have ⟨⟨flat, flat_eq⟩, apart⟩ := blocks_of_read read
  rw [counts]
  unfold CliProxyRecord.countTokens at counted
  split at counted
  case isTrue =>
    cases found : record.tokenBreakdown with
    | none =>
      rw [found] at counted
      cases counted
    | some breakdown =>
      have ⟨json, json_eq⟩ := apart breakdown found
      rw [found, json_eq] at counted
      cases counted
      exact fits_apart json
  case isFalse =>
    rw [flat_eq] at counted
    cases counted
    exact fits_flat flat _

/-- A number of the metadata's usage fits. -/
theorem fits_usage {value : Json} {usage : LiteLlm.LiteLlmAdditionalUsage}
    (read : LiteLlm.LiteLlmAdditionalUsage.read value = some usage) :
    Fits (usage.cacheReadInputTokens.getD 0) ∧ Fits (usage.cacheCreationInputTokens.getD 0) := by
  unfold LiteLlm.LiteLlmAdditionalUsage.read at read
  have ⟨member, _, taken⟩ := Option.bind_eq_some_iff.mp read
  have ⟨hits, first, later⟩ := Option.bind_eq_some_iff.mp taken
  have ⟨fills, second, built⟩ := Option.bind_eq_some_iff.mp later
  cases built
  exact ⟨fits_readInteger first, fits_readInteger second⟩

/-- So does one of the metadata, which may report no usage. -/
theorem fits_read_metadata {value : Json} {metadata : LiteLlmMetadata}
    (read : LiteLlmMetadata.read value = some metadata) :
    Fits ((metadata.additionalUsageValues.getD ⟨none, none⟩).cacheReadInputTokens.getD 0) ∧
      Fits ((metadata.additionalUsageValues.getD ⟨none, none⟩).cacheCreationInputTokens.getD 0) := by
  unfold LiteLlmMetadata.read at read
  have ⟨member, _, named⟩ := Option.bind_eq_some_iff.mp read
  have ⟨keyAlias, _, aliased⟩ := Option.bind_eq_some_iff.mp named
  have ⟨userAgent, _, sent⟩ := Option.bind_eq_some_iff.mp aliased
  have ⟨usage, reported, later⟩ := Option.bind_eq_some_iff.mp sent
  have ⟨error, _, built⟩ := Option.bind_eq_some_iff.mp later
  cases built
  unfold LiteLlm.readOptional at reported
  split at reported
  case h_1 =>
    cases reported
    exact ⟨fits_zero, fits_zero⟩
  case h_2 =>
    have ⟨counts, taken, same⟩ := Option.map_eq_some_iff.mp reported
    cases same
    exact fits_usage taken

theorem fits_metadata {reading : LiteLlm.Reading} {json : Option Json} {metadata : LiteLlmMetadata}
    (read : readMetadata reading json = .ok metadata) :
    Fits ((metadata.additionalUsageValues.getD ⟨none, none⟩).cacheReadInputTokens.getD 0) ∧
      Fits ((metadata.additionalUsageValues.getD ⟨none, none⟩).cacheCreationInputTokens.getD 0) := by
  have of_some {found : Option LiteLlmMetadata} {error : LiteLlm.LiteLlmError}
      (taken : found.elim (.error error) Except.ok = .ok metadata) : found = some metadata := by
    cases found with
    | none => cases taken
    | some other =>
      cases taken
      rfl
  unfold readMetadata at read
  split at read
  case h_1 text =>
    split at read
    case isTrue =>
      cases read
      exact ⟨fits_zero, fits_zero⟩
    case isFalse =>
      have ⟨json, _, written⟩ := Option.bind_eq_some_iff.mp (of_some read)
      exact fits_read_metadata written
  case h_2 =>
    cases read
    exact ⟨fits_zero, fits_zero⟩
  case h_3 =>
    cases read
    exact ⟨fits_zero, fits_zero⟩
  case h_4 => exact fits_read_metadata (of_some read)

/-- Whatever a row says, its counts fit 64 bits. -/
theorem fits_row {reading : LiteLlm.Reading} {row : LiteLlmRow} {value : Json}
    (read : LiteLlmRow.read reading value = some row) (made : row.event reading = .ok event) :
    ∀ count ∈ newCounts event, Fits count := by
  have ⟨metadata, described, counts⟩ := counts_of_row made
  have ⟨hits, fills⟩ := fits_metadata described
  unfold LiteLlmRow.read at read
  obtain ⟨member, _, read⟩ := Option.bind_eq_some_iff.mp read
  iterate 4 obtain ⟨_, _, read⟩ := Option.bind_eq_some_iff.mp read
  obtain ⟨total, totalRead, read⟩ := Option.bind_eq_some_iff.mp read
  obtain ⟨prompt, promptRead, read⟩ := Option.bind_eq_some_iff.mp read
  obtain ⟨completion, completionRead, read⟩ := Option.bind_eq_some_iff.mp read
  iterate 10 obtain ⟨_, _, read⟩ := Option.bind_eq_some_iff.mp read
  cases read
  rw [counts]
  simp only [List.forall_mem_cons, fits_readInteger promptRead, fits_readInteger completionRead, fits_zero,
    hits, fills, fits_getD (fits_readInteger totalRead) (fits_wrap _), true_and, List.not_mem_nil,
    false_implies, implies_true]

theorem record_of_parse {value : Json} (parsed : Accounting.parse reading value = .record event) :
    ∃ record, CliProxyRecord.read reading value = .ok record ∧ record.event reading = .ok event := by
  unfold Accounting.parse at parsed
  cases read : CliProxyRecord.read reading value with
  | error error =>
    rw [read] at parsed
    cases parsed
  | ok record =>
    simp only [read, Except.bind] at parsed
    cases made : record.event reading with
    | error error =>
      rw [made] at parsed
      cases parsed
    | ok other =>
      rw [made] at parsed
      cases parsed
      exact ⟨record, rfl, made⟩

theorem row_of_parse {reading : LiteLlm.Reading} {value : Json}
    (parsed : LiteLlm.parse reading value = .record event) :
    ∃ row, LiteLlmRow.read reading value = some row ∧ row.event reading = .ok event := by
  unfold LiteLlm.parse at parsed
  cases read : LiteLlmRow.read reading value with
  | none =>
    rw [read] at parsed
    cases parsed
  | some row =>
    simp only [read, Option.elim_some, Except.bind] at parsed
    cases made : row.event reading with
    | error error =>
      rw [made] at parsed
      cases parsed
    | ok other =>
      rw [made] at parsed
      cases parsed
      exact ⟨row, rfl, made⟩

/-- What a normalizer hands over fits 64 bits, whatever it was sent. -/
theorem Accepted.fits (accepted : Accepted event) : ∀ count ∈ newCounts event, Fits count := by
  cases accepted with
  | inl sent =>
    have ⟨reading, value, parsed⟩ := sent
    have ⟨record, read, made⟩ := record_of_parse parsed
    exact fits_record read made
  | inr sent =>
    have ⟨reading, value, parsed⟩ := sent
    have ⟨row, read, made⟩ := row_of_parse parsed
    exact fits_row read made

end MeteredUsage.Collector.Additions
