import MeteredUsage.Codec
import MeteredUsage.Library.Codes
import MeteredUsage.Library.Utf8
import MeteredUsage.Store.Events

/-! What the hash of a record is made of tells every two records apart that differ in a field it
takes: the fields are written as a code, whose words can be told from the front of any text. -/

namespace MeteredUsage.Store.RecordHash
open MeteredUsage.Values MeteredUsage.Store.Accounts MeteredUsage.Store.Events MeteredUsage.Library.Codes
open MeteredUsage.Library.Utf8

/-- The texts a `String` holds: no allocation is longer than `isize::MAX` bytes. -/
def IsText (text : String) : Prop := (utf8 text).length < 2 ^ 63

instance (text : String) : Decidable (IsText text) := inferInstanceAs (Decidable (_ < _))

/-- The events a `NewUsageEvent` holds, by the types of the fields that are hashed. -/
structure Typed (event : NewUsageEvent) : Prop where
  texts : ∀ text ∈ [event.upstreamId, event.account.upstreamKey, event.provider, event.model,
    event.endpoint], IsText text
  occurredAt : Codec.Representable event.occurredAt
  counts : ∀ count ∈ [event.inputTokens, event.outputTokens, event.reasoningTokens,
    event.cacheReadTokens, event.cacheWriteTokens, event.unclassifiedTokens, event.totalTokens,
    event.statusCode], Fits count
  measures : ∀ measure ∈ [event.latencyMs, event.ttftMs], ∀ value ∈ measure, Fits value

/-- The events agree on every field that is hashed. -/
structure Agree (first second : NewUsageEvent) : Prop where
  upstreamId : first.upstreamId = second.upstreamId
  occurredAt : first.occurredAt = second.occurredAt
  accountKey : first.account.key first.provider = second.account.key second.provider
  provider : first.provider = second.provider
  model : first.model = second.model
  endpoint : first.endpoint = second.endpoint
  inputTokens : first.inputTokens = second.inputTokens
  outputTokens : first.outputTokens = second.outputTokens
  reasoningTokens : first.reasoningTokens = second.reasoningTokens
  cacheReadTokens : first.cacheReadTokens = second.cacheReadTokens
  cacheWriteTokens : first.cacheWriteTokens = second.cacheWriteTokens
  unclassifiedTokens : first.unclassifiedTokens = second.unclassifiedTokens
  totalTokens : first.totalTokens = second.totalTokens
  statusCode : first.statusCode = second.statusCode
  failed : first.failed = second.failed
  latencyMs : first.latencyMs = second.latencyMs
  ttftMs : first.ttftMs = second.ttftMs

theorem length_leBytes (width : Nat) (value : Int) : (leBytes width value).length = width := by
  induction width generalizing value with
  | zero => rfl
  | succ width ih => rw [leBytes, List.length_cons, ih]

/-- Numbers of the same bytes differ by what the bytes do not hold. -/
theorem dvd_of_leBytes {width : Nat} {first second : Int}
    (same : leBytes width first = leBytes width second) : (256 : Int) ^ width ∣ first - second := by
  induction width generalizing first second with
  | zero => exact one_dvd _
  | succ width ih =>
    obtain ⟨byte, rest⟩ := List.cons.inj same
    obtain ⟨factor, quotient⟩ := ih rest
    have bytes := congrArg UInt8.toNat byte
    rw [UInt8.toNat_ofNat', UInt8.toNat_ofNat'] at bytes
    have digits : first % 256 = second % 256 := by omega
    refine ⟨factor, ?_⟩
    calc
      first - second = 256 * (first / 256 - second / 256) := by omega
      _ = 256 ^ (width + 1) * factor := by
        rw [quotient]
        ring

theorem leBytes_injective {first second : Int} (near : first - second < 2 ^ 64)
    (far : -2 ^ 64 < first - second) (same : leBytes 8 first = leBytes 8 second) : first = second := by
  obtain ⟨factor, difference⟩ := dvd_of_leBytes same
  omega

theorem splits_counts : Splits Fits (leBytes 8) := by
  apply splits_of_width (length_leBytes 8)
  intro first second left right same
  obtain ⟨firstLow, firstHigh⟩ := left
  obtain ⟨secondLow, secondHigh⟩ := right
  exact leBytes_injective (by omega) (by omega) same

theorem textBytes_eq (text : String) :
    textBytes text = leBytes 8 (utf8 text).length ++ utf8 text := by
  have bytes : text.toUTF8.data.toList = utf8 text := by
    change text.toByteArray.data.toList = utf8 text
    rw [← toByteArray_utf8, List.toList_data_toByteArray]
  unfold textBytes
  rw [bytes]

theorem splits_texts : Splits (fun text : String => (utf8 text).length < 2 ^ 64) textBytes := by
  have lengths : Splits (fun length : Nat => length < 2 ^ 64) fun length => leBytes 8 length := by
    refine splits_of_width (fun length : Nat => length_leBytes 8 length) ?_
    intro first second left right same
    exact Int.ofNat_inj.mp (leBytes_injective (by omega) (by omega) same)
  have texts := lengths.framed (fun text => (utf8 text).length) (fun _ _ same => same)
    fun _ _ => utf8_injective
  rw [funext textBytes_eq]
  exact texts

theorem splits_failed :
    Splits (fun _ => True) fun failed : Bool => [if failed then (1 : UInt8) else 0] := by
  apply splits_of_width fun failed : Bool => List.length_singleton
  decide

theorem splits_measures :
    Splits (fun measure : Option Int => ∀ value ∈ measure, Fits value) measureBytes := by
  have apart : (0 : UInt8) ≠ 1 := by decide
  have written : measureBytes = fun measure => measure.elim [0] fun value => 1 :: leBytes 8 value := by
    funext measure
    cases measure <;> rfl
  rw [written]
  exact splits_counts.option apart

/-- The fields that are hashed, by how they are written. -/
abbrev Fields := ((List String × List Int) × Bool) × List (Option Int)

def Fields.bytes (fields : Fields) : List UInt8 :=
  fields.1.1.1.flatMap textBytes ++ fields.1.1.2.flatMap (leBytes 8) ++
    [if fields.1.2 then 1 else 0] ++ fields.2.flatMap measureBytes

/-- As many fields of each kind as an event has, with the lengths and numbers that 64 bits hold. -/
def Fields.Fit (fields : Fields) : Prop :=
  (((fields.1.1.1.length = 6 ∧ ∀ text ∈ fields.1.1.1, (utf8 text).length < 2 ^ 64) ∧
    fields.1.1.2.length = 8 ∧ ∀ count ∈ fields.1.1.2, Fits count) ∧ True) ∧
    fields.2.length = 2 ∧ ∀ measure ∈ fields.2, ∀ value ∈ measure, Fits value

theorem splits_fields : Splits Fields.Fit Fields.bytes :=
  (((splits_texts.flatMap 6).append (splits_counts.flatMap 8)).append splits_failed).append
    (splits_measures.flatMap 2)

def fieldsOf (runtime : Sql.Runtime) (event : NewUsageEvent) : Fields :=
  ((([event.upstreamId, runtime.printTimestamp event.occurredAt, event.account.key event.provider,
        event.provider, event.model, event.endpoint],
      [event.inputTokens, event.outputTokens, event.reasoningTokens, event.cacheReadTokens,
        event.cacheWriteTokens, event.unclassifiedTokens, event.totalTokens, event.statusCode]),
      event.failed), [event.latencyMs, event.ttftMs])

theorem preimage_eq (runtime : Sql.Runtime) (event : NewUsageEvent) :
    event.preimage runtime = (fieldsOf runtime event).bytes := rfl

section Printed

variable {runtime : Sql.Runtime} (prints : ∀ instant, Codec.Representable instant →
  runtime.printTimestamp instant = Codec.stored instant)
include prints

/-- The longest texts an event hashes are no longer than a length can be written for. -/
theorem fit_of_typed {event : NewUsageEvent} (typed : Typed event) : (fieldsOf runtime event).Fit := by
  have texts := typed.texts
  simp only [List.forall_mem_cons] at texts
  obtain ⟨upstreamId, upstreamKey, provider, model, endpoint, _⟩ := texts
  unfold IsText at upstreamId upstreamKey provider model endpoint
  have instant : (utf8 (runtime.printTimestamp event.occurredAt)).length < 2 ^ 64 := by
    have short := Codec.length_stored_le event.occurredAt
    have bytes := length_utf8_le (Codec.stored event.occurredAt)
    rw [prints _ typed.occurredAt]
    omega
  have key : (utf8 (event.account.key event.provider)).length < 2 ^ 64 := by
    have unattributed : (utf8 "unattributed/").length = 13 := by decide
    unfold NewAccount.key
    split
    · rw [utf8_append, List.length_append, unattributed]
      omega
    · omega
  refine ⟨⟨⟨⟨rfl, ?_⟩, rfl, typed.counts⟩, trivial⟩, rfl, typed.measures⟩
  simp only [fieldsOf, List.forall_mem_cons]
  exact ⟨by omega, instant, key, by omega, by omega, by omega, List.forall_mem_nil _⟩

theorem fields_eq_iff {first second : NewUsageEvent} (left : Codec.Representable first.occurredAt)
    (right : Codec.Representable second.occurredAt) :
    fieldsOf runtime first = fieldsOf runtime second ↔ Agree first second := by
  have instants : runtime.printTimestamp first.occurredAt = runtime.printTimestamp second.occurredAt ↔
      first.occurredAt = second.occurredAt := by
    rw [prints _ left, prints _ right]
    exact ⟨Codec.stored_injective left right, congrArg Codec.stored⟩
  constructor
  · intro same
    simp only [fieldsOf, Prod.mk.injEq, List.cons.injEq, and_true, instants] at same
    obtain ⟨⟨⟨⟨upstreamId, occurredAt, accountKey, provider, model, endpoint⟩, input, output, reasoning,
      cacheRead, cacheWrite, unclassified, total, statusCode⟩, failed⟩, latency, ttft⟩ := same
    exact ⟨upstreamId, occurredAt, accountKey, provider, model, endpoint, input, output, reasoning,
      cacheRead, cacheWrite, unclassified, total, statusCode, failed, latency, ttft⟩
  · intro agree
    have key := agree.accountKey
    rw [agree.provider] at key
    simp only [fieldsOf, agree.upstreamId, agree.occurredAt, key, agree.provider, agree.model,
      agree.endpoint, agree.inputTokens, agree.outputTokens, agree.reasoningTokens,
      agree.cacheReadTokens, agree.cacheWriteTokens, agree.unclassifiedTokens, agree.totalTokens,
      agree.statusCode, agree.failed, agree.latencyMs, agree.ttftMs]

end Printed

/-- The hasher is given the same bytes for two events just where they agree on what is hashed. -/
theorem preimage_tells_records_apart (runtime : Sql.Runtime)
    (prints : ∀ instant, Codec.Representable instant →
      runtime.printTimestamp instant = Codec.stored instant) (first second : NewUsageEvent)
    (left : Typed first) (right : Typed second) :
    first.preimage runtime = second.preimage runtime ↔ Agree first second := by
  rw [← fields_eq_iff prints left.occurredAt right.occurredAt, preimage_eq, preimage_eq]
  exact ⟨splits_fields.injective (fit_of_typed prints left) (fit_of_typed prints right),
    congrArg Fields.bytes⟩

/-- A request of a model at an endpoint, which took seven milliseconds. -/
def requestOf (model endpoint : String) : NewUsageEvent :=
  { NewUsageEvent.idle "key" 0 with
    model := model
    endpoint := endpoint
    latencyMs := some 7 }

def printing : Sql.Runtime := { Sql.Runtime.inert with printTimestamp := Codec.stored }

theorem typed_requestOf {model endpoint : String} (left : IsText model) (right : IsText endpoint) :
    Typed (requestOf model endpoint) where
  texts := by
    have empty : IsText "" := by decide
    have key : IsText "key" := by decide
    have provider : IsText "codex" := by decide
    simp only [List.forall_mem_cons]
    exact ⟨empty, key, provider, left, right, List.forall_mem_nil _⟩
  occurredAt := by
    change -10000 < Codec.yearOfInstant 0 ∧ Codec.yearOfInstant 0 < 10000
    decide
  counts := by
    change ∀ count ∈ [0, 0, 0, 0, 0, 0, 0, 200], -2 ^ 63 ≤ count ∧ count < 2 ^ 63
    decide
  measures := by
    change ∀ measure ∈ [some (7 : Int), none], ∀ value ∈ measure, -2 ^ 63 ≤ value ∧ value < 2 ^ 63
    decide

/-- A letter moved from the end of one text to the start of the next makes other bytes. -/
theorem moved_letter_is_told :
    (requestOf "ab" "c").preimage printing ≠ (requestOf "a" "bc").preimage printing := by
  have told := preimage_tells_records_apart printing (fun _ _ => rfl) (requestOf "ab" "c")
    (requestOf "a" "bc") (typed_requestOf (by decide) (by decide))
    (typed_requestOf (by decide) (by decide))
  intro same
  exact absurd (told.mp same).model (by decide)

end MeteredUsage.Store.RecordHash
