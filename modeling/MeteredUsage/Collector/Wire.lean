import MeteredUsage.Collector.Resp

/-! The wire form of a reply, and that a reply of any depth is read back from it with no byte of
what follows. The arrays that are open while it is read are those its place is in. -/

namespace MeteredUsage.Collector.Wire
open MeteredUsage.Collector.Resp MeteredUsage.Library.Utf8 MeteredUsage.Library.Outcome
open MeteredUsage.Store.Response (asI64 asDigits)

/-- A frame's header. -/
def header (kind text : String) : Bytes := utf8 kind ++ utf8 text ++ crlf

mutual

def encode : Reply → Bytes
  | .simple text => header "+" text
  | .error text => header "-" text
  | .integer value => header ":" (toString value)
  | .bulk none => header "$" "-1"
  | .bulk (some body) => header "$" (toString body.length) ++ body ++ crlf
  | .array none => header "*" "-1"
  | .array (some items) => header "*" (toString items.length) ++ encodeAll items

def encodeAll : List Reply → Bytes
  | [] => []
  | reply :: replies => encode reply ++ encodeAll replies

end

/-- A reply that fits the protocol: numbers of 64 bits, lengths within the limits, and no line
feed in a line of text. -/
inductive Fits : Reply → Prop where
  | simple (text : String) (oneLine : '\n' ∉ text.toList) : Fits (.simple text)
  | error (text : String) (oneLine : '\n' ∉ text.toList) : Fits (.error text)
  | integer (value : Int) (least : -2 ^ 63 ≤ value) (most : value < 2 ^ 63) : Fits (.integer value)
  | nullBulk : Fits (.bulk none)
  | bulk (body : Bytes) (short : body.length ≤ maxBulkLength) : Fits (.bulk (some body))
  | nullArray : Fits (.array none)
  | array (items : List Reply) (short : items.length ≤ maxArrayLength)
      (each : ∀ item ∈ items, Fits item) : Fits (.array (some items))

theorem readUntil_found {byte : UInt8} {line : Bytes} (absent : byte ∉ line) (rest : Bytes) :
    readUntil byte (line ++ byte :: rest) = (line ++ [byte], rest) := by
  have before : ∀ other ∈ line, decide (other ≠ byte) = true := by
    intro other member
    simp only [decide_eq_true_eq]
    rintro rfl
    exact absent member
  unfold readUntil
  rw [List.dropWhile_append_of_pos before, List.takeWhile_append_of_pos before]
  simp

theorem readLine_found {line : Bytes} (absent : lineFeed ∉ line) (rest : Bytes) :
    readLine (line ++ crlf ++ rest) = .ok (line, rest) := by
  have split : line ++ crlf ++ rest = (line ++ [13]) ++ lineFeed :: rest := by simp
  have spared : lineFeed ∉ line ++ [13] := by
    rw [List.mem_append, not_or]
    exact ⟨absent, by decide⟩
  have ended : line ++ [13] ++ [lineFeed] = line ++ crlf := by simp
  unfold readLine
  rw [split, readUntil_found spared, ended]
  simp

theorem readFrame_header {kind text : String} {sign : UInt8} (spelled : utf8 kind = [sign])
    (other : sign ≠ lineFeed) (oneLine : '\n' ∉ text.toList) (rest : Bytes) :
    readFrame (header kind text ++ rest) = readKind sign text rest := by
  have absent : lineFeed ∉ sign :: utf8 text := by
    rw [List.mem_cons, not_or]
    exact ⟨other.symm, not_mem_utf8 (by decide) oneLine⟩
  unfold readFrame header
  rw [spelled, List.singleton_append, readLine_found absent]
  change (readText (utf8 text) >>= fun found => readKind sign found rest) = _
  unfold readText
  rw [fromUtf8_utf8]
  rfl

theorem asDigits_toDigits (number : Nat) : asDigits (Nat.toDigits 10 number) = some number := by
  have digits : (Nat.toDigits 10 number).all Char.isDigit = true := by
    rw [List.all_eq_true]
    exact fun digit member => Nat.isDigit_of_mem_toDigits (by decide) (by decide) member
  unfold asDigits
  rw [if_pos ⟨Nat.toDigits_ne_nil, digits⟩]
  have value : Nat.ofDigitChars 10 (Nat.toDigits 10 number) 0 = number := Nat.ofDigitChars_ten_toDigits
  rw [Nat.ofDigitChars_eq_foldl] at value
  simpa only [mul_comm] using congrArg some value

theorem sign_not_digit {digit : Char} {digits : List Char} {number : Nat}
    (spelled : Nat.toDigits 10 number = digit :: digits) : digit ≠ '-' ∧ digit ≠ '+' := by
  have isDigit : digit.isDigit = true :=
    Nat.isDigit_of_mem_toDigits (by decide) (by decide) (spelled ▸ List.mem_cons_self)
  constructor <;> rintro rfl <;> exact absurd isDigit (by decide)

theorem parseInteger_toString {value : Int} (least : -2 ^ 63 ≤ value) (most : value < 2 ^ 63) :
    parseInteger (toString value) = .ok value := by
  have ranged : (decide (-2 ^ 63 ≤ value) && decide (value < 2 ^ 63)) = true := by
    rw [Bool.and_eq_true]
    exact ⟨decide_eq_true least, decide_eq_true most⟩
  have parsed : asI64 (toString value).toList ['+'] = some value := by
    rw [Int.toString_eq_repr, Int.repr_eq_if]
    split
    next positive =>
      have digits := asDigits_toDigits value.toNat
      have same : Int.ofNat value.toNat = value := Int.toNat_of_nonneg positive
      rw [Nat.toList_repr]
      cases spelled : Nat.toDigits 10 value.toNat with
      | nil => exact absurd spelled Nat.toDigits_ne_nil
      | cons digit rest =>
        obtain ⟨minus, plus⟩ := sign_not_digit spelled
        rw [spelled] at digits
        unfold asI64
        simp only [List.mem_singleton, if_neg plus, digits, Option.map_some, same]
        rw [Option.filter_some]
        exact if_pos ranged
    next negative =>
      have digits := asDigits_toDigits (-value).toNat
      have same : -((-value).toNat : Int) = value := by omega
      rw [String.toList_append, Nat.toList_repr]
      change asI64 ('-' :: Nat.toDigits 10 (-value).toNat) ['+'] = some value
      unfold asI64
      simp only [digits]
      change (some (-((-value).toNat : Int))).filter _ = _
      rw [same, Option.filter_some]
      exact if_pos ranged
  unfold parseInteger
  rw [parsed]

theorem parseLength_toString {length limit : Nat} (short : length ≤ limit) (small : limit < 2 ^ 63) :
    parseLength (toString length) limit = .ok (some length) := by
  have parsed : parseInteger (toString (length : Int)) = .ok (length : Int) :=
    parseInteger_toString (by omega) (by omega)
  refine bind_ok.mpr ⟨length, parsed, ?_⟩
  rw [if_neg (by omega), if_pos ⟨Int.natCast_nonneg length, by simpa using short⟩]
  rfl

theorem parseLength_null (limit : Nat) : parseLength "-1" limit = .ok none := by
  have parsed : parseInteger "-1" = .ok (-1) := rfl
  exact bind_ok.mpr ⟨-1, parsed, rfl⟩

theorem readBody_found (body rest : Bytes) :
    readBody body.length (body ++ crlf ++ rest) = .ok (body, rest) := by
  have whole : (body ++ crlf).length = body.length + 2 := by simp
  unfold readBody
  rw [List.take_append_of_le_length (by omega), List.drop_append_of_le_length (by omega)]
  have taken : (body ++ crlf).take (body.length + 2) = body ++ crlf := List.take_of_length_le whole.le
  have dropped : (body ++ crlf).drop (body.length + 2) = [] := List.drop_of_length_le whole.le
  have front : (body ++ crlf ++ rest).take body.length = body := by simp
  simp [taken, dropped]

/-- A printed number is one line. -/
theorem toString_oneLine (value : Int) : '\n' ∉ (toString value).toList := by
  have spared (number : Nat) : '\n' ∉ Nat.toDigits 10 number := by
    intro member
    exact absurd (Nat.isDigit_of_mem_toDigits (by decide) (by decide) member) (by decide)
  rw [Int.toString_eq_repr, Int.repr_eq_if]
  split
  next => exact Nat.toList_repr ▸ spared _
  next =>
    rw [String.toList_append, Nat.toList_repr, List.mem_append, not_or]
    exact ⟨by decide, spared _⟩

theorem length_oneLine (length : Nat) : '\n' ∉ (toString length).toList :=
  toString_oneLine (length : Int)

/-- What is read of a reply whose place is in these open arrays, once its bytes are. -/
def placed (opened : Open) (reply : Reply) (rest : Bytes) : Except RespError (Reply × Bytes) :=
  match close opened reply with
  | .inl reply => .ok (reply, rest)
  | .inr opened => readFrom opened rest

theorem readFrom_reply {stream rest : Bytes} {reply : Reply}
    (taken : readFrame stream = .ok (.reply reply, rest)) (opened : Open) :
    readFrom opened stream = placed opened reply rest := by
  rw [readFrom, taken]
  rfl

theorem readFrom_arrayOf {stream rest : Bytes} {length : Nat}
    (taken : readFrame stream = .ok (.arrayOf length, rest)) (opened : Open) :
    readFrom opened stream = readFrom (([], length) :: opened) rest := by
  rw [readFrom, taken]

theorem readFrame_simple {text : String} (oneLine : '\n' ∉ text.toList) (rest : Bytes) :
    readFrame (header "+" text ++ rest) = .ok (.reply (.simple text), rest) :=
  (readFrame_header rfl (by decide) oneLine rest).trans rfl

theorem readFrame_error {text : String} (oneLine : '\n' ∉ text.toList) (rest : Bytes) :
    readFrame (header "-" text ++ rest) = .ok (.reply (.error text), rest) :=
  (readFrame_header rfl (by decide) oneLine rest).trans rfl

theorem readFrame_integer {value : Int} (least : -2 ^ 63 ≤ value) (most : value < 2 ^ 63)
    (rest : Bytes) :
    readFrame (header ":" (toString value) ++ rest) = .ok (.reply (.integer value), rest) := by
  rw [readFrame_header rfl (by decide) (toString_oneLine value)]
  exact bind_ok.mpr ⟨value, parseInteger_toString least most, rfl⟩

theorem readFrame_nullBulk (rest : Bytes) :
    readFrame (header "$" "-1" ++ rest) = .ok (.reply (.bulk none), rest) := by
  rw [readFrame_header rfl (by decide) (by decide)]
  exact bind_ok.mpr ⟨none, parseLength_null _, rfl⟩

theorem readFrame_bulk {body : Bytes} (short : body.length ≤ maxBulkLength) (rest : Bytes) :
    readFrame (header "$" (toString body.length) ++ (body ++ crlf ++ rest)) =
      .ok (.reply (.bulk (some body)), rest) := by
  rw [readFrame_header rfl (by decide) (length_oneLine body.length)]
  refine bind_ok.mpr ⟨some body.length, parseLength_toString short (by decide), ?_⟩
  exact bind_ok.mpr ⟨(body, rest), readBody_found body rest, rfl⟩

theorem readFrame_nullArray (rest : Bytes) :
    readFrame (header "*" "-1" ++ rest) = .ok (.reply (.array none), rest) := by
  rw [readFrame_header rfl (by decide) (by decide)]
  exact bind_ok.mpr ⟨none, parseLength_null _, rfl⟩

/-- An array without elements is whole at once. -/
theorem readFrame_array {length : Nat} (short : length ≤ maxArrayLength) (rest : Bytes) :
    readFrame (header "*" (toString length) ++ rest) =
      .ok (if length = 0 then .reply (.array (some [])) else .arrayOf length, rest) := by
  rw [readFrame_header rfl (by decide) (length_oneLine length)]
  refine bind_ok.mpr ⟨some length, parseLength_toString short (by decide), ?_⟩
  cases length <;> rfl

/-- The last elements of an array are put after those before them, and close it. -/
theorem readFrom_items {items : List Reply} (present : items ≠ [])
    (each : ∀ item ∈ items, ∀ opened rest,
      readFrom opened (encode item ++ rest) = placed opened item rest)
    (done : List Reply) (outer : Open) (rest : Bytes) :
    readFrom ((done, done.length + items.length) :: outer) (encodeAll items ++ rest) =
      placed outer (.array (some (done ++ items))) rest := by
  induction items generalizing done with
  | nil => exact absurd rfl present
  | cons item more ih =>
    rw [encodeAll, List.append_assoc, each item List.mem_cons_self]
    unfold placed
    rw [close, List.length_append, List.length_singleton, List.length_cons]
    cases more with
    | nil =>
      rw [if_neg (by simp)]
      rfl
    | cons next later =>
      rw [if_pos (by simp)]
      have following := ih (List.cons_ne_nil next later)
        (fun other member => each other (List.mem_cons_of_mem item member)) (done ++ [item])
      rw [List.length_append, List.length_singleton, List.append_assoc] at following
      rw [show done.length + ((next :: later).length + 1) =
        done.length + 1 + (next :: later).length by omega]
      exact following

/-- Reading the bytes of a reply puts it in its place and leaves what follows. -/
theorem readFrom_encode {reply : Reply} (fits : Fits reply) :
    ∀ opened rest, readFrom opened (encode reply ++ rest) = placed opened reply rest := by
  induction fits with
  | simple text oneLine => exact fun opened rest => readFrom_reply (readFrame_simple oneLine rest) opened
  | error text oneLine => exact fun opened rest => readFrom_reply (readFrame_error oneLine rest) opened
  | integer value least most =>
    exact fun opened rest => readFrom_reply (readFrame_integer least most rest) opened
  | nullBulk => exact fun opened rest => readFrom_reply (readFrame_nullBulk rest) opened
  | bulk body short =>
    intro opened rest
    rw [encode, List.append_assoc, List.append_assoc, ← List.append_assoc body]
    exact readFrom_reply (readFrame_bulk short rest) opened
  | nullArray => exact fun opened rest => readFrom_reply (readFrame_nullArray rest) opened
  | array items short each ih =>
    intro opened rest
    have taken := readFrame_array short (encodeAll items ++ rest)
    rw [encode, List.append_assoc]
    cases items with
    | nil => exact readFrom_reply taken opened
    | cons item more =>
      rw [readFrom_arrayOf taken]
      have read := readFrom_items (List.cons_ne_nil item more) ih [] opened rest
      rwa [List.length_nil, Nat.zero_add, List.nil_append] at read

/-- A reply is read back from its wire form, whatever follows it. -/
theorem read_encode {reply : Reply} (fits : Fits reply) (rest : Bytes) :
    read (encode reply ++ rest) = .ok (reply, rest) := readFrom_encode fits [] rest

theorem readReplies_encodeAll {replies : List Reply} (fits : ∀ reply ∈ replies, Fits reply)
    (rest : Bytes) : readReplies replies.length (encodeAll replies ++ rest) = .ok (replies, rest) := by
  induction replies with
  | nil => rfl
  | cons reply more ih =>
    rw [encodeAll, List.append_assoc]
    refine bind_ok.mpr ⟨(reply, encodeAll more ++ rest), read_encode (fits reply List.mem_cons_self) _, ?_⟩
    have later := ih fun other member => fits other (List.mem_cons_of_mem reply member)
    exact bind_ok.mpr ⟨(more, rest), later, rfl⟩

/-- A command is the array of its arguments as bulk strings. -/
def command (arguments : List Bytes) : Reply :=
  .array (some (arguments.map fun argument => .bulk (some argument)))

theorem encodeAll_flatMap (replies : List Reply) : encodeAll replies = replies.flatMap encode := by
  induction replies with
  | nil => rfl
  | cons reply more ih => rw [encodeAll, ih, List.flatMap_cons]

theorem send_eq (arguments : List Bytes) : send arguments = encode (command arguments) := by
  have line (kind text : String) : utf8 (kind ++ text ++ "\r\n") = header kind text := by
    rw [utf8_append, utf8_append]
    rfl
  unfold send command
  rw [encode, encodeAll_flatMap, List.flatMap_map, List.length_map, line]
  refine congrArg (header "*" _ ++ ·) ?_
  apply List.flatMap_congr
  intro argument _
  rw [encode, line]

theorem fits_command {arguments : List Bytes} (few : arguments.length ≤ maxArrayLength)
    (short : ∀ argument ∈ arguments, argument.length ≤ maxBulkLength) : Fits (command arguments) := by
  refine .array _ (by simpa using few) fun item member => ?_
  obtain ⟨argument, here, rfl⟩ := List.mem_map.mp member
  exact .bulk argument (short argument here)

/-- Every reply is read back from its wire form with nothing of what follows, so replies written one
after another are read back one after another, and a command is the array of its arguments. -/
theorem replies_read_back :
    (∀ reply, Fits reply → ∀ rest, read (encode reply ++ rest) = .ok (reply, rest)) ∧
      (∀ replies, (∀ reply ∈ replies, Fits reply) → ∀ rest,
        readReplies replies.length (replies.flatMap encode ++ rest) = .ok (replies, rest)) ∧
      ∀ arguments : List Bytes, send arguments = encode (command arguments) ∧
        (arguments.length ≤ maxArrayLength →
          (∀ argument ∈ arguments, argument.length ≤ maxBulkLength) →
          ∀ rest, read (send arguments ++ rest) = .ok (command arguments, rest)) := by
  refine ⟨fun _ => read_encode, fun replies fits rest => ?_, fun arguments => ⟨send_eq arguments, ?_⟩⟩
  · rw [← encodeAll_flatMap]
    exact readReplies_encodeAll fits rest
  · intro few short rest
    rw [send_eq]
    exact read_encode (fits_command few short) rest

/-- An array of arrays, one with elements, one without and one that is null. -/
def nested : Reply :=
  .array (some [.array (some [.bulk none, .bulk (some []), .integer (-5)]), .array (some []),
    .array none, .simple "OK"])

theorem nested_reads_back :
    Fits nested ∧ read (encode nested ++ [43]) = .ok (nested, [43]) := by
  have fits : Fits nested := by
    have inner : Fits (.array (some [.bulk none, .bulk (some []), .integer (-5)])) := by
      refine .array _ (by decide) ?_
      simp only [List.forall_mem_cons]
      exact ⟨.nullBulk, .bulk [] (by decide), .integer (-5) (by decide) (by decide), by simp⟩
    refine .array _ (by decide) ?_
    simp only [List.forall_mem_cons]
    exact ⟨inner, .array [] (by decide) (by simp), .nullArray, .simple "OK" (by decide), by simp⟩
  exact ⟨fits, replies_read_back.1 nested fits [43]⟩

end MeteredUsage.Collector.Wire
