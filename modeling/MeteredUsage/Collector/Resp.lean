import MeteredUsage.Library.Outcome
import MeteredUsage.Library.Utf8
import MeteredUsage.Store.Response

/-! The part of RESP2 that CLIProxyAPI serves on its proxy port. Commands go out as arrays of bulk
strings, and replies come back as any of the five types. -/

namespace MeteredUsage.Collector.Resp
open MeteredUsage.Library.Utf8 MeteredUsage.Library.Outcome
open MeteredUsage.Store.Response (asI64 asDigits)

abbrev Bytes := List UInt8

/-- A record is a few kilobytes. A length far above this is a stream out of step. -/
def maxBulkLength : Nat := 16 * 1024 * 1024

def maxArrayLength : Nat := 1024 * 1024

inductive Reply where
  | simple (text : String)
  | error (text : String)
  | integer (value : Int)
  | bulk (body : Option Bytes)
  | array (items : Option (List Reply))

/-- What a protocol error names. -/
inductive Problem where
  | emptyLine
  | notUtf8
  | unterminatedLine
  | unterminatedBulk
  | unknownType (kind : Char)
  | notInteger (text : String)
  | outOfRange (length : Int)
deriving DecidableEq, Repr

inductive RespError where
  | io
  /-- The server closed the connection. -/
  | closed
  | protocol (problem : Problem)
deriving DecidableEq, Repr

/-- An array header comes before its elements, so `read` collects them without recursion. -/
inductive Frame where
  | reply (reply : Reply)
  | arrayOf (length : Nat)

abbrev lineFeed : UInt8 := 10

/-- A carriage return and a line feed. -/
abbrev crlf : Bytes := [13, 10]

/-- `read_until`: the bytes up to the first such byte, or to the end of the stream. -/
def readUntil (byte : UInt8) (stream : Bytes) : Bytes × Bytes :=
  let line := stream.takeWhile (· ≠ byte)
  match stream.dropWhile (· ≠ byte) with
  | [] => (line, [])
  | last :: rest => (line ++ [last], rest)

def readLine (stream : Bytes) : Except RespError (Bytes × Bytes) :=
  let (line, rest) := readUntil lineFeed stream
  if line.length = 0 then .error .closed
  else if ¬crlf <:+ line then .error (.protocol .unterminatedLine)
  else .ok (line.take (line.length - 2), rest)

def parseInteger (text : String) : Except RespError Int :=
  match asI64 text.toList ['+'] with
  | some value => .ok value
  | none => .error (.protocol (.notInteger text))

/-- `-1` is the null bulk string or array. -/
def parseLength (text : String) (limit : Nat) : Except RespError (Option Nat) := do
  let length ← parseInteger text
  if length = -1 then return none
  else if 0 ≤ length ∧ length.toNat ≤ limit then return some length.toNat
  else .error (.protocol (.outOfRange length))

/-- `read_exact` of a body and the line end after it. -/
def readBody (length : Nat) (stream : Bytes) : Except RespError (Bytes × Bytes) :=
  let body := stream.take (length + 2)
  if body.length < length + 2 then .error .io
  else if ¬crlf <:+ body then .error (.protocol .unterminatedBulk)
  else .ok (body.take length, stream.drop (length + 2))

/-- The header's text, where it is UTF-8. -/
def readText (header : Bytes) : Except RespError String :=
  match fromUtf8 header with
  | some text => .ok text
  | none => .error (.protocol .notUtf8)

/-- What a header of some type says, and the stream after its frame. -/
def readKind (kind : UInt8) (text : String) (stream : Bytes) : Except RespError (Frame × Bytes) :=
  match Char.ofNat kind.toNat with
  | '+' => .ok (.reply (.simple text), stream)
  | '-' => .ok (.reply (.error text), stream)
  | ':' => do
    let value ← parseInteger text
    return (.reply (.integer value), stream)
  | '$' => do
    match ← parseLength text maxBulkLength with
    | none => return (.reply (.bulk none), stream)
    | some length =>
      let (body, rest) ← readBody length stream
      return (.reply (.bulk (some body)), rest)
  | '*' => do
    match ← parseLength text maxArrayLength with
    | none => return (.reply (.array none), stream)
    | some 0 => return (.reply (.array (some [])), stream)
    | some length => return (.arrayOf length, stream)
  | other => .error (.protocol (.unknownType other))

def readFrame (stream : Bytes) : Except RespError (Frame × Bytes) := do
  let (line, rest) ← readLine stream
  match line with
  | [] => .error (.protocol .emptyLine)
  | kind :: header => readKind kind (← readText header) rest

/-- The arrays still open, the innermost first, each with its elements so far and its length. -/
abbrev Open := List (List Reply × Nat)

/-- Puts a reply in the innermost open array, and closes every array that it completes. Either
the whole reply is read, or arrays are still open. -/
def close : Open → Reply → Reply ⊕ Open
  | [], reply => .inl reply
  | (items, length) :: outer, reply =>
    let items := items ++ [reply]
    if items.length < length then .inr ((items, length) :: outer)
    else close outer (.array (some items))

theorem readUntil_append (byte : UInt8) (stream : Bytes) :
    (readUntil byte stream).1 ++ (readUntil byte stream).2 = stream := by
  have whole : stream.takeWhile (· ≠ byte) ++ stream.dropWhile (· ≠ byte) = stream :=
    List.takeWhile_append_dropWhile
  unfold readUntil
  split
  next ended =>
    rw [ended] at whole
    exact whole
  next last rest found =>
    rw [found] at whole
    rw [List.append_assoc]
    exact whole

theorem readLine_shorter {stream line rest : Bytes} (read : readLine stream = .ok (line, rest)) :
    rest.length < stream.length := by
  have whole := congrArg List.length (readUntil_append lineFeed stream)
  rw [List.length_append] at whole
  unfold readLine at read
  simp only at read
  split at read
  next => cases read
  next some =>
    split at read
    next => cases read
    next =>
      cases read
      omega

theorem readBody_shorter {length : Nat} {stream body rest : Bytes}
    (read : readBody length stream = .ok (body, rest)) : rest.length ≤ stream.length := by
  unfold readBody at read
  simp only at read
  split at read
  next => cases read
  next =>
    split at read
    next => cases read
    next =>
      cases read
      rw [List.length_drop]
      omega

theorem readKind_shorter {kind : UInt8} {text : String} {stream rest : Bytes} {frame : Frame}
    (taken : readKind kind text stream = .ok (frame, rest)) : rest.length ≤ stream.length := by
  unfold readKind at taken
  split at taken
  next =>
    cases taken
    rfl
  next =>
    cases taken
    rfl
  next =>
    obtain ⟨value, _, same⟩ := bind_ok.mp taken
    cases same
    rfl
  next =>
    obtain ⟨length, _, found⟩ := bind_ok.mp taken
    cases length with
    | none =>
      cases found
      rfl
    | some length =>
      obtain ⟨body, ran, same⟩ := bind_ok.mp found
      cases same
      exact readBody_shorter ran
  next =>
    obtain ⟨length, _, found⟩ := bind_ok.mp taken
    match length with
    | none | some 0 | some (_ + 1) =>
      cases found
      rfl
  next => cases taken

theorem readFrame_shorter {stream rest : Bytes} {frame : Frame}
    (taken : readFrame stream = .ok (frame, rest)) : rest.length < stream.length := by
  obtain ⟨⟨line, after⟩, ran, found⟩ := bind_ok.mp taken
  cases line with
  | nil => cases found
  | cons kind header =>
    obtain ⟨text, _, found⟩ := bind_ok.mp found
    exact (readKind_shorter found).trans_lt (readLine_shorter ran)

/-- `Connection::read`, with the arrays opened so far. Every frame takes bytes off the stream. -/
def readFrom (opened : Open) (stream : Bytes) : Except RespError (Reply × Bytes) :=
  match _taken : readFrame stream with
  | .error error => .error error
  | .ok (.arrayOf length, rest) => readFrom (([], length) :: opened) rest
  | .ok (.reply reply, rest) =>
    match close opened reply with
    | .inl reply => .ok (reply, rest)
    | .inr opened => readFrom opened rest
termination_by stream.length
decreasing_by all_goals exact readFrame_shorter _taken

/-- `Connection::read`. -/
def read (stream : Bytes) : Except RespError (Reply × Bytes) := readFrom [] stream

/-- As many replies as are read one after another. -/
def readReplies : Nat → Bytes → Except RespError (List Reply × Bytes)
  | 0, stream => .ok ([], stream)
  | count + 1, stream => do
    let (reply, stream) ← read stream
    let (replies, stream) ← readReplies count stream
    return (reply :: replies, stream)

/-- `Connection::send`: the bytes it writes. -/
def send (arguments : List Bytes) : Bytes :=
  utf8 ("*" ++ toString arguments.length ++ "\r\n") ++ arguments.flatMap fun argument =>
    utf8 ("$" ++ toString argument.length ++ "\r\n") ++ argument ++ crlf

end MeteredUsage.Collector.Resp
