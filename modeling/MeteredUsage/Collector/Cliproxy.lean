import MeteredUsage.Json
import MeteredUsage.Library.Execution

/-! The collector of a CLIProxy usage queue: the destructive queue upstream, the reader task
with its bounded channel, the popper, `unsaved` and the session loop. The history keeps
every payload a connection has read and everything a commit has stored. -/

namespace MeteredUsage.Collector.Cliproxy
open MeteredUsage.Values MeteredUsage.Library.Execution

abbrev Payload := List UInt8

/-- A payload received but not yet committed: parsed, or why it is not JSON. -/
abbrev Kept := Except String Json

def popCount : Nat := 512
def batchRecords : Nat := 256
/-- The capacity of the channel pushed payloads wait in. -/
def pushBacklog : Nat := 4096

/-- One of the queue's own notices. -/
def isControl : Json → Bool
  | .object [(field, _)] => field = "support_refresh" || field = "refresh"
  | _ => false

/-- An element of the array that answers a pop. -/
inductive Frame where
  | bulk (payload : Payload)
  /-- Any other type of reply in a record's place. -/
  | other
deriving DecidableEq, Repr

def Frame.payload : Frame → Option Payload
  | .bulk bytes => some bytes
  | .other => none

/-- What the reader sends through the channel. -/
inductive Arrival where
  | payload (payload : Payload)
  | failure
deriving DecidableEq, Repr

def Arrival.read : Arrival → Option Payload
  | .payload bytes => some bytes
  | .failure => none

inductive Reader where
  | reading
  /-- An arrival read from the subscription and not yet in the channel. -/
  | sending (arrival : Arrival)
  | stopped
deriving DecidableEq, Repr

inductive Stage where
  /-- `store` before the popper connects. -/
  | resuming
  | connecting
  /-- A pop is sent, its answer outstanding. -/
  | popping
  /-- An array answers the pop: the elements read so far and those still to come. -/
  | reading (read left : List Frame)
  /-- `store` after a popped batch. -/
  | storing
  | receiving
  | batching
  /-- `store` after a pushed batch. -/
  | flushing
deriving DecidableEq, Repr

structure Session where
  reader : Reader
  channel : List Arrival
  stage : Stage
deriving DecidableEq, Repr

structure Intake where
  buffered : List Payload
  /-- The pushes on their way to the subscription, while there is one. -/
  subscription : Option (List Payload)
  session : Option Session
  unsaved : List Kept
  received : List Payload
  committed : List Kept

def Intake.initial : Intake := ⟨[], none, none, [], [], []⟩

/-- How a `store` of a non-empty `unsaved` ends. -/
inductive Stored where
  | committed
  /-- The commit succeeded and the write of the progress failed. -/
  | unannounced
  | failed
deriving DecidableEq, Repr

inductive Event where
  | publish (payload : Payload)
  /-- The subscription is confirmed. -/
  | subscribe
  /-- The progress is written and the reader spawned. -/
  | spawn
  /-- The attempt to subscribe or to write the progress failed. -/
  | refuse
  | push
  /-- The subscription broke, or pushed what is no message. -/
  | pushFails
  | send
  | store (outcome : Stored)
  | connect
  | answer (frames : List Frame)
  | element
  | keepPopped
  /-- The popper could not connect, broke, or was answered with no array. -/
  | popperFails
  | receive
  | flush
deriving DecidableEq, Repr

/-- The session ends with an error: its reader, its channel and its popper go with it. -/
def Intake.close (intake : Intake) : Intake :=
  { intake with subscription := none, session := none }

def Intake.advance (intake : Intake) (session : Session) (stage : Stage) : Intake :=
  { intake with session := some { session with stage := stage } }

/-- The payloads of the elements before the first that is no bulk string. -/
def leading (frames : List Frame) : List Payload :=
  (frames.takeWhile fun frame => frame.payload.isSome).filterMap Frame.payload

/-- The payloads of the elements from there on. -/
def trailing (frames : List Frame) : List Payload :=
  (frames.dropWhile fun frame => frame.payload.isSome).filterMap Frame.payload

/-- Where the session goes on after its `store`. -/
def Stage.stored : Stage → Option Stage
  | .resuming => some .connecting
  | .storing => some .popping
  | .flushing => some .receiving
  | _ => none

section
variable (decode : Payload → Except String Json)

/-- What `keep` holds of a payload for the next commit. -/
def kept (payload : Payload) : Option Kept :=
  match decode payload with
  | .ok value => if isControl value then none else some (.ok value)
  | .error error => some (.error s!"the payload is not JSON: {error}")

def keep (unsaved : List Kept) (payload : Payload) : List Kept :=
  unsaved ++ (kept decode payload).toList

/-- `store`: nothing to do when nothing is unsaved, else one commit of all of it. -/
def store (intake : Intake) (session : Session) (next : Stage) : Stored → Option Intake
  | .committed => some
      ({ intake with unsaved := [], committed := intake.committed ++ intake.unsaved }.advance
        session next)
  | .unannounced => if intake.unsaved.isEmpty then none else some
      { intake with
        unsaved := [], committed := intake.committed ++ intake.unsaved }.close
  | .failed => if intake.unsaved.isEmpty then none else some intake.close

def step (intake : Intake) : Event → Option Intake
  | .publish payload => some (match intake.subscription with
    | some pushes => { intake with subscription := some (pushes ++ [payload]) }
    | none => { intake with buffered := intake.buffered ++ [payload] })
  | .subscribe =>
    if intake.session.isSome ∨ intake.subscription.isSome then none
    else some { intake with subscription := some [] }
  | .spawn =>
    if intake.session.isSome ∨ intake.subscription.isNone then none
    else some { intake with session := some ⟨.reading, [], .resuming⟩ }
  | .refuse =>
    if intake.session.isSome then none else some { intake with subscription := none }
  | .push => intake.session.bind fun session =>
    match session.reader, intake.subscription with
    | .reading, some (payload :: pushes) => some { intake with
        subscription := some pushes
        session := some { session with reader := .sending (.payload payload) }
        received := intake.received ++ [payload] }
    | _, _ => none
  | .pushFails => intake.session.bind fun session =>
    if session.reader = .reading then
      some { intake with session := some { session with reader := .sending .failure } }
    else none
  | .send => intake.session.bind fun session =>
    match session.reader with
    | .sending arrival =>
      if session.channel.length < pushBacklog then
        some { intake with session := some { session with
          channel := session.channel ++ [arrival]
          reader := if arrival = .failure then .stopped else .reading } }
      else none
    | _ => none
  | .store outcome => intake.session.bind fun session =>
    session.stage.stored.bind fun next => store intake session next outcome
  | .connect => intake.session.bind fun session =>
    if session.stage = .connecting then some (intake.advance session .popping) else none
  | .answer frames => intake.session.bind fun session =>
    let popped := frames.filterMap Frame.payload
    if session.stage = .popping ∧ popped.length ≤ popCount ∧ popped <+: intake.buffered then
      some ({ intake with buffered := intake.buffered.drop popped.length }.advance session
        (.reading [] frames))
    else none
  | .element => intake.session.bind fun session =>
    match session.stage with
    | .reading read (frame :: left) => some
        ({ intake with received := intake.received ++ frame.payload.toList }.advance session
          (.reading (read ++ [frame]) left))
    | _ => none
  | .keepPopped => intake.session.bind fun session =>
    match session.stage with
    | .reading read [] =>
      let unsaved := (leading read).foldl (keep decode) intake.unsaved
      if read = [] then some (intake.advance session .receiving)
      else if read.any fun frame => frame.payload.isNone then
        some { intake with unsaved := unsaved }.close
      else some ({ intake with unsaved := unsaved }.advance session .storing)
    | _ => none
  | .popperFails => intake.session.bind fun session =>
    match session.stage with
    | .connecting | .popping | .reading _ (_ :: _) => some intake.close
    | _ => none
  | .receive => intake.session.bind fun session =>
    if session.stage = .receiving ∨
        session.stage = .batching ∧ intake.unsaved.length < batchRecords then
      match session.channel with
      | .payload payload :: waiting => some
          ({ intake with unsaved := keep decode intake.unsaved payload }.advance
            { session with channel := waiting } .batching)
      | .failure :: _ => some intake.close
      | [] => if session.reader = .stopped then some intake.close else none
    else none
  | .flush => intake.session.bind fun session =>
    if session.stage = .batching then some (intake.advance session .flushing) else none

end

end MeteredUsage.Collector.Cliproxy
