import MeteredUsage.Library.Execution
import MeteredUsage.Library.OrderedLog

/-! The usage stream beside the ingest calls that feed it. A call commits its batch, may wait for
a gateway, and only then publishes; a stream replays what is stored and goes on with what was
sent since it subscribed. Event ids are minted in commit order. -/

namespace MeteredUsage.Usage.Stream
open MeteredUsage.Library.Execution MeteredUsage.Library.OrderedLog

abbrev EventId := Nat

inductive UsageUpdate where
  | recorded (event : EventId)
  /-- A cost a price fill committed. -/
  | priced (event : EventId)
deriving DecidableEq, Repr

/-- `USAGE_BACKLOG` -/
def usageBacklog : Nat := 1024

/-- `MAX_LIMIT` -/
def maxLimit : Nat := 500

inductive Phase where
  /-- Waits for the gateway's credential list. -/
  | syncing
  | publishing
  /-- Has read its events back. -/
  | sending
  | returned
deriving DecidableEq, Repr

/-- An ingest call after its commit, with the events it has still to publish. -/
structure Batch where
  phase : Phase
  stored : List EventId
deriving DecidableEq, Repr

def Batch.returned : Batch := ⟨.returned, []⟩

/-- A call of `stream_usage_events`. -/
structure Connection where
  lastEventId : Option EventId
  /-- What was sent since it subscribed and is not received yet. -/
  queue : List UsageUpdate
  /-- The rest of the replay, once it is read. -/
  replay : Option (List EventId)
  replayedThrough : Option EventId
  /-- The `usage` messages of this connection. -/
  sent : List EventId
  /-- The events that were published when it subscribed. -/
  published : List EventId
deriving DecidableEq, Repr

structure Client where
  /-- The events committed before its first connection. -/
  before : List EventId
  /-- The `usage` messages of all its connections. -/
  received : List EventId
  connection : Option Connection
deriving DecidableEq, Repr

structure Server where
  /-- The stored events, by id. -/
  committed : List EventId
  batches : List Batch
  /-- The subscribers beside the client. -/
  others : Nat
  client : Option Client
deriving DecidableEq, Repr

def Server.initial : Server := ⟨[], [], 0, none⟩

/-- `UsageEvent::page` after a cursor, unfiltered. -/
def page (committed : List EventId) (after : EventId) : List EventId :=
  (committed.filter fun event => after < event).take maxLimit

def Server.connection (server : Server) : Option Connection :=
  server.client.bind Client.connection

/-- `receiver_count` -/
def Server.receivers (server : Server) : Nat :=
  server.others + if server.connection.isSome then 1 else 0

def Server.pending (server : Server) : List EventId := server.batches.flatMap Batch.stored

def Server.published (server : Server) : List EventId :=
  server.committed.filter fun event => event ∉ server.pending

def Connection.enqueue (update : UsageUpdate) (connection : Connection) : Connection :=
  { connection with queue := connection.queue ++ [update] }

/-- `broadcast::Sender::send` -/
def Server.broadcast (server : Server) (update : UsageUpdate) : Server :=
  { server with client := server.client.map fun client =>
      { client with connection := client.connection.map (Connection.enqueue update) } }

def Server.set (server : Server) (call : Nat) (batch : Batch) : Server :=
  { server with batches := server.batches.set call batch }

inductive Action where
  | commit (stored : List EventId) (isNewCredential : Bool)
  /-- `sync_logged` answers. -/
  | synced (call : Nat)
  /-- Counts the receivers, and reads the batch back if there are any. -/
  | publish (call : Nat) (loads : Bool)
  | send (call : Nat)
  /-- A price fill publishes a cost. -/
  | price (event : EventId)
  /-- Other subscribers come and go. -/
  | others (count : Nat)
  | connect
  | reconnect
  | read (fails : Bool)
  | replay
  | receive
  | disconnect
deriving DecidableEq, Repr

/-- What a publishing batch comes to: with nobody to send to, or unreadable, it is left. -/
def Batch.publish (batch : Batch) (receivers : Nat) (loads : Bool) : Batch :=
  if receivers = 0 ∨ loads = false then .returned else { batch with phase := .sending }

def Connection.subscribe (server : Server) (lastEventId : Option EventId) : Connection :=
  ⟨lastEventId, [], none, none, [], server.published⟩

/-- The read of the replay, which only a `Last-Event-ID` asks for. -/
def Connection.read (committed : List EventId) (fails : Bool) (connection : Connection) :
    Option Connection :=
  match connection.lastEventId with
  | none => some { connection with replay := some [] }
  | some after =>
    if fails then none else
      let replayed := page committed after
      some { connection with replay := some replayed, replayedThrough := replayed.getLast? }

/-- Whether `live` passes an event on. -/
def passes (replayedThrough : Option EventId) (event : EventId) : Bool :=
  !replayedThrough.any fun through => event ≤ through

def Client.take (client : Client) (connection : Connection) (event : EventId) : Client :=
  { client with
    received := client.received ++ [event]
    connection := some { connection with sent := connection.sent ++ [event] } }

/-- A turn of `live`: a receiver that lagged ends the stream. -/
def Client.receive (client : Client) (connection : Connection) : Option Client :=
  if connection.queue.length > usageBacklog then some { client with connection := none } else
    match connection.queue with
    | [] => none
    | .priced _ :: rest => some { client with connection := some { connection with queue := rest } }
    | .recorded event :: rest =>
      let later := { connection with queue := rest }
      if passes connection.replayedThrough event then some (client.take later event)
      else some { client with connection := some later }

/-- A step of the client alone. -/
def Client.step (server : Server) (client : Client) : Action → Option Client
  | .reconnect =>
    if client.connection.isSome then none else client.received.getLast?.map fun last =>
      { client with connection := some (.subscribe server (some last)) }
  | .read fails => client.connection.bind fun connection =>
    if connection.replay.isSome then none else
      some { client with connection := connection.read server.committed fails }
  | .replay => client.connection.bind fun connection =>
    match connection.replay with
    | some (event :: rest) => some (client.take { connection with replay := some rest } event)
    | _ => none
  | .receive => client.connection.bind fun connection =>
    if connection.replay = some [] then client.receive connection else none
  | .disconnect => client.connection.map fun _ => { client with connection := none }
  | _ => none

def step (server : Server) : Action → Option Server
  | .commit stored isNewCredential =>
    if stored.Pairwise (· < ·) ∧ ∀ event ∈ stored, ∀ earlier ∈ server.committed, earlier < event then
      some { server with
        committed := server.committed ++ stored
        batches := server.batches ++ [⟨if isNewCredential then .syncing else .publishing, stored⟩] }
    else none
  | .synced call => server.batches[call]?.bind fun batch =>
    if batch.phase = .syncing then some (server.set call { batch with phase := .publishing }) else none
  | .publish call loads => server.batches[call]?.bind fun batch =>
    if batch.phase = .publishing then
      some (server.set call (batch.publish server.receivers loads)) else none
  | .send call => server.batches[call]?.bind fun batch =>
    if batch.phase = .sending then
      match batch.stored with
      | [] => some (server.set call .returned)
      | event :: rest =>
        if server.receivers = 0 then some (server.set call .returned)
        else some ((server.set call { batch with stored := rest }).broadcast (.recorded event))
    else none
  | .price event => some (server.broadcast (.priced event))
  | .others count => some { server with others := count }
  | .connect =>
    if server.client.isSome then none else
      some { server with client := some ⟨server.committed, [], some (.subscribe server none)⟩ }
  | action => server.client.bind fun client =>
    (client.step server action).map fun client => { server with client := some client }

/-- The events whose publish a step ends: the one it sends, or those it leaves unsent. -/
def closing (server : Server) : Action → List EventId
  | .publish call loads =>
    if server.receivers = 0 ∨ loads = false then ((server.batches[call]?).map Batch.stored).getD []
    else []
  | .send call =>
    let stored := ((server.batches[call]?).map Batch.stored).getD []
    if server.receivers = 0 then stored else stored.take 1
  | _ => []

/-- What a step does to the stored events, to those not yet published and to the client. -/
inductive Effect (server : Server) (action : Action) (next : Server) : Prop where
  | stores (stored : List EventId) (ascending : stored.Pairwise (· < ·))
      (above : ∀ event ∈ stored, ∀ earlier ∈ server.committed, earlier < event)
      (committed : next.committed = server.committed ++ stored)
      (pending : next.pending = server.pending ++ stored) (client : next.client = server.client)
  | leaves (first last : List EventId) (kept : next.committed = server.committed)
      (pending : server.pending = first ++ closing server action ++ last)
      (left : next.pending = first ++ last) (client : next.client = server.client)
      (unheard : server.connection.isSome → closing server action ≠ [] →
        ∃ call, action = .publish call false)
  | sends (first last : List EventId) (event : EventId) (kept : next.committed = server.committed)
      (closed : closing server action = [event]) (pending : server.pending = first ++ event :: last)
      (left : next.pending = first ++ last)
      (client : next.client = (server.broadcast (.recorded event)).client)
  | prices (event : EventId) (kept : next.committed = server.committed)
      (pending : next.pending = server.pending)
      (client : next.client = (server.broadcast (.priced event)).client)
  | joins (kept : next.committed = server.committed) (pending : next.pending = server.pending)
      (client : next.client =
        some ⟨server.committed, [], some (Connection.subscribe server none)⟩)
  | moves (client later : Client) (kept : next.committed = server.committed)
      (pending : next.pending = server.pending) (present : server.client = some client)
      (moved : client.step server action = some later) (client' : next.client = some later)

theorem pending_set {server : Server} {call : Nat} {batch : Batch} (held : server.batches[call]? = some batch)
    (other : Batch) : ∃ first last, server.pending = first ++ batch.stored ++ last ∧
      (server.set call other).pending = first ++ other.stored ++ last := by
  obtain ⟨bound, same⟩ := List.getElem?_eq_some_iff.mp held
  obtain ⟨first, last, split, -, replaced⟩ := List.exists_of_set bound
  rw [same] at split
  refine ⟨first.flatMap Batch.stored, last.flatMap Batch.stored, ?_, ?_⟩
  · rw [Server.pending, split]
    simp
  · rw [Server.pending, Server.set, replaced]
    simp

theorem receivers_pos {server : Server} (connected : server.connection.isSome) :
    server.receivers ≠ 0 := by
  simp [Server.receivers, connected]

theorem effect_of_step {server next : Server} {action : Action}
    (taken : step server action = some next) : Effect server action next := by
  cases action with
  | commit stored isNewCredential =>
    simp only [step, Option.ite_none_right_eq_some] at taken
    obtain ⟨⟨ascending, above⟩, same⟩ := taken
    cases same
    exact .stores stored ascending above rfl (by simp [Server.pending]) rfl
  | synced call =>
    simp only [step, Option.bind_eq_some_iff, Option.ite_none_right_eq_some] at taken
    obtain ⟨batch, held, -, same⟩ := taken
    cases same
    obtain ⟨first, last, pending, left⟩ := pending_set held { batch with phase := .publishing }
    refine .leaves (first ++ batch.stored) last rfl ?_ left rfl ?_
    · simpa [closing] using pending
    · exact fun _ closed => absurd rfl closed
  | publish call loads =>
    simp only [step, Option.bind_eq_some_iff, Option.ite_none_right_eq_some] at taken
    obtain ⟨batch, held, -, same⟩ := taken
    cases same
    by_cases ends : server.receivers = 0 ∨ loads = false
    · rw [Batch.publish, if_pos ends]
      obtain ⟨first, last, pending, left⟩ := pending_set held Batch.returned
      have closed : closing server (.publish call loads) = batch.stored := by
        simp [closing, ends, held]
      refine .leaves first last rfl (closed ▸ pending) (by simpa [Batch.returned] using left) rfl ?_
      intro connected _
      exact ⟨call, by rw [ends.resolve_left (receivers_pos connected)]⟩
    · rw [Batch.publish, if_neg ends]
      obtain ⟨first, last, pending, left⟩ := pending_set held { batch with phase := .sending }
      have closed : closing server (.publish call loads) = [] := by simp [closing, ends]
      refine .leaves (first ++ batch.stored) last rfl ?_ left rfl fun _ some => absurd closed some
      simpa [closed] using pending
  | send call =>
    simp only [step, Option.bind_eq_some_iff, Option.ite_none_right_eq_some] at taken
    obtain ⟨batch, held, -, taken⟩ := taken
    obtain ⟨phase, stored⟩ := batch
    cases stored with
    | nil =>
      cases taken
      obtain ⟨first, last, pending, left⟩ := pending_set held Batch.returned
      have closed : closing server (.send call) = [] := by simp [closing, held]
      refine .leaves first last rfl ?_ ?_ rfl fun _ some => absurd closed some
      · simpa [closed] using pending
      · simpa [Batch.returned] using left
    | cons event rest =>
      dsimp only at taken
      split at taken
      · rename_i nobody
        cases taken
        obtain ⟨first, last, pending, left⟩ := pending_set held Batch.returned
        have closed : closing server (.send call) = event :: rest := by
          simp [closing, held, nobody]
        refine .leaves first last rfl (closed ▸ pending) ?_ rfl ?_
        · simpa [Batch.returned] using left
        · exact fun connected _ => absurd nobody (receivers_pos connected)
      · rename_i somebody
        cases taken
        obtain ⟨first, last, pending, left⟩ := pending_set held { phase := phase, stored := rest }
        have closed : closing server (.send call) = [event] := by
          simp [closing, held, somebody]
        exact .sends first (rest ++ last) event rfl closed (by simpa using pending)
          (by simpa [Server.pending, Server.broadcast] using left) rfl
  | price event =>
    cases taken
    exact .prices event rfl rfl rfl
  | others count =>
    cases taken
    exact .leaves server.pending [] rfl (by simp [closing]) (by simp [Server.pending]) rfl
      fun _ closed => absurd rfl closed
  | connect =>
    simp only [step, Option.ite_none_left_eq_some] at taken
    cases taken.2
    exact .joins rfl rfl rfl
  | reconnect | read | replay | receive | disconnect =>
    simp only [step, Option.bind_eq_some_iff, Option.map_eq_some_iff] at taken
    obtain ⟨client, present, later, moved, same⟩ := taken
    cases same
    exact .moves client later rfl rfl present moved rfl

theorem read_cases {committed : List EventId} {connection later : Connection} {fails : Bool}
    (reads : connection.read committed fails = some later) :
    (connection.lastEventId = none ∧ later = { connection with replay := some [] }) ∨
      ∃ after, connection.lastEventId = some after ∧
        later = { connection with
          replay := some (page committed after)
          replayedThrough := (page committed after).getLast? } := by
  unfold Connection.read at reads
  split at reads
  · rename_i named
    cases reads
    exact .inl ⟨named, rfl⟩
  · rename_i after named
    simp only [Option.ite_none_left_eq_some] at reads
    cases reads.2
    exact .inr ⟨after, named, rfl⟩

end MeteredUsage.Usage.Stream
