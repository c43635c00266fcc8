import MeteredUsage.Usage.Once

/-! A stream's client names the last message it received, and is replayed what has a higher id.
That reaches every event published by then as long as no event is published behind one of a
higher id that the client was sent. -/

namespace MeteredUsage.Usage.Overtaken
open MeteredUsage.Usage.Stream MeteredUsage.Usage.Once
open MeteredUsage.Library.Execution MeteredUsage.Library.OrderedLog

/-- The `usage` messages a client has received or has waiting. -/
def given (client : Client) : List EventId :=
  client.received ++ (client.connection.map fun connection => recordedOf connection.queue).getD []

/-- No event ends its publish after one of a higher id was sent to the client, and none goes
unread while the client listens. -/
structure InOrder (server : Server) (action : Action) (client : Client) : Prop where
  above : ∀ event ∈ closing server action, event ∉ client.before →
    ∀ other ∈ given client, other < event
  loaded : ∀ call, action = .publish call false → client.connection.isSome →
    ∀ event ∈ closing server action, event ∈ client.before

/-- A client reconnects while a replay can hold what it has not received. -/
def WithinPage (server : Server) (action : Action) (client : Client) : Prop :=
  action = .reconnect → ∀ last ∈ client.received.getLast?,
    (server.committed.filter fun event => last < event).length ≤ maxLimit

def Admitted (server : Server) (action : Action) : Prop :=
  ∀ client ∈ server.client, InOrder server action client ∧ WithinPage server action client

/-- The property: an event committed since the client's first connection and published before
its present one was received, or is in the rest of the replay. -/
def Delivered (server : Server) : Prop :=
  ∀ client ∈ server.client, ∀ connection ∈ client.connection, connection.replay.isSome →
    ∀ event ∈ connection.published, event ∉ client.before →
      event ∈ client.received ∨ event ∈ rest connection

/-- What the replay has left to send, once it is read. -/
def toReplay (committed : List EventId) (connection : Connection) : List EventId :=
  match connection.replay with
  | none => (connection.lastEventId.map (page committed)).getD []
  | some replay => replay

/-- A connection leaves out nothing above its `Last-Event-ID`: what is published was received,
is still to be replayed or waits in the queue, where it follows lower ids only. -/
structure Follows (committed published received before : List EventId) (connection : Connection) :
    Prop where
  told : ∀ last ∈ connection.lastEventId, last ∈ received
  unread : connection.replay = none → connection.replayedThrough = none
  promised : ∀ event ∈ connection.published, event ∉ before →
    event ∈ received ∨ event ∈ toReplay committed connection
  coming : ∀ event ∈ published, event ∉ before →
    event ∈ received ∨ event ∈ toReplay committed connection ∨
      event ∈ recordedOf connection.queue ∧ passes connection.replayedThrough event = true
  above : ∀ event ∈ recordedOf connection.queue, event ∉ before →
    ∀ last ∈ connection.lastEventId, last < event
  whole : ∀ through ∈ connection.replayedThrough, through ∈ committed ∧
    ∀ event ∈ committed, (∀ last ∈ connection.lastEventId, last < event) → event ≤ through →
      event ∈ received ∨ event ∈ toReplay committed connection
  within : ∀ event ∈ rest connection, ∃ through ∈ connection.replayedThrough, event ≤ through
  ascending : (rest connection).Pairwise (· < ·)
  inOrder : (recordedOf connection.queue).Pairwise fun earlier event =>
    event ∉ before → earlier < event

structure Invariant (server : Server) : Prop where
  once : Once.Invariant server
  closed : ∀ client ∈ server.client, ∀ event ∈ server.published, event ∉ client.before →
    ∀ other ∈ client.received, event < other → event ∈ client.received
  follows : ∀ client ∈ server.client, ∀ connection ∈ client.connection,
    Follows server.committed server.published client.received client.before connection

theorem mem_published {server : Server} {event : EventId} :
    event ∈ server.published ↔ event ∈ server.committed ∧ event ∉ server.pending := by
  simp [Server.published]

theorem page_append_subset {committed stored : List EventId} {after event : EventId}
    (member : event ∈ page committed after) : event ∈ page (committed ++ stored) after := by
  rw [page, List.filter_append, List.take_append]
  exact List.mem_append_left _ member

theorem toReplay_append_subset {committed stored : List EventId} {connection : Connection}
    {event : EventId} (member : event ∈ toReplay committed connection) :
    event ∈ toReplay (committed ++ stored) connection := by
  unfold toReplay at member ⊢
  cases replay : connection.replay with
  | none =>
    rw [replay] at member
    cases last : connection.lastEventId with
    | none => simp [last] at member
    | some after =>
      rw [last] at member
      exact page_append_subset member
  | some rest =>
    rw [replay] at member
    exact member

section
variable {committed published received before : List EventId} {connection : Connection}

theorem Follows.stores {stored : List EventId} {published' : List EventId}
    (follows : Follows committed published received before connection)
    (above : ∀ event ∈ stored, ∀ earlier ∈ committed, earlier < event)
    (fewer : ∀ event ∈ published', event ∈ published) :
    Follows (committed ++ stored) published' received before connection where
  told := follows.told
  unread := follows.unread
  promised := fun event member new =>
    (follows.promised event member new).imp_right toReplay_append_subset
  coming := fun event member new =>
    (follows.coming event (fewer event member) new).imp_right
      (Or.imp_left toReplay_append_subset)
  above := follows.above
  whole := by
    intro through reached
    obtain ⟨known, whole⟩ := follows.whole through reached
    refine ⟨List.mem_append_left _ known, fun event member later bound => ?_⟩
    rcases List.mem_append.mp member with old | new
    · exact (whole event old later bound).imp_right toReplay_append_subset
    · exact absurd bound (not_le.mpr (above event new through known))
  within := follows.within
  ascending := follows.ascending
  inOrder := follows.inOrder

theorem Follows.leaves {published' : List EventId}
    (follows : Follows committed published received before connection)
    (fewer : ∀ event ∈ published', event ∉ before → event ∈ published) :
    Follows committed published' received before connection :=
  ⟨follows.told, follows.unread, follows.promised,
    fun event member new => follows.coming event (fewer event member new) new,
    follows.above, follows.whole, follows.within, follows.ascending, follows.inOrder⟩

theorem Follows.prices (follows : Follows committed published received before connection)
    (event : EventId) :
    Follows committed published received before (connection.enqueue (.priced event)) := by
  refine ⟨follows.told, follows.unread, follows.promised, ?_, ?_, follows.whole, follows.within,
    follows.ascending, ?_⟩
  · rw [recordedOf_enqueue_priced]
    exact follows.coming
  · rw [recordedOf_enqueue_priced]
    exact follows.above
  · rw [recordedOf_enqueue_priced]
    exact follows.inOrder

/-- An event sent above everything given is live, unless the replay has it. -/
theorem Follows.sends {published' : List EventId} {event : EventId}
    (follows : Follows committed published received before connection) (stored : event ∈ committed)
    (more : ∀ other ∈ published', other ∈ published ∨ other = event)
    (above : event ∉ before → ∀ other, other ∈ received ∨ other ∈ recordedOf connection.queue →
      other < event) :
    Follows committed published' received before (connection.enqueue (.recorded event)) := by
  refine ⟨follows.told, follows.unread, follows.promised, ?_, ?_, follows.whole, follows.within,
    follows.ascending, ?_⟩
  · intro other member new
    rw [recordedOf_enqueue_recorded]
    rcases more other member with earlier | same
    · refine (follows.coming other earlier new).imp_right (Or.imp_right fun ⟨waits, passed⟩ => ?_)
      exact ⟨List.mem_append_left _ waits, passed⟩
    subst same
    have later : ∀ last ∈ connection.lastEventId, last < other := fun last named =>
      above new last (.inl (follows.told last named))
    by_cases passed : passes connection.replayedThrough other = true
    · exact .inr (.inr ⟨by simp, passed⟩)
    · cases reached : connection.replayedThrough with
      | none => simp [passes, reached] at passed
      | some through =>
        rw [reached, passes_some, not_lt] at passed
        have found := (follows.whole through reached).2 other stored later passed
        exact found.imp_right .inl
  · intro other member new last named
    rw [recordedOf_enqueue_recorded, List.mem_append, List.mem_singleton] at member
    rcases member with earlier | same
    · exact follows.above other earlier new last named
    · rw [same] at new ⊢
      exact above new last (.inl (follows.told last named))
  · rw [recordedOf_enqueue_recorded]
    refine List.pairwise_append.mpr ⟨follows.inOrder, List.pairwise_singleton _ _, ?_⟩
    intro earlier waits other same new
    rw [List.mem_singleton.mp same] at new ⊢
    exact above new earlier (.inr waits)

/-- What a read replays is what it would have been asked for before. -/
theorem Follows.read {later : Connection} {fails : Bool}
    (follows : Follows committed published received before connection)
    (ordered : Ordered id committed) (stored : ∀ event ∈ published, event ∈ committed)
    (unread : connection.replay = none) (reads : connection.read committed fails = some later) :
    Follows committed published received before later := by
  have nothing := follows.unread unread
  have promised := follows.promised
  have coming := follows.coming
  obtain ⟨named, same⟩ | ⟨after, named, same⟩ := read_cases reads
  · subst same
    have empty : toReplay committed connection = [] := by simp [toReplay, unread, named]
    rw [empty] at promised coming
    exact ⟨follows.told, by simp, promised, coming, follows.above, by simp [nothing],
      by simp [rest], List.Pairwise.nil, follows.inOrder⟩
  · subst same
    have asked : toReplay committed connection = page committed after := by
      simp [toReplay, unread, named]
    rw [asked] at promised coming
    have whole (through : EventId) (final : (page committed after).getLast? = some through)
        (event : EventId) (member : event ∈ committed) (later : after < event)
        (bound : event ≤ through) : event ∈ page committed after :=
      (mem_page ordered final event).mpr ⟨member, later, bound⟩
    refine ⟨follows.told, by simp, promised, ?_, follows.above, ?_, ?_, page_ordered ordered after,
      follows.inOrder⟩
    · intro event member new
      rcases coming event member new with had | replayed | ⟨waits, -⟩
      · exact .inl had
      · exact .inr (.inl replayed)
      · have later : after < event := follows.above event waits new after named
        by_cases passed : passes (page committed after).getLast? event = true
        · exact .inr (.inr ⟨waits, passed⟩)
        · cases final : (page committed after).getLast? with
          | none => simp [passes, final] at passed
          | some through =>
            rw [final, passes_some, not_lt] at passed
            exact .inr (.inl (whole through final event (stored event member) later passed))
    · intro through final
      have found := (page_subset (List.mem_of_getLast? final)).1
      refine ⟨found, fun event member later bound => .inr ?_⟩
      exact whole through final event member (later after named) bound
    · intro event member
      rcases Option.eq_none_or_eq_some (page committed after).getLast? with final | ⟨through, final⟩
      · have empty : page committed after = [] := List.getLast?_eq_none_iff.mp final
        simp [rest, empty] at member
      · exact ⟨through, final, ((mem_page ordered final event).mp member).2.2⟩

theorem Follows.replay {event : EventId} {left : List EventId}
    (follows : Follows committed published received before connection)
    (replay : connection.replay = some (event :: left)) :
    Follows committed published (received ++ [event]) before
      { connection with replay := some left, sent := connection.sent ++ [event] } := by
  have listed : rest connection = event :: left := by simp [rest, replay]
  have asked : toReplay committed connection = event :: left := by simp [toReplay, replay]
  have moves {other : EventId} (had : other ∈ received ∨ other ∈ toReplay committed connection) :
      other ∈ received ++ [event] ∨ other ∈ left := by
    rw [asked, List.mem_cons] at had
    simp only [List.mem_append, List.mem_singleton]
    tauto
  refine ⟨?_, by simp, ?_, ?_, follows.above, ?_, ?_, ?_, follows.inOrder⟩
  · exact fun last named => List.mem_append_left _ (follows.told last named)
  · exact fun other member new => moves (follows.promised other member new)
  · intro other member new
    rcases follows.coming other member new with had | replayed | waits
    · exact (moves (.inl had)).imp_right .inl
    · exact (moves (.inr replayed)).imp_right .inl
    · exact .inr (.inr waits)
  · intro through reached
    obtain ⟨known, whole⟩ := follows.whole through reached
    exact ⟨known, fun other member later bound => moves (whole other member later bound)⟩
  · exact fun other member => follows.within other (listed ▸ List.mem_cons_of_mem _ member)
  · have ascending := follows.ascending
    rw [listed] at ascending
    exact (List.pairwise_cons.mp ascending).2

/-- What was published below an event being replayed was received. -/
theorem Follows.replay_closed {event other : EventId} {left : List EventId}
    (follows : Follows committed published received before connection)
    (replay : connection.replay = some (event :: left)) (member : other ∈ published)
    (new : other ∉ before) (below : other < event) : other ∈ received := by
  have listed : rest connection = event :: left := by simp [rest, replay]
  have asked : toReplay committed connection = event :: left := by simp [toReplay, replay]
  rcases follows.coming other member new with had | replayed | ⟨-, passed⟩
  · exact had
  · rw [asked, List.mem_cons] at replayed
    have ascending := follows.ascending
    rw [listed, List.pairwise_cons] at ascending
    rcases replayed with same | later
    · exact absurd same below.ne
    · exact absurd below (not_lt.mpr (ascending.1 other later).le)
  · obtain ⟨through, reached, bound⟩ := follows.within event (by simp [listed])
    rw [reached, passes_some] at passed
    exact absurd (bound.trans_lt passed) (not_lt.mpr below.le)

/-- Past an update that is dropped or that carries no event, nothing is lost. -/
theorem Follows.skip {update : UsageUpdate} {later : List UsageUpdate}
    (follows : Follows committed published received before connection)
    (queued : connection.queue = update :: later)
    (dropped : ∀ event, update = .recorded event → passes connection.replayedThrough event = false) :
    Follows committed published received before { connection with queue := later } := by
  have sub : (recordedOf later).Sublist (recordedOf connection.queue) := by
    rw [queued]
    exact (List.sublist_cons_self _ _).filterMap _
  refine ⟨follows.told, follows.unread, follows.promised, ?_, ?_, follows.whole, follows.within,
    follows.ascending, follows.inOrder.sublist sub⟩
  · intro event member new
    refine (follows.coming event member new).imp_right (Or.imp_right fun ⟨waits, passed⟩ => ?_)
    refine ⟨?_, passed⟩
    rw [queued] at waits
    cases update with
    | priced _ => exact waits
    | recorded first =>
      rcases List.mem_cons.mp waits with same | waits
      · subst same
        rw [dropped event rfl] at passed
        cases passed
      · exact waits
  · exact fun event waits => follows.above event (sub.subset waits)

theorem Follows.live {event : EventId} {later : List UsageUpdate}
    (follows : Follows committed published received before connection)
    (queued : connection.queue = .recorded event :: later) :
    Follows committed published (received ++ [event]) before
      { connection with queue := later, sent := connection.sent ++ [event] } := by
  have sub : (recordedOf later).Sublist (recordedOf connection.queue) := by
    rw [queued]
    exact (List.sublist_cons_self _ _).filterMap _
  have more {other : EventId} (had : other ∈ received) : other ∈ received ++ [event] :=
    List.mem_append_left _ had
  refine ⟨fun last named => more (follows.told last named), follows.unread, ?_, ?_, ?_, ?_,
    follows.within, follows.ascending, follows.inOrder.sublist sub⟩
  · exact fun other member new => (follows.promised other member new).imp_left more
  · intro other member new
    rcases follows.coming other member new with had | replayed | ⟨waits, passed⟩
    · exact .inl (more had)
    · exact .inr (.inl replayed)
    · rw [queued] at waits
      rcases List.mem_cons.mp waits with same | waits
      · exact .inl (by simp [same])
      · exact .inr (.inr ⟨waits, passed⟩)
  · exact fun other waits => follows.above other (sub.subset waits)
  · intro through reached
    obtain ⟨known, whole⟩ := follows.whole through reached
    exact ⟨known, fun other member later bound => (whole other member later bound).imp_left more⟩

/-- What was published below an event being received live was received. -/
theorem Follows.live_closed {event other : EventId} {later : List UsageUpdate}
    (follows : Follows committed published received before connection)
    (drained : connection.replay = some []) (queued : connection.queue = .recorded event :: later)
    (member : other ∈ published) (new : other ∉ before) (below : other < event) :
    other ∈ received := by
  have asked : toReplay committed connection = [] := by simp [toReplay, drained]
  rcases follows.coming other member new with had | replayed | ⟨waits, -⟩
  · exact had
  · rw [asked] at replayed
    cases replayed
  · have inOrder := follows.inOrder
    have shape : recordedOf connection.queue = event :: recordedOf later := by
      rw [queued]
      rfl
    rw [shape, List.pairwise_cons] at inOrder
    rw [shape, List.mem_cons] at waits
    rcases waits with same | behind
    · exact absurd same below.ne
    · exact absurd below (not_lt.mpr (inOrder.1 other behind new).le)

end

/-- A reconnect that one replay can serve is promised everything published by then. -/
theorem follows_reconnect {server : Server} {client : Client} {last : EventId}
    (closed : ∀ event ∈ server.published, event ∉ client.before →
      ∀ other ∈ client.received, event < other → event ∈ client.received)
    (named : client.received.getLast? = some last)
    (few : (server.committed.filter fun event => last < event).length ≤ maxLimit) :
    Follows server.committed server.published client.received client.before
      (.subscribe server (some last)) := by
  have had : last ∈ client.received := List.mem_of_getLast? named
  have whole : toReplay server.committed (.subscribe server (some last)) =
      server.committed.filter fun event => last < event := List.take_of_length_le few
  have promised : ∀ event ∈ server.published, event ∉ client.before → event ∈ client.received ∨
      event ∈ toReplay server.committed (.subscribe server (some last)) := by
    intro event member new
    rw [whole, List.mem_filter]
    rcases lt_trichotomy event last with below | same | later
    · exact .inl (closed event member new last had below)
    · exact .inl (same ▸ had)
    · exact .inr ⟨(mem_published.mp member).1, decide_eq_true later⟩
  refine ⟨?_, fun _ => rfl, promised, ?_, by simp [Connection.subscribe, recordedOf],
    by simp [Connection.subscribe], by simp [rest, Connection.subscribe], List.Pairwise.nil,
    List.Pairwise.nil⟩
  · rintro _ ⟨⟩
    exact had
  · exact fun event member new => (promised event member new).imp_right .inl

theorem closed_take {published received before : List EventId} {event : EventId}
    (closed : ∀ other ∈ published, other ∉ before →
      ∀ later ∈ received, other < later → other ∈ received)
    (below : ∀ other ∈ published, other ∉ before → other < event → other ∈ received) :
    ∀ other ∈ published, other ∉ before →
      ∀ later ∈ received ++ [event], other < later → other ∈ received ++ [event] := by
  intro other member new later found lower
  refine List.mem_append_left _ ?_
  rcases List.mem_append.mp found with earlier | same
  · exact closed other member new later earlier lower
  · exact below other member new (List.mem_singleton.mp same ▸ lower)

theorem invariant_moved {server : Server} {client later : Client} {action : Action}
    (held : Invariant server) (present : server.client = some client)
    (few : WithinPage server action client) (moved : client.step server action = some later) :
    later.before = client.before ∧
    (∀ event ∈ server.published, event ∉ client.before →
      ∀ other ∈ later.received, event < other → event ∈ later.received) ∧
    ∀ connection ∈ later.connection,
      Follows server.committed server.published later.received client.before connection := by
  have closed := held.closed client present
  have follows := held.follows client present
  cases action with
  | reconnect =>
    simp only [Client.step, Option.ite_none_left_eq_some, Option.map_eq_some_iff] at moved
    obtain ⟨-, last, named, same⟩ := moved
    subst same
    refine ⟨rfl, closed, ?_⟩
    rintro connection ⟨⟩
    exact follows_reconnect closed named (few rfl last named)
  | read fails =>
    simp only [Client.step, Option.bind_eq_some_iff, Option.ite_none_left_eq_some] at moved
    obtain ⟨connection, here, unread, same⟩ := moved
    cases same
    exact ⟨rfl, closed, fun later reads => (follows connection here).read held.once.ordered
      (fun event member => (mem_published.mp member).1) (by simpa using unread) reads⟩
  | replay =>
    simp only [Client.step, Option.bind_eq_some_iff] at moved
    obtain ⟨connection, here, moved⟩ := moved
    split at moved
    · rename_i event left reads
      cases moved
      refine ⟨rfl, closed_take closed fun other member new below =>
        (follows connection here).replay_closed reads member new below, ?_⟩
      rintro _ ⟨⟩
      exact (follows connection here).replay reads
    · cases moved
  | receive =>
    simp only [Client.step, Option.bind_eq_some_iff, Option.ite_none_right_eq_some,
      Client.receive] at moved
    obtain ⟨connection, here, drained, moved⟩ := moved
    split at moved
    · cases moved
      exact ⟨rfl, closed, by simp⟩
    split at moved
    · cases moved
    · rename_i left queued
      cases moved
      refine ⟨rfl, closed, ?_⟩
      rintro _ ⟨⟩
      exact (follows connection here).skip queued (by simp)
    · rename_i event left queued
      split at moved
      · cases moved
        refine ⟨rfl, closed_take closed fun other member new below =>
          (follows connection here).live_closed drained queued member new below, ?_⟩
        rintro _ ⟨⟩
        exact (follows connection here).live queued
      · rename_i dropped
        cases moved
        refine ⟨rfl, closed, ?_⟩
        rintro _ ⟨⟩
        refine (follows connection here).skip queued ?_
        rintro _ ⟨⟩
        exact Bool.not_eq_true _ ▸ dropped
  | disconnect =>
    simp only [Client.step, Option.map_eq_some_iff] at moved
    obtain ⟨-, -, same⟩ := moved
    subst same
    exact ⟨rfl, closed, by simp⟩
  | _ => cases moved

theorem invariant_step {server next : Server} {action : Action} (held : Invariant server)
    (admitted : Admitted server action) (taken : step server action = some next) :
    Invariant next := by
  have once := Once.invariant_step held.once taken
  cases effect_of_step taken with
  | stores stored ascending above committed pending client =>
    have fewer : ∀ event ∈ next.published, event ∈ server.published := by
      intro event member
      rw [mem_published, committed, pending, List.mem_append, List.mem_append, not_or] at member
      obtain ⟨known, waits, old⟩ := member
      exact mem_published.mpr ⟨known.resolve_right old, waits⟩
    refine ⟨once, ?_, ?_⟩ <;> rw [client]
    · exact fun client present event member => held.closed client present event (fewer event member)
    · rw [committed]
      exact fun client present connection here =>
        (held.follows client present connection here).stores above fewer
  | leaves first last kept pending left client unheard =>
    have fewer : ∀ event ∈ next.published,
        event ∈ server.published ∨ event ∈ closing server action := by
      intro event member
      rw [mem_published, kept, left] at member
      rw [mem_published, pending]
      simp only [List.mem_append] at member ⊢
      tauto
    refine ⟨once, ?_, ?_⟩ <;> rw [client]
    · intro client present event member new other had below
      rcases fewer event member with earlier | ended
      · exact held.closed client present event earlier new other had below
      · have above := (admitted client present).1.above event ended new other
          (List.mem_append_left _ had)
        exact absurd above (not_lt.mpr below.le)
    · intro client present connection here
      rw [kept]
      refine (held.follows client present connection here).leaves fun event member new => ?_
      refine (fewer event member).resolve_right fun ended => new ?_
      have connected : server.connection.isSome := by
        rw [Server.connection, present]
        exact Option.isSome_of_mem here
      obtain ⟨call, fails⟩ := unheard connected (List.ne_nil_of_mem ended)
      exact (admitted client present).1.loaded call fails (Option.isSome_of_mem here) event ended
  | sends first last event kept closed pending left client =>
    have stored : event ∈ server.committed := held.once.stored event (by simp [pending])
    have more : ∀ other ∈ next.published, other ∈ server.published ∨ other = event := by
      intro other member
      rw [mem_published, kept, left] at member
      rw [mem_published, pending]
      simp only [List.mem_append, List.mem_cons] at member ⊢
      tauto
    have ended : event ∈ closing server action := by simp [closed]
    refine ⟨once, ?_, ?_⟩ <;> rw [client] <;> intro later present' <;>
      obtain ⟨listener, present, same⟩ := Option.map_eq_some_iff.mp present' <;> subst same
    · intro other member new received had below
      rcases more other member with earlier | same
      · exact held.closed listener present other earlier new received had below
      · subst same
        have above := (admitted listener present).1.above other ended new received
          (List.mem_append_left _ had)
        exact absurd above (not_lt.mpr below.le)
    · intro connection' here'
      obtain ⟨connection, here, same⟩ := Option.map_eq_some_iff.mp here'
      subst same
      rw [kept]
      refine (held.follows listener present connection here).sends stored more fun new other had => ?_
      refine (admitted listener present).1.above event ended new other ?_
      simpa [given, Option.mem_def.mp here] using had
  | prices event kept pending client =>
    have same : next.published = server.published := by
      rw [Server.published, Server.published, kept, pending]
    refine ⟨once, ?_, ?_⟩ <;> rw [client, same] <;> intro later present' <;>
      obtain ⟨listener, present, shape⟩ := Option.map_eq_some_iff.mp present' <;> subst shape
    · exact held.closed listener present
    · intro connection' here'
      obtain ⟨connection, here, shape⟩ := Option.map_eq_some_iff.mp here'
      subst shape
      rw [kept]
      exact (held.follows listener present connection here).prices event
  | joins kept pending client =>
    have old : ∀ event ∈ next.published, event ∈ server.committed := by
      intro event member
      rw [mem_published, kept] at member
      exact member.1
    refine ⟨once, ?_, ?_⟩ <;> rw [client] <;> rintro _ ⟨⟩
    · simp
    · rintro connection ⟨⟩
      refine ⟨by simp [Connection.subscribe], fun _ => rfl, ?_, ?_,
        by simp [Connection.subscribe, recordedOf], by simp [Connection.subscribe],
        by simp [rest, Connection.subscribe], List.Pairwise.nil, List.Pairwise.nil⟩
      · exact fun event member new => absurd (mem_published.mp member).1 new
      · exact fun event member new => absurd (old event member) new
  | moves client later kept pending present moved client' =>
    have same : next.published = server.published := by
      rw [Server.published, Server.published, kept, pending]
    obtain ⟨before, closed, follows⟩ :=
      invariant_moved held present (admitted client present).2 moved
    refine ⟨once, ?_, ?_⟩ <;> rw [client', same] <;> rintro _ ⟨⟩ <;> rw [before]
    · exact closed
    · rw [kept]
      exact follows

theorem invariant_initial : Invariant Server.initial where
  once := Once.invariant_initial
  closed := by simp [Server.initial]
  follows := by simp [Server.initial]

theorem Invariant.delivered {server : Server} (held : Invariant server) : Delivered server := by
  intro client present connection here read event published new
  have promised := (held.follows client present connection here).promised event published new
  obtain ⟨replay, reads⟩ := Option.isSome_iff_exists.mp read
  simpa [toReplay, rest, reads] using promised

theorem admitted_of_silent {server : Server} {action : Action} (closed : closing server action = [])
    (stays : action ≠ .reconnect) : Admitted server action :=
  fun _ _ => ⟨⟨by simp [closed], by simp [closed]⟩, fun same => absurd same stays⟩

/-- No connection carries an event twice. While events are published in the order of their ids
as far as the client is concerned, it misses none. -/
theorem every_event_reaches_the_client (actions : List Action) :
    Always step SentOnce Server.initial actions ∧
      (Meets step Admitted Server.initial actions → Always step Delivered Server.initial actions) := by
  refine ⟨?_, fun met => ?_⟩
  · exact always_of_meets (fun _ held => Once.Invariant.sentOnce held)
      (fun _ _ _ held _ taken => Once.invariant_step held taken) Once.invariant_initial
      (meets_true _ actions)
  · exact always_of_meets (fun _ held => Invariant.delivered held)
      (fun _ _ _ held admitted taken => invariant_step held admitted taken) invariant_initial met

/-- Two batches whose first waits for the gateway: the client receives the second and is
disconnected before the first is published. -/
def overtaken : List Action :=
  [.connect, .commit [1] true, .commit [2] false, .publish 1 true, .send 1, .read false, .receive,
    .disconnect, .synced 0, .publish 0 true, .reconnect, .read false]

theorem an_overtaken_event_is_never_delivered :
    ∃ finish, run step Server.initial overtaken = some finish ∧ ¬Delivered finish := by
  refine ⟨_, rfl, fun delivered => ?_⟩
  have found := delivered _ rfl _ rfl rfl 1 (by decide) (by decide)
  revert found
  decide

/-- The same batches, published in the order of their commits. -/
def inTurn : List Action :=
  [.connect, .commit [1] true, .commit [2] false, .synced 0, .publish 0 true, .send 0, .read false,
    .receive, .disconnect, .publish 1 true, .reconnect, .read false, .replay]

theorem in_turn_delivered : Always step Delivered Server.initial inTurn := by
  refine (every_event_reaches_the_client inTurn).2 ?_
  have silent {server next : Server} {action : Action} {later : List Action}
      (taken : step server action = some next) (closed : closing server action = [])
      (stays : action ≠ .reconnect) (met : Meets step Admitted next later) :
      Meets step Admitted server (action :: later) :=
    meets_cons taken (admitted_of_silent closed stays) met
  refine silent rfl rfl (by decide) <| silent rfl rfl (by decide) <| silent rfl rfl (by decide) <|
    silent rfl rfl (by decide) <| silent rfl rfl (by decide) <| meets_cons rfl ?_ <|
    silent rfl rfl (by decide) <| silent rfl rfl (by decide) <| silent rfl rfl (by decide) <|
    meets_cons rfl ?_ <| meets_cons rfl ?_ <| silent rfl rfl (by decide) <|
    silent rfl rfl (by decide) trivial
  · rintro client ⟨⟩
    exact ⟨⟨by decide, by simp⟩, by simp [WithinPage]⟩
  · rintro client ⟨⟩
    exact ⟨⟨by decide, by simp⟩, by simp [WithinPage]⟩
  · rintro client ⟨⟩
    refine ⟨⟨by decide, by simp⟩, ?_⟩
    rintro - last ⟨⟩
    decide

end MeteredUsage.Usage.Overtaken
