import Mathlib.Data.List.Perm.Subperm
import Mathlib.Data.Nat.Basic
import MeteredUsage.Usage.Stream

/-! One connection never carries an event twice. An event is in the replay, waits in the queue or
is still to be sent, and the ones above the replay's last are in no two of these. -/

namespace MeteredUsage.Usage.Once
open MeteredUsage.Usage.Stream MeteredUsage.Library.Execution MeteredUsage.Library.OrderedLog

/-- The events among the updates. -/
def recordedOf (updates : List UsageUpdate) : List EventId :=
  updates.filterMap fun
    | .recorded event => some event
    | .priced _ => none

/-- The rest of the replay, as far as it is read. -/
def rest (connection : Connection) : List EventId := connection.replay.getD []

/-- The events a connection may still receive live. -/
def ahead (server : Server) (connection : Connection) : List EventId :=
  recordedOf connection.queue ++ server.pending

@[simp] theorem recordedOf_enqueue_recorded (connection : Connection) (event : EventId) :
    recordedOf (connection.enqueue (.recorded event)).queue =
      recordedOf connection.queue ++ [event] := by
  simp [Connection.enqueue, recordedOf]

@[simp] theorem recordedOf_enqueue_priced (connection : Connection) (event : EventId) :
    recordedOf (connection.enqueue (.priced event)).queue = recordedOf connection.queue := by
  simp [Connection.enqueue, recordedOf]

/-- The property: no `usage` message twice in the current connection. -/
def SentOnce (server : Server) : Prop :=
  ∀ connection ∈ server.connection, connection.sent.Nodup

structure Apart (committed ahead : List EventId) (connection : Connection) : Prop where
  waiting : ∀ event ∈ ahead, event ∈ committed
  delivered : ∀ event ∈ connection.sent ++ rest connection, event ∈ committed
  unread : connection.replay = none → connection.sent = [] ∧ connection.replayedThrough = none
  distinct : ahead.Nodup
  once : (connection.sent ++ rest connection ++
    ahead.filter (passes connection.replayedThrough)).Nodup

structure Invariant (server : Server) : Prop where
  ordered : Ordered id server.committed
  stored : ∀ event ∈ server.pending, event ∈ server.committed
  pending : server.pending.Nodup
  apart : ∀ connection ∈ server.connection,
    Apart server.committed (ahead server connection) connection

theorem nodup_of_ordered {events : List EventId} (ordered : events.Pairwise (· < ·)) :
    events.Nodup :=
  ordered.imp fun below => below.ne

theorem Apart.stores {committed waiting stored : List EventId} {connection : Connection}
    (apart : Apart committed waiting connection) (ascending : stored.Pairwise (· < ·))
    (above : ∀ event ∈ stored, ∀ earlier ∈ committed, earlier < event) :
    Apart (committed ++ stored) (waiting ++ stored) connection where
  waiting := by
    intro event member
    rw [List.mem_append] at member ⊢
    exact member.imp_left (apart.waiting event)
  delivered := fun event member => List.mem_append_left _ (apart.delivered event member)
  unread := apart.unread
  distinct := by
    refine List.nodup_append.mpr ⟨apart.distinct, nodup_of_ordered ascending, ?_⟩
    intro earlier waits event new
    exact (above event new earlier (apart.waiting earlier waits)).ne
  once := by
    rw [List.filter_append, ← List.append_assoc]
    refine List.nodup_append.mpr ⟨apart.once, (nodup_of_ordered ascending).filter _, ?_⟩
    intro earlier held event new
    have old : earlier ∈ committed := by
      rcases List.mem_append.mp held with sent | waits
      · exact apart.delivered earlier sent
      · exact apart.waiting earlier (List.mem_of_mem_filter waits)
    exact (above event (List.mem_of_mem_filter new) earlier old).ne

theorem Apart.subperm {committed waiting fewer : List EventId} {connection : Connection}
    (apart : Apart committed waiting connection) (sub : fewer.Subperm waiting) :
    Apart committed fewer connection where
  waiting := fun event member => apart.waiting event (sub.subset member)
  delivered := apart.delivered
  unread := apart.unread
  distinct := by
    obtain ⟨same, perm, within⟩ := sub
    exact perm.nodup_iff.mp (apart.distinct.sublist within)
  once := by
    obtain ⟨same, perm, within⟩ := sub
    have shorter := apart.once.sublist ((within.filter _).append_left _)
    exact (((perm.filter _).append_left _).nodup_iff).mp shorter

theorem Apart.enqueue {committed waiting : List EventId} {connection : Connection}
    (apart : Apart committed waiting connection) (update : UsageUpdate) :
    Apart committed waiting (connection.enqueue update) :=
  ⟨apart.waiting, apart.delivered, apart.unread, apart.distinct, apart.once⟩

/-- A page holds every stored event from its cursor to its last one. -/
theorem mem_page {committed : List EventId} (ordered : Ordered id committed) {after last : EventId}
    (final : (page committed after).getLast? = some last) (event : EventId) :
    event ∈ page committed after ↔ event ∈ committed ∧ after < event ∧ event ≤ last := by
  have shape : page committed after =
      (committed.filter fun event => after < id event && true).take maxLimit := by
    simp [page]
  rw [shape] at final ⊢
  rw [take_eq_window ordered final, mem_window]
  simp

theorem page_subset {committed : List EventId} {after event : EventId}
    (member : event ∈ page committed after) : event ∈ committed ∧ after < event := by
  have found := List.mem_filter.mp (List.mem_of_mem_take member)
  exact ⟨found.1, of_decide_eq_true found.2⟩

theorem page_ordered {committed : List EventId} (ordered : Ordered id committed) (after : EventId) :
    (page committed after).Pairwise (· < ·) :=
  (List.Pairwise.filter _ ordered).sublist (List.take_sublist _ _)

theorem passes_some {through event : EventId} :
    passes (some through) event = true ↔ through < event := by
  simp [passes]

theorem Apart.read {committed waiting : List EventId} {connection later : Connection}
    (apart : Apart committed waiting connection) (ordered : Ordered id committed) {fails : Bool}
    (unread : connection.replay = none) (reads : connection.read committed fails = some later) :
    Apart committed waiting later := by
  obtain ⟨sent, through⟩ := apart.unread unread
  have once := apart.once
  unfold Connection.read at reads
  split at reads
  · cases reads
    refine ⟨apart.waiting, ?_, by simp, apart.distinct, ?_⟩
    · simpa [rest, unread] using apart.delivered
    · simpa [rest, unread] using once
  · rename_i after _
    split at reads
    · cases reads
    cases reads
    refine ⟨apart.waiting, ?_, by simp, apart.distinct, ?_⟩
    · simp only [rest, sent, Option.getD_some, List.nil_append]
      exact fun event member => (page_subset member).1
    · simp only [rest, sent, Option.getD_some, List.nil_append]
      refine List.nodup_append.mpr ⟨nodup_of_ordered (page_ordered ordered after),
        apart.distinct.filter _, ?_⟩
      intro replayed member event waits same
      subst same
      have passed := (List.mem_filter.mp waits).2
      cases final : (page committed after).getLast? with
      | none =>
        rw [List.getLast?_eq_none_iff.mp final] at member
        cases member
      | some last =>
        rw [final, passes_some] at passed
        exact absurd ((mem_page ordered final replayed).mp member).2.2 (not_le.mpr passed)

/-- What a message takes from the replay or from the live half, the client has received. -/
theorem Apart.take {committed waiting later : List EventId} {connection : Connection}
    {client : Client} {event : EventId} (queue : List UsageUpdate) (left : List EventId)
    (apart : Apart committed waiting connection)
    (moved : (connection.sent ++ rest connection ++
        waiting.filter (passes connection.replayedThrough)).Perm
      (connection.sent ++ [event] ++ left ++ later.filter (passes connection.replayedThrough)))
    (known : event ∈ committed) (remains : ∀ event ∈ left, event ∈ rest connection)
    (sub : later.Subperm waiting) (connection' : Connection)
    (taken : (client.take { connection with queue := queue, replay := some left } event).connection =
      some connection') :
    Apart committed later connection' := by
  cases taken
  have fewer := apart.subperm sub
  refine ⟨fewer.waiting, ?_, fun unread => absurd unread (by simp), fewer.distinct, ?_⟩
  · intro event' member
    simp only [rest, Option.getD_some, List.append_assoc, List.mem_append,
      List.mem_singleton] at member
    rcases member with sent | same | member
    · exact apart.delivered event' (List.mem_append_left _ sent)
    · exact same ▸ known
    · exact apart.delivered event' (List.mem_append_right _ (remains event' member))
  · exact moved.nodup_iff.mp apart.once

theorem apart_moved {server : Server} {client later : Client} {action : Action}
    (held : Invariant server) (moved : client.step server action = some later)
    (apart : ∀ connection ∈ client.connection,
      Apart server.committed (ahead server connection) connection) :
    ∀ connection ∈ later.connection,
      Apart server.committed (ahead server connection) connection := by
  intro connection' present'
  cases action with
  | reconnect =>
    simp only [Client.step, Option.ite_none_left_eq_some, Option.map_eq_some_iff] at moved
    obtain ⟨-, last, -, same⟩ := moved
    subst same
    cases present'
    refine ⟨held.stored, by simp [Connection.subscribe, rest], fun _ => ⟨rfl, rfl⟩, held.pending, ?_⟩
    exact held.pending.filter _
  | read fails =>
    simp only [Client.step, Option.bind_eq_some_iff, Option.ite_none_left_eq_some] at moved
    obtain ⟨connection, present, unread, same⟩ := moved
    cases same
    have queue : connection'.queue = connection.queue := by
      simp only [Option.mem_def, Connection.read] at present'
      split at present'
      · cases present'
        rfl
      · simp only [Option.ite_none_left_eq_some] at present'
        cases present'.2
        rfl
    rw [ahead, queue]
    exact (apart connection present).read held.ordered (by simpa using unread) present'
  | replay =>
    simp only [Client.step, Option.bind_eq_some_iff] at moved
    obtain ⟨connection, present, moved⟩ := moved
    split at moved
    · rename_i event left reads
      cases moved
      have whole := apart connection present
      have listed : rest connection = event :: left := by simp [rest, reads]
      refine whole.take connection.queue left ?_ ?_ ?_ ?_ connection' present'
      · rw [listed]
        cases present'
        simp [ahead]
      · exact whole.delivered event (by simp [listed])
      · simp +contextual [listed]
      · cases present'
        exact List.Subperm.refl _
    · cases moved
  | receive =>
    simp only [Client.step, Option.bind_eq_some_iff, Option.ite_none_right_eq_some,
      Client.receive] at moved
    obtain ⟨connection, present, drained, moved⟩ := moved
    have whole := apart connection present
    split at moved
    · cases moved
      cases present'
    have none_left : rest connection = [] := by simp [rest, drained]
    split at moved
    · cases moved
    · rename_i later queued
      cases moved
      cases present'
      have same : ahead server connection = ahead server { connection with queue := later } := by
        simp [ahead, queued, recordedOf]
      rw [← same]
      exact ⟨whole.waiting, whole.delivered, whole.unread, whole.distinct, whole.once⟩
    · rename_i event later queued
      have first : ahead server connection =
          event :: ahead server { connection with queue := later } := by
        simp [ahead, queued, recordedOf]
      have sub : (ahead server { connection with queue := later }).Subperm
          (ahead server connection) := by
        rw [first]
        exact (List.sublist_cons_self _ _).subperm
      split at moved
      · rename_i passed
        cases moved
        have taken : (client.take { connection with queue := later, replay := some [] }
            event).connection = some connection' := by
          rw [← drained]
          exact present'
        refine whole.take later [] ?_ ?_ (by simp) ?_ connection' taken
        · rw [none_left, first, List.filter_cons_of_pos passed]
          cases present'
          simp [ahead]
        · exact whole.waiting event (by simp [first])
        · cases present'
          exact sub
      · cases moved
        cases present'
        have fewer := whole.subperm sub
        exact ⟨fewer.waiting, fewer.delivered, fewer.unread, fewer.distinct, fewer.once⟩
  | disconnect =>
    simp only [Client.step, Option.map_eq_some_iff] at moved
    obtain ⟨-, -, same⟩ := moved
    subst same
    cases present'
  | _ => cases moved

theorem connection_broadcast (server : Server) (update : UsageUpdate) :
    (server.broadcast update).connection = server.connection.map (Connection.enqueue update) := by
  simp only [Server.connection, Server.broadcast]
  cases server.client <;> rfl

theorem connection_eq {server next : Server} (client : next.client = server.client) :
    next.connection = server.connection := by
  rw [Server.connection, Server.connection, client]

theorem invariant_step {server next : Server} {action : Action} (held : Invariant server)
    (taken : step server action = some next) : Invariant next := by
  cases effect_of_step taken with
  | stores stored ascending above committed pending client =>
    refine ⟨?_, ?_, ?_, ?_⟩
    · rw [committed]
      exact List.pairwise_append.mpr ⟨held.ordered, ascending,
        fun earlier old event new => above event new earlier old⟩
    · rw [committed, pending]
      intro event member
      rw [List.mem_append] at member ⊢
      exact member.imp_left (held.stored event)
    · rw [pending]
      refine List.nodup_append.mpr ⟨held.pending, nodup_of_ordered ascending, ?_⟩
      intro earlier waits event new
      exact (above event new earlier (held.stored earlier waits)).ne
    · rw [connection_eq client, committed]
      intro connection present
      rw [ahead, pending, ← List.append_assoc]
      exact (held.apart connection present).stores ascending above
  | leaves first last kept pending left client unheard =>
    have sub : next.pending.Sublist server.pending := by
      rw [left, pending]
      exact (List.sublist_append_left _ _).append_right _
    refine ⟨kept ▸ held.ordered, ?_, held.pending.sublist sub, ?_⟩
    · rw [kept]
      exact fun event member => held.stored event (sub.subset member)
    · rw [connection_eq client, kept]
      exact fun connection present =>
        (held.apart connection present).subperm (sub.append_left _).subperm
  | sends first last event kept closed pending left client =>
    have sub : next.pending.Sublist server.pending := by
      rw [left, pending]
      exact (List.sublist_cons_self _ _).append_left _
    refine ⟨kept ▸ held.ordered, ?_, held.pending.sublist sub, ?_⟩
    · rw [kept]
      exact fun event member => held.stored event (sub.subset member)
    · have same : next.connection = (server.broadcast (.recorded event)).connection :=
        connection_eq client
      rw [same, connection_broadcast, kept]
      intro connection present
      simp only [Option.mem_def, Option.map_eq_some_iff] at present
      obtain ⟨earlier, present, same⟩ := present
      subst same
      refine ((held.apart earlier present).subperm ?_).enqueue _
      rw [ahead, ahead, recordedOf_enqueue_recorded, left, pending, List.append_assoc,
        List.singleton_append]
      exact (List.perm_middle.symm.append_left _).subperm
  | prices event kept pending client =>
    refine ⟨kept ▸ held.ordered, kept ▸ pending ▸ held.stored, pending ▸ held.pending, ?_⟩
    have same : next.connection = (server.broadcast (.priced event)).connection :=
      connection_eq client
    rw [same, connection_broadcast, kept]
    intro connection present
    simp only [Option.mem_def, Option.map_eq_some_iff] at present
    obtain ⟨earlier, present, same⟩ := present
    subst same
    rw [ahead, recordedOf_enqueue_priced, pending]
    exact (held.apart earlier present).enqueue _
  | joins kept pending client =>
    refine ⟨kept ▸ held.ordered, kept ▸ pending ▸ held.stored, pending ▸ held.pending, ?_⟩
    rw [Server.connection, client, kept]
    rintro connection ⟨⟩
    rw [ahead, pending]
    exact ⟨held.stored, by simp [Connection.subscribe, rest], fun _ => ⟨rfl, rfl⟩, held.pending,
      held.pending.filter _⟩
  | moves client later kept pending present moved client' =>
    refine ⟨kept ▸ held.ordered, kept ▸ pending ▸ held.stored, pending ▸ held.pending, ?_⟩
    rw [Server.connection, client', kept]
    intro connection present'
    rw [ahead, pending]
    refine apart_moved held moved (fun connection here => held.apart connection ?_) connection present'
    rw [Server.connection, present]
    exact here

theorem invariant_initial : Invariant Server.initial where
  ordered := List.Pairwise.nil
  stored := by simp [Server.initial, Server.pending]
  pending := List.nodup_nil
  apart := by simp [Server.initial, Server.connection]

theorem Invariant.sentOnce {server : Server} (held : Invariant server) : SentOnce server :=
  fun connection present =>
    (held.apart connection present).once.sublist
      ((List.sublist_append_left _ _).trans (List.sublist_append_left _ _))

end MeteredUsage.Usage.Once
