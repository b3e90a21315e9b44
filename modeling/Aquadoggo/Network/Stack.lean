import Aquadoggo.Network.Behaviour
import Aquadoggo.Replication.ServiceSends

/-! The node as `aquadoggo` runs it: libp2p's swarm with the peers behaviour and the network
event loop (`network/service.rs`), the replication service (`replication/service.rs`), and the
service bus between them (`bus.rs`). The bus is a broadcast channel: both services read every
message, in the order it was sent. The event loop passes on only the messages for peers, and the
replication service takes the connection events and the messages of peers. -/
namespace Aquadoggo.Replication

/-- Whether an event of the replication service's loop is a message of the bus. -/
def ServiceEvent.fromBus {I : Type} : ServiceEvent I → Bool
  | .bus .. => true
  | _ => false

/-- A schema added or a beat of the scheduler is allowed at any time and changes no connection. -/
theorem ServiceEvent.neutral_of_fromBus {I : Type} [DecidableEq I] {event : ServiceEvent I}
    (hevent : event.fromBus = false) (connections : List (Network.Peer I)) :
    event.Allowed connections ∧ event.connections connections = connections := by
  cases event with
  | bus => cases hevent
  | schemaAdded | tick => exact ⟨trivial, rfl⟩

end Aquadoggo.Replication

namespace Aquadoggo.Network

open Library Replication

variable {I : Type}

/-- Whatever the replication service sends a peer is none of the network's messages. -/
theorem ServiceMessage.AddressedWithin.fromNetwork {connections : List (Peer I)}
    {message : ServiceMessage I} (h : message.AddressedWithin connections) :
    message.fromNetwork = false := by
  cases message <;> first | rfl | exact absurd h id

/-- What happens next in the node: a report of libp2p, a `poll` of the event loop, a service
reading the bus, or the replication service woken up by its scheduler or its schema provider. -/
inductive StackEvent (I : Type) where
  | swarm (label : SwarmLabel I)
  | poll
  | networkReads
  | serviceReads (now : Nat) (order : Shuffle (Peer I)) (shuffle : Shuffle (Peer I × SchemaIdSet))
  | serviceWakes (event : ServiceEvent I)

structure Stack (I : Type) where
  swarm : Swarm I
  node : Node I
  bus : List (ServiceMessage I)
  /-- How many messages of the bus the event loop and the replication service have read. -/
  networkRead : Nat
  serviceRead : Nat

namespace Stack

variable [DecidableEq I] [LT I] [DecidableRel (α := I) (· < ·)] [ToString I] [LinearOrder SchemaId]

/-- Both services started: no connection, nothing on the bus. -/
def start (store : Db) (ingest : SyncIngest) (localPeerId : I) (supportedSchemaIds : List SchemaId)
    (now : Nat) : Stack I :=
  ⟨Swarm.start, Node.start store ingest localPeerId supportedSchemaIds now, [], 0, 0⟩

/-- A turn of the replication service's loop on `event`: what it sends goes on the bus. -/
def serviceTurn (stack : Stack I) (event : ServiceEvent I) (manager : ConnectionManager I)
    (sent : List (ServiceMessage I)) : Stack I :=
  { stack with
    node := ⟨manager, event.connections stack.node.connections, stack.node.sent ++ sent⟩
    bus := stack.bus ++ sent }

inductive Step : Stack I → StackEvent I → Stack I → Prop where
  /-- libp2p reports a connection opened or closed, or a message of a connection's handler. -/
  | swarm {stack : Stack I} {label : SwarmLabel I} {swarm : Swarm I}
      (hreport : label.busMessage.isSome) (hstep : Swarm.Step stack.swarm label swarm) :
      Step stack (.swarm label) { stack with swarm }
  /-- The event loop polls the behaviour, and sends the event it gets on the bus. -/
  | poll {stack : Stack I} {behaviour : Behaviour I} {event : ToSwarm I}
      (hpoll : stack.swarm.behaviour.poll = (behaviour, .ready event)) :
      Step stack .poll { stack with
        swarm := { stack.swarm with behaviour }.deliver event
        bus := stack.bus ++ event.busMessage.toList }
  /-- The event loop reads the next message of the bus. -/
  | networkReads {stack : Stack I} {message : ServiceMessage I}
      (hnext : stack.bus[stack.networkRead]? = some message) :
      Step stack .networkReads { stack with
        swarm := { stack.swarm with
          behaviour := EventLoop.handleServiceMessage stack.swarm.behaviour message }
        networkRead := stack.networkRead + 1 }
  /-- The replication service reads the next message of the bus. -/
  | serviceReads {stack : Stack I} {message : ServiceMessage I} {now : Nat}
      {order : Shuffle (Peer I)} {shuffle : Shuffle (Peer I × SchemaIdSet)}
      {manager : ConnectionManager I} {sent : List (ServiceMessage I)}
      (hnext : stack.bus[stack.serviceRead]? = some message)
      (h : stack.node.manager.handle (.bus message now order shuffle) = some (manager, sent)) :
      Step stack (.serviceReads now order shuffle)
        { stack.serviceTurn (.bus message now order shuffle) manager sent with
        serviceRead := stack.serviceRead + 1 }
  /-- The replication service wakes up for a schema added or a beat of the scheduler. -/
  | serviceWakes {stack : Stack I} {event : ServiceEvent I} {manager : ConnectionManager I}
      {sent : List (ServiceMessage I)} (hevent : event.fromBus = false)
      (h : stack.node.manager.handle event = some (manager, sent)) :
      Step stack (.serviceWakes event) (stack.serviceTurn event manager sent)

/-- What the stack keeps along its runs: the swarm and the replication service are where runs
of their own lead, the bus holds the messages of each service in the order it sent them, the
notifications of the swarm are those of the messages the event loop read, and the service's
connections are those of the connection events it read. -/
structure Consistent (init : Node I) (stack : Stack I) : Prop where
  swarm : ∃ labels, Run Swarm.Step Swarm.start labels stack.swarm
  node : Reachable Node.Step init stack.node
  network : stack.bus.filter ServiceMessage.fromNetwork = stack.swarm.bus
  service : stack.bus.filter (!·.fromNetwork) = stack.node.sent
  networkRead_le : stack.networkRead ≤ stack.bus.length
  serviceRead_le : stack.serviceRead ≤ stack.bus.length
  notifications : stack.swarm.notifications =
    (stack.bus.take stack.networkRead).filterMap ServiceMessage.notification
  connections : (stack.bus.take stack.serviceRead).foldl ServiceMessage.connections [] =
    stack.node.connections

variable {init : Node I} {stack next : Stack I} {step : StackEvent I}

/-- The next message the replication service reads is one libp2p allows: the bus is the event
loop's messages, which relay the swarm's reports, with the service's own in between, which
change no connection. -/
theorem Consistent.allowed (h : Consistent init stack) {message : ServiceMessage I}
    (hnext : stack.bus[stack.serviceRead]? = some message) :
    message.Allowed stack.node.connections := by
  obtain ⟨labels, run⟩ := h.swarm
  have hnetwork := (Swarm.relays_of_run run).bus_validFrom
  rw [← h.network] at hnetwork
  have hbus := hnetwork.of_filter fun connections _ hmessage =>
    ServiceMessage.neutral_of_fromNetwork hmessage connections
  obtain ⟨hread, rfl⟩ := List.getElem?_eq_some_iff.mp hnext
  rw [← h.connections]
  exact hbus.getElem hread

/-- The replication service of a consistent stack steps as `Node.Step` does, or stays. -/
theorem Consistent.step_node (h : Consistent init stack) (hstep : Step stack step next) :
    next.node = stack.node ∨ ∃ event, Node.Step stack.node event next.node := by
  cases hstep with
  | swarm | poll | networkReads => exact Or.inl rfl
  | serviceReads hnext hhandle => exact Or.inr ⟨_, Node.Step.handle (h.allowed hnext) hhandle⟩
  | serviceWakes hevent hhandle =>
    exact Or.inr ⟨_, Node.Step.handle (ServiceEvent.neutral_of_fromBus hevent _).1 hhandle⟩

/-- A turn of the replication service keeps the stack consistent, with the service's read count
moved to `read`. -/
theorem Consistent.serviceTurn {store : Db} {ingest : SyncIngest} {localPeerId : I}
    {supportedSchemaIds : List SchemaId} {now : Nat}
    (h : Consistent (Node.start store ingest localPeerId supportedSchemaIds now) stack)
    {event : ServiceEvent I} {manager : ConnectionManager I} {sent : List (ServiceMessage I)}
    (hallowed : event.Allowed stack.node.connections)
    (hhandle : stack.node.manager.handle event = some (manager, sent)) {read : Nat}
    (hread : read ≤ stack.bus.length)
    (hconnections : (stack.bus.take read).foldl ServiceMessage.connections [] =
      event.connections stack.node.connections) :
    Consistent (Node.start store ingest localPeerId supportedSchemaIds now)
      { stack.serviceTurn event manager sent with serviceRead := read } := by
  -- Everything the service sends is for a peer, so none of it is the network's.
  have hsent : ∀ message ∈ sent, message.fromNetwork = false := fun message hmessage =>
    ServiceMessage.AddressedWithin.fromNetwork
      ((Node.tracks_of_reachable h.node).handle_addressed hallowed hhandle message hmessage)
  refine ⟨h.swarm, h.node.tail (Node.Step.handle hallowed hhandle), ?_, ?_, ?_, ?_, ?_, ?_⟩
  · rw [Stack.serviceTurn, List.filter_append, h.network, List.filter_eq_nil_iff.mpr (by simpa using hsent),
      List.append_nil]
  · rw [Stack.serviceTurn, List.filter_append, h.service, List.filter_eq_self.mpr (by simpa using hsent)]
  · simp only [Stack.serviceTurn, List.length_append]
    exact Nat.le_add_right_of_le h.networkRead_le
  · simp only [Stack.serviceTurn, List.length_append]
    exact Nat.le_add_right_of_le hread
  · simp only [Stack.serviceTurn]
    rw [List.take_append_of_le_length h.networkRead_le]
    exact h.notifications
  · simp only [Stack.serviceTurn]
    rw [List.take_append_of_le_length hread]
    exact hconnections

/-- A step of the swarm that adds `new`, all the network's, to the bus. -/
theorem Consistent.swarmStep (h : Consistent init stack) {label : SwarmLabel I} {swarm : Swarm I}
    (hstep : Swarm.Step stack.swarm label swarm) {new : List (ServiceMessage I)}
    (hnew : swarm.bus = stack.swarm.bus ++ new) (hfrom : ∀ message ∈ new, message.fromNetwork = true)
    {bus : List (ServiceMessage I)} (hbus : bus = stack.bus ++ new) {read : Nat}
    (hread : read ≤ stack.bus.length)
    (hnotifications : stack.swarm.notifications ++ label.notification.toList =
      (bus.take read).filterMap ServiceMessage.notification) :
    Consistent init { stack with swarm, bus, networkRead := read } := by
  subst hbus
  obtain ⟨labels, run⟩ := h.swarm
  refine ⟨⟨_, run.snoc hstep⟩, h.node, ?_, ?_, ?_, ?_, ?_, ?_⟩
  · rw [List.filter_append, h.network, List.filter_eq_self.mpr hfrom, hnew]
  · rw [List.filter_append, h.service, List.filter_eq_nil_iff.mpr (by simpa using hfrom),
      List.append_nil]
  · simp only [List.length_append]
    exact Nat.le_add_right_of_le hread
  · simp only [List.length_append]
    exact Nat.le_add_right_of_le h.serviceRead_le
  · rw [Swarm.notifications_step run hstep]
    exact hnotifications
  · rw [List.take_append_of_le_length h.serviceRead_le]
    exact h.connections

variable {store : Db} {ingest : SyncIngest} {localPeerId : I} {supportedSchemaIds : List SchemaId}
  {now : Nat}

theorem consistent_start (store : Db) (ingest : SyncIngest) (localPeerId : I)
    (supportedSchemaIds : List SchemaId) (now : Nat) :
    Consistent (Node.start store ingest localPeerId supportedSchemaIds now)
      (start store ingest localPeerId supportedSchemaIds now) :=
  ⟨⟨[], Run.nil _⟩, Reachable.init _, rfl, rfl, le_rfl, le_rfl, rfl, rfl⟩

theorem consistent_step
    (h : Consistent (Node.start store ingest localPeerId supportedSchemaIds now) stack)
    (hstep : Step stack step next) :
    Consistent (Node.start store ingest localPeerId supportedSchemaIds now) next := by
  cases hstep with
  | @swarm label swarm hreport hswarm =>
    -- A report only queues an event: nothing new on the bus, no notification.
    have hnotification : label.notification = none := by
      cases label <;> first | rfl | cases hreport
    have hbus : swarm.bus = stack.swarm.bus ++ [] := by
      rw [hswarm.bus_of_report hreport, List.append_nil]
    refine h.swarmStep hswarm hbus (by simp) (List.append_nil _).symm h.networkRead_le ?_
    rw [hnotification, Option.toList_none, List.append_nil]
    exact h.notifications
  | @poll behaviour event hpoll =>
    refine h.swarmStep (Swarm.Step.poll hpoll) (Swarm.deliver_bus _ _) (fun message hmessage => ?_)
      rfl h.networkRead_le ?_
    · exact ToSwarm.fromNetwork_of_busMessage (Option.mem_toList.mp hmessage)
    · rw [List.take_append_of_le_length h.networkRead_le, ← h.notifications]
      simp [SwarmLabel.notification]
  | @networkReads message hnext =>
    -- The event loop reads the message it notifies a handler of.
    have hbus : stack.swarm.bus = stack.swarm.bus ++ [] := (List.append_nil _).symm
    refine h.swarmStep (Swarm.Step.serviceMessage message) hbus (by simp) (List.append_nil _).symm
      (List.getElem?_eq_some_iff.mp hnext).1 ?_
    rw [List.take_add_one, hnext, List.filterMap_append, ← h.notifications]
    cases message.notification <;> rfl
  | @serviceReads message now order shuffle manager sent hnext hhandle =>
    have hallowed : (ServiceEvent.bus message now order shuffle).Allowed stack.node.connections :=
      h.allowed hnext
    refine h.serviceTurn hallowed hhandle (List.getElem?_eq_some_iff.mp hnext).1 ?_
    rw [List.take_add_one, hnext, Option.toList_some, List.foldl_append, h.connections]
    rfl
  | serviceWakes hevent hhandle =>
    obtain ⟨hallowed, hconnections⟩ := ServiceEvent.neutral_of_fromBus hevent stack.node.connections
    exact h.serviceTurn hallowed hhandle h.serviceRead_le (h.connections.trans hconnections.symm)

theorem consistent_of_reachable
    (hreach : Reachable Step (start store ingest localPeerId supportedSchemaIds now) stack) :
    Consistent (Node.start store ingest localPeerId supportedSchemaIds now) stack :=
  hreach.invariant _ (fun _ _ _ h hstep => consistent_step h hstep)
    (consistent_start store ingest localPeerId supportedSchemaIds now)

/-- From its start, the node runs its replication service along `Node.Step` alone: every message
the service reads off the bus is one libp2p allows, so whatever holds along `Node.Step` holds of
the service in the node. Each step of the node moves the service by one such step or leaves it. -/
theorem reachable_stack_refines_node
    (hreach : Reachable Step (start store ingest localPeerId supportedSchemaIds now) stack) :
    Reachable Node.Step (Node.start store ingest localPeerId supportedSchemaIds now) stack.node ∧
      ∀ step next, Step stack step next →
        next.node = stack.node ∨ ∃ event, Node.Step stack.node event next.node := by
  have h := consistent_of_reachable hreach
  exact ⟨h.node, fun _ _ hstep => h.step_node hstep⟩

/-- Once the replication service has read the whole bus and the behaviour queues no event for
it, the connection manager holds a peer entry for exactly the connections libp2p has open. -/
theorem drained_stack_tracks_swarm_connections
    (hreach : Reachable Step (start store ingest localPeerId supportedSchemaIds now) stack)
    (hread : stack.serviceRead = stack.bus.length)
    (hqueue : stack.swarm.behaviour.events.filterMap ToSwarm.busMessage = []) :
    stack.node.manager.peers.map (·.1) = stack.swarm.connections := by
  have h := consistent_of_reachable hreach
  obtain ⟨labels, run⟩ := h.swarm
  have hrelays := Swarm.relays_of_run run
  have hbus : stack.swarm.bus = labels.filterMap SwarmLabel.busMessage := by
    rw [← hrelays.bus, hqueue, List.append_nil]
  calc stack.node.manager.peers.map (·.1)
      = stack.node.connections := (Node.tracks_of_reachable h.node).keys
    _ = stack.bus.foldl ServiceMessage.connections [] := by
      rw [← h.connections, hread, List.take_length]
    _ = stack.swarm.bus.foldl ServiceMessage.connections [] := by
      rw [← h.network, foldl_filter_of_neutral fun connections _ hmessage =>
        (ServiceMessage.neutral_of_fromNetwork hmessage connections).1]
    _ = stack.swarm.connections := by rw [hbus, hrelays.connections]

/-- What the event loop passed to connection handlers, then what it still queues for them, is
what the replication service sent to peers, in the order sent and each once, up to the messages
the event loop has not read yet; all of it once it has read the whole bus. -/
theorem stack_notifies_handlers_in_send_order
    (hreach : Reachable Step (start store ingest localPeerId supportedSchemaIds now) stack) :
    stack.swarm.notifications <+: stack.node.sent.filterMap ServiceMessage.notification ∧
      (stack.networkRead = stack.bus.length →
        stack.swarm.notifications = stack.node.sent.filterMap ServiceMessage.notification) := by
  have h := consistent_of_reachable hreach
  -- The network's own messages on the bus ask for no notification.
  have hsent : stack.bus.filterMap ServiceMessage.notification =
      stack.node.sent.filterMap ServiceMessage.notification := by
    rw [← h.service, List.filterMap_filter]
    refine List.filterMap_congr fun message _ => ?_
    cases hmessage : message.fromNetwork with
    | false => simp
    | true => simpa using ServiceMessage.notification_of_fromNetwork hmessage
  refine ⟨?_, fun hread => ?_⟩
  · rw [h.notifications, ← hsent]
    exact (List.take_prefix _ _).filterMap _
  · rw [h.notifications, hread, List.take_length, hsent]

end Stack

/-- Peer `1` connects to node `0`, which supports blobs: libp2p reports the connection, the
event loop puts it on the bus, the replication service reads it and greets the peer with its
announcement, reads that too, and the event loop reads both messages and hands the announcement
to the connection's handler. -/
def connectedPeer : List (StackEvent Nat) :=
  [.swarm (.established ⟨1, 0⟩), .poll, .serviceReads 1 (keepOrder _) (keepOrder _),
    .serviceReads 1 (keepOrder _) (keepOrder _), .networkReads, .networkReads, .poll]

theorem connected_peer_run : letI : LinearOrder SchemaId := IsWellOrder.linearOrder WellOrderingRel
    ∃ stack, Run Stack.Step (Stack.start Db.empty bareIngest (0 : Nat) [.blob 1] 1) connectedPeer stack ∧
      stack.serviceRead = stack.bus.length ∧ stack.networkRead = stack.bus.length ∧
      stack.swarm.behaviour.events = [] ∧ stack.swarm.connections = [⟨1, 0⟩] ∧
      stack.node.connections = [⟨1, 0⟩] ∧ stack.swarm.notified.map (·.1) = [⟨1, 0⟩] := by
  let _ : LinearOrder SchemaId := IsWellOrder.linearOrder WellOrderingRel
  exact ⟨_, Run.cons (Stack.Step.swarm rfl (Swarm.Step.established List.not_mem_nil))
    (Run.cons (Stack.Step.poll rfl) (Run.cons (Stack.Step.serviceReads rfl rfl)
    (Run.cons (Stack.Step.serviceReads rfl rfl) (Run.cons (Stack.Step.networkReads rfl)
    (Run.cons (Stack.Step.networkReads rfl) (Run.single (Stack.Step.poll rfl))))))),
    rfl, rfl, rfl, rfl, rfl, rfl⟩

/-- The connected node's replication service is one `Node.Step` reaches, holding the connection. -/
theorem connected_peer_service_steps_as_node :
    letI : LinearOrder SchemaId := IsWellOrder.linearOrder WellOrderingRel
    ∃ stack, Reachable Stack.Step (Stack.start Db.empty bareIngest (0 : Nat) [.blob 1] 1) stack ∧
      stack.node.connections = [⟨1, 0⟩] ∧
      Reachable Node.Step (Node.start Db.empty bareIngest (0 : Nat) [.blob 1] 1) stack.node := by
  let _ : LinearOrder SchemaId := IsWellOrder.linearOrder WellOrderingRel
  obtain ⟨stack, run, -, -, -, -, hconnections, -⟩ := connected_peer_run
  exact ⟨stack, ⟨_, run⟩, hconnections, (Stack.reachable_stack_refines_node ⟨_, run⟩).1⟩

/-- Once both services have read the bus, the manager's one peer entry is the open connection. -/
theorem connected_peer_tracked : letI : LinearOrder SchemaId := IsWellOrder.linearOrder WellOrderingRel
    ∃ stack, Reachable Stack.Step (Stack.start Db.empty bareIngest (0 : Nat) [.blob 1] 1) stack ∧
      stack.serviceRead = stack.bus.length ∧
      stack.swarm.behaviour.events.filterMap ToSwarm.busMessage = [] ∧
      stack.node.manager.peers.map (·.1) = [⟨1, 0⟩] := by
  let _ : LinearOrder SchemaId := IsWellOrder.linearOrder WellOrderingRel
  obtain ⟨stack, run, hread, -, hevents, hconnections, -, -⟩ := connected_peer_run
  have hqueue : stack.swarm.behaviour.events.filterMap ToSwarm.busMessage = [] := by
    rw [hevents, List.filterMap_nil]
  refine ⟨stack, ⟨_, run⟩, hread, hqueue, ?_⟩
  rw [Stack.drained_stack_tracks_swarm_connections ⟨_, run⟩ hread hqueue, hconnections]

/-- The announcement the service sent is what the event loop handed to the peer's handler. -/
theorem connected_peer_notified : letI : LinearOrder SchemaId := IsWellOrder.linearOrder WellOrderingRel
    ∃ stack, Reachable Stack.Step (Stack.start Db.empty bareIngest (0 : Nat) [.blob 1] 1) stack ∧
      stack.networkRead = stack.bus.length ∧
      stack.swarm.notifications = stack.node.sent.filterMap ServiceMessage.notification ∧
      stack.swarm.notified.map (·.1) = [⟨1, 0⟩] := by
  let _ : LinearOrder SchemaId := IsWellOrder.linearOrder WellOrderingRel
  obtain ⟨stack, run, -, hread, -, -, -, hnotified⟩ := connected_peer_run
  exact ⟨stack, ⟨_, run⟩, hread, (Stack.stack_notifies_handlers_in_send_order ⟨_, run⟩).2 hread,
    hnotified⟩

end Aquadoggo.Network
