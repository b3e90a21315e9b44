import Aquadoggo.Network.Handler
import Aquadoggo.Replication.Service

/-! The peers behaviour of `network/peers/behaviour.rs` and the part of the event loop of
`network/service.rs` that carries its events to the service bus. The behaviour queues what the
swarm tells it and hands the queue out from `poll`, front first; the event loop puts each event
on the bus. libp2p opens a connection once, reports the messages of its handler while it is
open, and closes it once: so the bus sees the connections' events in the swarm's order, and each
one is what the replication service takes for granted of the bus. -/
namespace Aquadoggo.Network

open Library Replication

variable {I : Type}

/-- `Event` of the peers behaviour. -/
inductive Event (I : Type) where
  | messageReceived (peer : Peer I) (message : PeerMessage)
  | peerConnected (peer : Peer I)
  | peerDisconnected (peer : Peer I)
deriving DecidableEq, Repr

/-- `ToSwarm` as the behaviour queues it: an event for the event loop, or a notification for
the handler of one connection. -/
inductive ToSwarm (I : Type) where
  | generateEvent (event : Event I)
  | notifyHandler (peer : Peer I) (event : HandlerFromBehaviour PeerMessage)
deriving DecidableEq, Repr

/-- The swarm's calls of `on_swarm_event`; the behaviour reads two of them. -/
inductive FromSwarm (I : Type) where
  | connectionEstablished (peer : Peer I)
  | connectionClosed (peer : Peer I)
  | other
deriving DecidableEq, Repr

structure Behaviour (I : Type) where
  events : List (ToSwarm I)
  enabled : Bool
deriving DecidableEq, Repr

namespace Behaviour

def new : Behaviour I := ⟨[], true⟩

/-- `push_event`: queue the event unless the behaviour is disabled, and say whether it did. -/
def pushEvent (self : Behaviour I) (event : ToSwarm I) : Behaviour I × Bool :=
  if self.enabled then ({ self with events := self.events ++ [event] }, true) else (self, false)

def onConnectionEstablished (self : Behaviour I) (peer : Peer I) : Behaviour I :=
  (self.pushEvent (.generateEvent (.peerConnected peer))).1

def onConnectionClosed (self : Behaviour I) (peer : Peer I) : Behaviour I :=
  (self.pushEvent (.generateEvent (.peerDisconnected peer))).1

def onReceivedMessage (self : Behaviour I) (peer : Peer I) (message : PeerMessage) : Behaviour I :=
  (self.pushEvent (.generateEvent (.messageReceived peer message))).1

def sendMessage (self : Behaviour I) (peer : Peer I) (message : PeerMessage) : Behaviour I :=
  (self.pushEvent (.notifyHandler peer (.message message))).1

def handleCriticalError (self : Behaviour I) (peer : Peer I) : Behaviour I :=
  (self.pushEvent (.notifyHandler peer .criticalError)).1

/-- `on_connection_handler_event`: the one event of the handler, a received message. -/
def onConnectionHandlerEvent (self : Behaviour I) (peer : Peer I) (message : PeerMessage) :
    Behaviour I :=
  self.onReceivedMessage peer message

def onSwarmEvent (self : Behaviour I) : FromSwarm I → Behaviour I
  | .connectionEstablished peer => self.onConnectionEstablished peer
  | .connectionClosed peer => self.onConnectionClosed peer
  | .other => self

def poll (self : Behaviour I) : Behaviour I × Poll (ToSwarm I) :=
  match self.events with
  | [] => (self, .pending)
  | event :: events => ({ self with events }, .ready event)

end Behaviour

namespace EventLoop

/-- `handle_peers_events`: the bus message the event loop sends for an event of the behaviour. -/
def handlePeersEvents : Event I → ServiceMessage I
  | .peerConnected peer => .peerConnected peer
  | .peerDisconnected peer => .peerDisconnected peer
  | .messageReceived peer message => .receivedMessage peer message

/-- `handle_service_message`: a message for a peer goes to the behaviour, the rest is not for the
network. -/
def handleServiceMessage (behaviour : Behaviour I) : ServiceMessage I → Behaviour I
  | .sentMessage peer message => behaviour.sendMessage peer message
  | .replicationFailed peer => behaviour.handleCriticalError peer
  | _ => behaviour

end EventLoop

end Aquadoggo.Network

namespace Aquadoggo

open Network

/-- The notification for a handler that a bus message makes the event loop queue. -/
def ServiceMessage.notification {I : Type} :
    ServiceMessage I → Option (Peer I × HandlerFromBehaviour Replication.PeerMessage)
  | .sentMessage peer message => some (peer, .message message)
  | .replicationFailed peer => some (peer, .criticalError)
  | _ => none

/-- The messages only the network event loop sends. -/
def ServiceMessage.fromNetwork {I : Type} : ServiceMessage I → Bool
  | .peerConnected _ | .peerDisconnected _ | .receivedMessage _ _ => true
  | _ => false

end Aquadoggo

namespace Aquadoggo.Network

open Library Replication

variable {I : Type}

/-! ### The queue -/

/-- The bus message an entry of the queue becomes once `poll` hands it out. -/
def ToSwarm.busMessage : ToSwarm I → Option (ServiceMessage I)
  | .generateEvent event => some (EventLoop.handlePeersEvents event)
  | .notifyHandler .. => none

/-- The notification an entry of the queue asks the swarm to pass to a handler. -/
def ToSwarm.notification : ToSwarm I → Option (Peer I × HandlerFromBehaviour PeerMessage)
  | .notifyHandler peer event => some (peer, event)
  | .generateEvent _ => none

theorem ToSwarm.fromNetwork_of_busMessage {event : ToSwarm I} {message : ServiceMessage I}
    (h : event.busMessage = some message) : message.fromNetwork = true := by
  cases event with
  | generateEvent event =>
    cases h
    cases event <;> rfl
  | notifyHandler => cases h

/-- A message of the network asks the event loop for no notification. -/
theorem ServiceMessage.notification_of_fromNetwork {message : ServiceMessage I}
    (h : message.fromNetwork = true) : message.notification = none := by
  cases message <;> first | rfl | cases h

/-- Any other message leaves the connections as they are, and libp2p allows it anywhere. -/
theorem ServiceMessage.neutral_of_fromNetwork [DecidableEq I] {message : ServiceMessage I}
    (h : message.fromNetwork = false) (connections : List (Peer I)) :
    message.connections connections = connections ∧ message.Allowed connections := by
  cases message <;> first | exact ⟨rfl, trivial⟩ | cases h

namespace Behaviour

variable {self : Behaviour I}

@[simp] theorem pushEvent_events (h : self.enabled = true) (event : ToSwarm I) :
    (self.pushEvent event).1.events = self.events ++ [event] := by
  simp [pushEvent, h]

@[simp] theorem pushEvent_enabled (event : ToSwarm I) :
    (self.pushEvent event).1.enabled = self.enabled := by
  unfold pushEvent
  split <;> rfl

/-- A message of the bus adds its notification, if any, to the queue. -/
theorem handleServiceMessage_events (h : self.enabled = true) (message : ServiceMessage I) :
    (EventLoop.handleServiceMessage self message).events =
      self.events ++ (message.notification.map fun entry => .notifyHandler entry.1 entry.2).toList := by
  cases message <;> simp [EventLoop.handleServiceMessage, ServiceMessage.notification, sendMessage,
    handleCriticalError, h]

@[simp] theorem handleServiceMessage_enabled (message : ServiceMessage I) :
    (EventLoop.handleServiceMessage self message).enabled = self.enabled := by
  cases message <;> simp [EventLoop.handleServiceMessage, sendMessage, handleCriticalError]

theorem poll_eq_ready {behaviour : Behaviour I} {event : ToSwarm I}
    (h : self.poll = (behaviour, .ready event)) :
    self.events = event :: behaviour.events ∧ behaviour.enabled = self.enabled := by
  unfold poll at h
  split at h
  · cases h
  · next event' events hevents =>
    cases h
    exact ⟨hevents, rfl⟩

end Behaviour

/-! ### The swarm -/

/-- The behaviour in its swarm: the connections libp2p has open, the behaviour, what the event
loop put on the bus, and the notifications the swarm took for handlers. -/
structure Swarm (I : Type) where
  connections : List (Peer I)
  behaviour : Behaviour I
  bus : List (ServiceMessage I)
  notified : List (Peer I × HandlerFromBehaviour PeerMessage)

inductive SwarmLabel (I : Type) where
  | established (peer : Peer I)
  | closed (peer : Peer I)
  | handlerEvent (peer : Peer I) (message : PeerMessage)
  | serviceMessage (message : ServiceMessage I)
  | poll

/-- The bus message a report of the swarm becomes. -/
def SwarmLabel.busMessage : SwarmLabel I → Option (ServiceMessage I)
  | .established peer => some (.peerConnected peer)
  | .closed peer => some (.peerDisconnected peer)
  | .handlerEvent peer message => some (.receivedMessage peer message)
  | _ => none

def SwarmLabel.notification : SwarmLabel I → Option (Peer I × HandlerFromBehaviour PeerMessage)
  | .serviceMessage message => message.notification
  | _ => none

namespace Swarm

def start : Swarm I := ⟨[], Behaviour.new, [], []⟩

/-- The notifications the swarm passed to handlers, then those still queued for them. -/
def notifications (swarm : Swarm I) : List (Peer I × HandlerFromBehaviour PeerMessage) :=
  swarm.notified ++ swarm.behaviour.events.filterMap ToSwarm.notification

/-- What the event loop does with an entry `poll` hands out. -/
def deliver (swarm : Swarm I) : ToSwarm I → Swarm I
  | .generateEvent event => { swarm with bus := swarm.bus ++ [EventLoop.handlePeersEvents event] }
  | .notifyHandler peer event => { swarm with notified := swarm.notified ++ [(peer, event)] }

section Deliver

variable (swarm : Swarm I) (event : ToSwarm I)

@[simp] theorem deliver_bus : (swarm.deliver event).bus = swarm.bus ++ event.busMessage.toList := by
  cases event <;> simp [deliver, ToSwarm.busMessage]

@[simp] theorem deliver_notified :
    (swarm.deliver event).notified = swarm.notified ++ event.notification.toList := by
  cases event <;> simp [deliver, ToSwarm.notification]

@[simp] theorem deliver_behaviour : (swarm.deliver event).behaviour = swarm.behaviour := by
  cases event <;> rfl

@[simp] theorem deliver_connections : (swarm.deliver event).connections = swarm.connections := by
  cases event <;> rfl

end Deliver

theorem filterMap_snoc {β : Type} (f : SwarmLabel I → Option β) (labels : List (SwarmLabel I))
    (label : SwarmLabel I) : (labels ++ [label]).filterMap f = labels.filterMap f ++ (f label).toList := by
  cases h : f label <;> simp [h]

variable [DecidableEq I]

/-- libp2p's side: it establishes a connection that is not open, reports the messages of the
handler of an open connection, and closes an open connection; the bus and the event loop's
`poll` come at any time. -/
inductive Step : Swarm I → SwarmLabel I → Swarm I → Prop where
  | established {swarm : Swarm I} {peer : Peer I} (hnew : peer ∉ swarm.connections) :
      Step swarm (.established peer)
        { swarm with connections := swarm.connections ++ [peer]
                     behaviour := swarm.behaviour.onSwarmEvent (.connectionEstablished peer) }
  | closed {swarm : Swarm I} {peer : Peer I} (hopen : peer ∈ swarm.connections) :
      Step swarm (.closed peer)
        { swarm with connections := swarm.connections.erase peer
                     behaviour := swarm.behaviour.onSwarmEvent (.connectionClosed peer) }
  | handlerEvent {swarm : Swarm I} {peer : Peer I} {message : PeerMessage}
      (hopen : peer ∈ swarm.connections) :
      Step swarm (.handlerEvent peer message)
        { swarm with behaviour := swarm.behaviour.onConnectionHandlerEvent peer message }
  | serviceMessage {swarm : Swarm I} (message : ServiceMessage I) :
      Step swarm (.serviceMessage message)
        { swarm with behaviour := EventLoop.handleServiceMessage swarm.behaviour message }
  | poll {swarm : Swarm I} {behaviour : Behaviour I} {event : ToSwarm I}
      (hpoll : swarm.behaviour.poll = (behaviour, .ready event)) :
      Step swarm .poll ({ swarm with behaviour }.deliver event)

/-- What a swarm keeps of the reports and bus messages `labels`: the behaviour drops nothing,
the bus and the notifications are what the labels ask for, in order, up to what is still queued,
and the connections are those the bus messages of the labels announce, each allowed for the
ones before it. -/
structure Relays (labels : List (SwarmLabel I)) (swarm : Swarm I) : Prop where
  enabled : swarm.behaviour.enabled = true
  bus : swarm.bus ++ swarm.behaviour.events.filterMap ToSwarm.busMessage =
    labels.filterMap SwarmLabel.busMessage
  notified : swarm.notified ++ swarm.behaviour.events.filterMap ToSwarm.notification =
    labels.filterMap SwarmLabel.notification
  connections : (labels.filterMap SwarmLabel.busMessage).foldl ServiceMessage.connections [] =
    swarm.connections
  allowed : ValidFrom ServiceMessage.connections ServiceMessage.Allowed []
    (labels.filterMap SwarmLabel.busMessage)

theorem relays_start : Relays [] (start : Swarm I) :=
  ⟨rfl, rfl, rfl, rfl, trivial⟩

/-- A step that adds `entries` to the behaviour's queue: the reports of the label and the
notification it asks for join the queue, and the connections follow its bus message. -/
theorem Relays.push {labels : List (SwarmLabel I)} {swarm next : Swarm I} {label : SwarmLabel I}
    (h : Relays labels swarm) {entries : List (ToSwarm I)}
    (hevents : next.behaviour.events = swarm.behaviour.events ++ entries)
    (henabled : next.behaviour.enabled = swarm.behaviour.enabled)
    (hbus : next.bus = swarm.bus) (hnotified : next.notified = swarm.notified)
    (hentries : entries.filterMap ToSwarm.busMessage = label.busMessage.toList ∧
      entries.filterMap ToSwarm.notification = label.notification.toList)
    (hconnections : next.connections =
      label.busMessage.toList.foldl ServiceMessage.connections swarm.connections)
    (hallowed : ∀ message, label.busMessage = some message → message.Allowed swarm.connections) :
    Relays (labels ++ [label]) next := by
  refine ⟨henabled.trans h.enabled, ?_, ?_, ?_, ?_⟩
  · rw [hbus, hevents, List.filterMap_append, hentries.1, ← List.append_assoc, h.bus, filterMap_snoc]
  · rw [hnotified, hevents, List.filterMap_append, hentries.2, ← List.append_assoc, h.notified,
      filterMap_snoc]
  · rw [filterMap_snoc, List.foldl_append, h.connections, hconnections]
  · rw [filterMap_snoc]
    refine validFrom_append.mpr ⟨h.allowed, ?_⟩
    rw [h.connections]
    cases hmessage : label.busMessage with
    | none => trivial
    | some message => exact ⟨hallowed message hmessage, trivial⟩

/-- `poll` moves the head of the queue to the bus or to the notifications. -/
theorem Relays.poll {labels : List (SwarmLabel I)} {swarm : Swarm I} (h : Relays labels swarm)
    {behaviour : Behaviour I} {event : ToSwarm I}
    (hpoll : swarm.behaviour.poll = (behaviour, .ready event)) :
    Relays (labels ++ [SwarmLabel.poll]) ({ swarm with behaviour }.deliver event) := by
  obtain ⟨hevents, henabled⟩ := Behaviour.poll_eq_ready hpoll
  have hlabels {β : Type} (f : SwarmLabel I → Option β) (hpoll : f SwarmLabel.poll = none) :
      (labels ++ [SwarmLabel.poll]).filterMap f = labels.filterMap f := by
    rw [filterMap_snoc, hpoll, Option.toList_none, List.append_nil]
  refine ⟨by simpa [henabled] using h.enabled, ?_, ?_, ?_, ?_⟩
  · rw [hlabels SwarmLabel.busMessage rfl, ← h.bus, hevents]
    cases event <;> simp [ToSwarm.busMessage, List.filterMap_cons]
  · rw [hlabels SwarmLabel.notification rfl, ← h.notified, hevents]
    cases event <;> simp [ToSwarm.notification, List.filterMap_cons]
  · rw [hlabels SwarmLabel.busMessage rfl, h.connections]
    simp
  · rw [hlabels SwarmLabel.busMessage rfl]
    exact h.allowed

/-- Every step of the swarm keeps what it relays, with its label added. -/
theorem relays_step {labels : List (SwarmLabel I)} {swarm next : Swarm I} {label : SwarmLabel I}
    (h : Relays labels swarm) (hstep : Step swarm label next) : Relays (labels ++ [label]) next := by
  have enabled := h.enabled
  cases hstep with
  | @established peer hnew =>
    exact h.push (Behaviour.pushEvent_events enabled _) (Behaviour.pushEvent_enabled _) rfl rfl
      ⟨rfl, rfl⟩ rfl fun _ hmessage => by cases hmessage; exact hnew
  | @closed peer hopen =>
    exact h.push (Behaviour.pushEvent_events enabled _) (Behaviour.pushEvent_enabled _) rfl rfl
      ⟨rfl, rfl⟩ rfl fun _ hmessage => by cases hmessage; exact hopen
  | @handlerEvent peer message hopen =>
    exact h.push (Behaviour.pushEvent_events enabled _) (Behaviour.pushEvent_enabled _) rfl rfl
      ⟨rfl, rfl⟩ rfl fun _ hmessage => by cases hmessage; exact hopen
  | serviceMessage message =>
    refine h.push (Behaviour.handleServiceMessage_events enabled message)
      (Behaviour.handleServiceMessage_enabled message) rfl rfl ⟨?_, ?_⟩ rfl nofun
    · cases message.notification <;> rfl
    · show _ = message.notification.toList
      cases message.notification <;> rfl
  | poll hpoll => exact h.poll hpoll

/-- Along every run of the swarm from its start, the behaviour and the event loop relay the
swarm's reports: `Relays` holds of the labels of the run. -/
theorem relays_of_run {labels : List (SwarmLabel I)} {swarm : Swarm I}
    (run : Run Step start labels swarm) : Relays labels swarm :=
  run.invariant_with_history Relays (fun _ _ _ _ h hstep => relays_step h hstep) relays_start

/-- A step of a swarm that a run reached adds the label's notification, if any, to the
notifications. -/
theorem notifications_step {labels : List (SwarmLabel I)} {swarm next : Swarm I}
    {label : SwarmLabel I} (run : Run Step start labels swarm) (hstep : Step swarm label next) :
    next.notifications = swarm.notifications ++ label.notification.toList := by
  have hbefore := (relays_of_run run).notified
  have hafter := (relays_step (relays_of_run run) hstep).notified
  rw [filterMap_snoc, ← hbefore] at hafter
  exact hafter

/-- A report of libp2p leaves the bus alone: only `poll` puts events on it. -/
theorem Step.bus_of_report {swarm next : Swarm I} {label : SwarmLabel I} (hstep : Step swarm label next)
    (hreport : label.busMessage.isSome) : next.bus = swarm.bus := by
  cases hstep with
  | established | closed | handlerEvent => rfl
  | serviceMessage | poll => cases hreport

/-- What the event loop put on the bus is a sequence of connection events that libp2p allows. -/
theorem Relays.bus_validFrom {labels : List (SwarmLabel I)} {swarm : Swarm I}
    (h : Relays labels swarm) :
    ValidFrom ServiceMessage.connections ServiceMessage.Allowed [] swarm.bus := by
  have hall := h.allowed
  rw [← h.bus, validFrom_append] at hall
  exact hall.1

end Swarm

end Aquadoggo.Network
