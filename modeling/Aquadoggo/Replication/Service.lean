import Aquadoggo.Replication.Wire
import Aquadoggo.Replication.TwoPeers
import Aquadoggo.Library.Transition

/-! The `ConnectionManager` of `replication/service.rs`: the connections the node has to other
peers, the announcements they sent, and the scheduler that opens replication sessions with
them. Its loop handles one event at a time: a message of the service bus, a schema the provider
added, or a beat of the scheduler. Replication messages go on to the `SyncManager`. What the
loop reads from outside is an input of the event: the second `now()` returns, the order in
which the `HashMap` of peers is iterated, and the order `shuffle` leaves the candidate peers in. -/
namespace Aquadoggo.Network

/-- `Peer(PeerId, ConnectionId)`: equal when both parts are, ordered by the peer id alone. -/
structure Peer (I : Type) where
  id : I
  connectionId : Nat
deriving DecidableEq, Repr

instance {I : Type} [LT I] : LT (Peer I) := ⟨fun a b => a.id < b.id⟩

instance {I : Type} [LT I] [DecidableRel (α := I) (· < ·)] : DecidableRel (α := Peer I) (· < ·) :=
  fun a b => inferInstanceAs (Decidable (a.id < b.id))

/-- `Human::display`: the peer id, then the connection id in brackets. -/
instance {I : Type} [ToString I] : ToString (Peer I) :=
  ⟨fun peer => toString peer.id ++ " (" ++ toString peer.connectionId ++ ")"⟩

end Aquadoggo.Network

namespace Aquadoggo

open Network Replication

/-- `ServiceMessage`, what services send each other on the bus. -/
inductive ServiceMessage (I : Type) where
  | newOperation (operationId : OperationId)
  | peerConnected (peer : Peer I)
  | peerDisconnected (peer : Peer I)
  | sentMessage (peer : Peer I) (message : PeerMessage)
  | receivedMessage (peer : Peer I) (message : PeerMessage)
  | replicationFailed (peer : Peer I)
deriving DecidableEq, Repr

/-- What libp2p guarantees of the connection events the network service puts on the bus: a
connection is announced once, its messages arrive while it is open, and it closes once. -/
def ServiceMessage.Allowed {I : Type} (connections : List (Peer I)) : ServiceMessage I → Prop
  | .peerConnected peer => peer ∉ connections
  | .peerDisconnected peer => peer ∈ connections
  | .receivedMessage peer _ => peer ∈ connections
  | _ => True

/-- The open connections after a message of the bus. -/
def ServiceMessage.connections {I : Type} [DecidableEq I] (connections : List (Peer I)) :
    ServiceMessage I → List (Peer I)
  | .peerConnected peer => connections ++ [peer]
  | .peerDisconnected peer => connections.erase peer
  | _ => connections

end Aquadoggo

namespace Aquadoggo.Replication

open Library Network

/-- `MAX_PEER_SAMPLE`. -/
def maxPeerSample : Nat := 3

/-- `REPLICATION_PROTOCOL_VERSION`. -/
def replicationProtocolVersion : Nat := 1

/-- `Announcement::new`, stamped with the second `now()` returns. -/
def Announcement.new (supportedSchemaIds : SchemaIdSet) (now : Nat) : Announcement :=
  ⟨supportedSchemaIds, now⟩

def AnnouncementMessage.new (announcement : Announcement) : AnnouncementMessage :=
  ⟨replicationProtocolVersion, announcement⟩

def AnnouncementMessage.isVersionSupported (self : AnnouncementMessage) : Bool :=
  self.protocolVersion == replicationProtocolVersion

/-- What `SliceRandom::shuffle` may do to a list: put its elements in any order. -/
structure Shuffle (α : Type) where
  apply : List α → List α
  perm : ∀ list, (apply list).Perm list

structure PeerStatus (I : Type) where
  peer : Peer I
  announcement : Option Announcement
  sentOurAnnouncementTimestamp : Nat
  successfulCount : Nat
  failedCount : Nat
deriving DecidableEq, Repr

def PeerStatus.new {I : Type} (peer : Peer I) : PeerStatus I := ⟨peer, none, 0, 0, 0⟩

/-- `ConnectionManager` without its channels and its scheduler stream. Its schema provider is
the one its sync manager's ingest holds; the manager asks it whether an allow list is set. -/
structure ConnectionManager (I : Type) where
  peers : List (Peer I × PeerStatus I)
  syncManager : SyncManager (Peer I)
  announcement : Option Announcement

namespace ConnectionManager

variable {I : Type} [DecidableEq I]

def new (syncManager : SyncManager (Peer I)) : ConnectionManager I := ⟨[], syncManager, none⟩

def isAllowListActive (self : ConnectionManager I) : Bool := self.syncManager.ingest.isAllowListActive

/-- `update_announcement`: announce the schema ids the provider supports now. -/
def updateAnnouncement [LinearOrder SchemaId] (self : ConnectionManager I)
    (supportedSchemaIds : List SchemaId) (now : Nat) :
    ConnectionManager I :=
  { self with announcement := some (Announcement.new (SchemaIdSet.new supportedSchemaIds) now) }

def removeConnection (self : ConnectionManager I) (peer : Peer I) : ConnectionManager I :=
  { self with peers := eraseMap self.peers peer }

/-- `on_connection_closed`: forget the peer's sessions, then the peer. -/
def onConnectionClosed (self : ConnectionManager I) (peer : Peer I) : ConnectionManager I :=
  { self with syncManager := self.syncManager.removeSessions peer }.removeConnection peer

/-- `on_announcement_message`: keep the newest announcement of a known peer that speaks our
protocol version. -/
def onAnnouncementMessage (self : ConnectionManager I) (peer : Peer I)
    (message : AnnouncementMessage) : ConnectionManager I :=
  if !message.isVersionSupported then self
  else
    let incoming := message.announcement
    match self.peers.lookup peer with
    | some status =>
      match status.announcement with
      | some current =>
        if current.timestamp < incoming.timestamp then
          { self with peers := insertMap self.peers peer { status with announcement := some incoming } }
        else self
      | none => { self with peers := insertMap self.peers peer { status with announcement := some incoming } }
    | none => self

/-- `on_replication_finished`; `none` is its panic on an unknown peer. -/
def onReplicationFinished (self : ConnectionManager I) (peer : Peer I) : Option (ConnectionManager I) :=
  match self.peers.lookup peer with
  | some status =>
    some { self with
      peers := insertMap self.peers peer { status with successfulCount := status.successfulCount + 1 } }
  | none => none

/-- `on_replication_error`: count the failure, drop the session and ask the network to close
the connection; `none` is its panic on an unknown peer. The error itself is only logged. -/
def onReplicationError (self : ConnectionManager I) (peer : Peer I) (sessionId : SessionId) :
    Option (ConnectionManager I × List (ServiceMessage I)) :=
  match self.peers.lookup peer with
  | some status =>
    let self := { self with
      peers := insertMap self.peers peer { status with failedCount := status.failedCount + 1 } }
    some ({ self with syncManager := self.syncManager.removeSession peer sessionId },
      [.replicationFailed peer])
  | none => none

/-- `announce`: send our announcement to every peer last sent an older one, then note when. -/
def announce (self : ConnectionManager I) (now : Nat) :
    Option (ConnectionManager I × List (ServiceMessage I)) :=
  match self.announcement with
  | none => none
  | some localAnnouncement =>
    let stale := fun (status : PeerStatus I) =>
      decide (status.sentOurAnnouncementTimestamp < localAnnouncement.timestamp)
    let sent := (self.peers.filter fun entry => stale entry.2).map fun entry =>
      ServiceMessage.sentMessage entry.1 (.announce (AnnouncementMessage.new localAnnouncement))
    let peers := self.peers.map fun entry =>
      if stale entry.2 then (entry.1, { entry.2 with sentOurAnnouncementTimestamp := now }) else entry
    some ({ self with peers := peers }, sent)

/-- The `HashMap` keyed by `PeerId` of `update_sessions`, filled from the table of peers in
the order `order` its `HashMap` is iterated in: one connection per peer, the connection visited
last replacing the earlier ones. -/
def dedupPeers (order : Shuffle (Peer I)) (peers : List (Peer I × PeerStatus I)) :
    List (Peer I × PeerStatus I) :=
  (collectMap ((order.apply (peers.map (·.1))).filterMap fun peer =>
    (peers.lookup peer).map fun status => (peer.id, (peer, status)))).map (·.2)

section Sessions

variable [LT I] [DecidableRel (α := I) (· < ·)] [ToString I]

/-- The body of the `filter_map` of `update_sessions`: the peer and target set to attempt, when
the peer announced, shares schema ids with us, runs fewer than `MAX_SESSIONS_PER_PEER` active
sessions and none on that target set. -/
def attempt (self : ConnectionManager I) (localSupportedSchemaIds : SchemaIdSet) (peer : Peer I)
    (status : PeerStatus I) : Option (Peer I × SchemaIdSet) :=
  let sessions := self.syncManager.getSessions peer
  match status.announcement with
  | none => none
  | some announcement =>
    let targetSet := SchemaIdSet.fromIntersection localSupportedSchemaIds announcement.supportedSchemaIds
    if targetSet.isEmpty then none
    else
      let activeSessions := sessions.filter fun session => !session.isDone
      let hasActiveTargetSetSession := activeSessions.any fun session => session.targetSet == targetSet
      if activeSessions.length < maxSessionsPerPeer && !hasActiveTargetSetSession then
        some (peer, targetSet)
      else none

/-- The candidates of `update_sessions`; `none` is the `expect` on our announcement. -/
def attemptPeers (self : ConnectionManager I) (order : Shuffle (Peer I)) :
    Option (List (Peer I × SchemaIdSet)) :=
  self.announcement.map fun announcement =>
    (dedupPeers order self.peers).filterMap fun entry =>
      self.attempt announcement.supportedSchemaIds entry.1 entry.2

/-- `initiate_replication`: send the request of a new session; a refusal is only logged. -/
def initiateReplication (self : ConnectionManager I) (peer : Peer I) (targetSet : SchemaIdSet) :
    ConnectionManager I × List (ServiceMessage I) :=
  match self.syncManager.initiateSession peer targetSet .logHeight with
  | (syncManager, .ok messages) =>
    ({ self with syncManager := syncManager },
      messages.map fun message => .sentMessage peer (.syncMessage message))
  | (syncManager, .error _) => ({ self with syncManager := syncManager }, [])

/-- One turn of the loop of `update_sessions`. -/
def initiateStep (acc : ConnectionManager I × List (ServiceMessage I))
    (candidate : Peer I × SchemaIdSet) : ConnectionManager I × List (ServiceMessage I) :=
  let next := acc.1.initiateReplication candidate.1 candidate.2
  (next.1, acc.2 ++ next.2)

/-- `update_sessions`: attempt at most `MAX_PEER_SAMPLE` of the candidates, in the order
`shuffle` leaves them. -/
def updateSessions (self : ConnectionManager I) (order : Shuffle (Peer I))
    (shuffle : Shuffle (Peer I × SchemaIdSet)) : Option (ConnectionManager I × List (ServiceMessage I)) :=
  (self.attemptPeers order).map fun attemptPeers =>
    ((shuffle.apply attemptPeers).take maxPeerSample).foldl initiateStep (self, [])

/-- `on_update`, on each beat of the scheduler and for each new connection. -/
def onUpdate (self : ConnectionManager I) (now : Nat) (order : Shuffle (Peer I))
    (shuffle : Shuffle (Peer I × SchemaIdSet)) : Option (ConnectionManager I × List (ServiceMessage I)) := do
  let (self, announced) ← self.announce now
  let (self, initiated) ← self.updateSessions order shuffle
  pure (self, announced ++ initiated)

/-- `on_connection_established`: a known peer is only logged. -/
def onConnectionEstablished (self : ConnectionManager I) (peer : Peer I) (now : Nat)
    (order : Shuffle (Peer I)) (shuffle : Shuffle (Peer I × SchemaIdSet)) :
    Option (ConnectionManager I × List (ServiceMessage I)) :=
  match self.peers.lookup peer with
  | some _ => some (self, [])
  | none =>
    { self with peers := insertMap self.peers peer (PeerStatus.new peer) }.onUpdate now order shuffle

/-- The `match` on `handle_message` in `on_replication_message`: send the replies and count a
finished session, or handle the error. -/
def routeReplicationMessage (self : ConnectionManager I) (peer : Peer I) (message : SyncMessage) :
    Option (ConnectionManager I × List (ServiceMessage I)) := do
  let (syncManager, result) ← self.syncManager.handleMessage peer message
  let self := { self with syncManager := syncManager }
  match result with
  | .ok result =>
    let sent := result.messages.map fun reply => ServiceMessage.sentMessage peer (.syncMessage reply)
    if result.isDone then
      let self ← self.onReplicationFinished peer
      pure (self, sent)
    else pure (self, sent)
  | .error _ => self.onReplicationError peer message.sessionId

/-- `on_replication_message`: with an allow list set, a request for a target set we do not
announce is an error; `none` is a panic, of the `expect` on our announcement or further on. -/
def onReplicationMessage (self : ConnectionManager I) (peer : Peer I) (message : SyncMessage) :
    Option (ConnectionManager I × List (ServiceMessage I)) :=
  match message.message with
  | .syncRequest _ targetSet =>
    match self.announcement with
    | none => none
    | some announcement =>
      if self.isAllowListActive && !announcement.supportedSchemaIds.isValidSet targetSet then
        self.onReplicationError peer message.sessionId
      else self.routeReplicationMessage peer message
  | _ => self.routeReplicationMessage peer message

/-- `handle_service_message`; the messages of other kinds are not for this service. -/
def handleServiceMessage (self : ConnectionManager I) (now : Nat) (order : Shuffle (Peer I))
    (shuffle : Shuffle (Peer I × SchemaIdSet)) : ServiceMessage I →
      Option (ConnectionManager I × List (ServiceMessage I))
  | .peerConnected peer => self.onConnectionEstablished peer now order shuffle
  | .peerDisconnected peer => some (self.onConnectionClosed peer, [])
  | .receivedMessage peer (.syncMessage message) => self.onReplicationMessage peer message
  | .receivedMessage peer (.announce message) => some (self.onAnnouncementMessage peer message, [])
  | _ => some (self, [])

end Sessions

end ConnectionManager

/-- What wakes the loop of `run` up: a message on the bus, a schema the provider added (with the
schema ids it supports then), or a beat of the scheduler. -/
inductive ServiceEvent (I : Type) where
  | bus (message : ServiceMessage I) (now : Nat) (order : Shuffle (Peer I))
      (shuffle : Shuffle (Peer I × SchemaIdSet))
  | schemaAdded (supportedSchemaIds : List SchemaId) (now : Nat)
  | tick (now : Nat) (order : Shuffle (Peer I)) (shuffle : Shuffle (Peer I × SchemaIdSet))

namespace ConnectionManager

variable {I : Type} [DecidableEq I] [LT I] [DecidableRel (α := I) (· < ·)] [ToString I]
  [LinearOrder SchemaId]

/-- One turn of the loop of `run`; `none` is a panic. -/
def handle (self : ConnectionManager I) : ServiceEvent I →
    Option (ConnectionManager I × List (ServiceMessage I))
  | .bus message now order shuffle => self.handleServiceMessage now order shuffle message
  | .schemaAdded supportedSchemaIds now => some (self.updateAnnouncement supportedSchemaIds now, [])
  | .tick now order shuffle => self.onUpdate now order shuffle

end ConnectionManager

def ServiceEvent.Allowed {I : Type} (connections : List (Peer I)) : ServiceEvent I → Prop
  | .bus message _ _ _ => message.Allowed connections
  | _ => True

def ServiceEvent.connections {I : Type} [DecidableEq I] (connections : List (Peer I)) :
    ServiceEvent I → List (Peer I)
  | .bus message _ _ _ => message.connections connections
  | _ => connections

/-- The replication service with the network around it: the connection manager, the connections
the network has open, and everything the manager sent on the bus so far. -/
structure Node (I : Type) where
  manager : ConnectionManager I
  connections : List (Peer I)
  sent : List (ServiceMessage I)

namespace Node

variable {I : Type} [DecidableEq I] [LT I] [DecidableRel (α := I) (· < ·)] [ToString I]
  [LinearOrder SchemaId]

/-- `replication_service` up to its loop: a sync manager without sessions, and the first
announcement; the network has no connection yet. -/
def start (store : Db) (ingest : SyncIngest) (localPeerId : I) (supportedSchemaIds : List SchemaId)
    (now : Nat) : Node I :=
  ⟨(ConnectionManager.new (SyncManager.new store ingest ⟨localPeerId, 0⟩)).updateAnnouncement
    supportedSchemaIds now, [], []⟩

/-- A turn of the loop on an event the network may deliver. -/
inductive Step : Node I → ServiceEvent I → Node I → Prop where
  | handle {node : Node I} {event : ServiceEvent I} {manager : ConnectionManager I}
      {sent : List (ServiceMessage I)} (hallowed : event.Allowed node.connections)
      (h : node.manager.handle event = some (manager, sent)) :
      Step node event ⟨manager, event.connections node.connections, node.sent ++ sent⟩

end Node

end Aquadoggo.Replication
