import Aquadoggo.Replication.LocalSessions

/-! Where the replication service writes the store: only through p2panda's `publish`, when a
peer's entry is ingested. `publish` stores an entry together with its operation, so a node that
starts from a store whose entries have their operations keeps that along every run; then
`retrieve_entries` never panics, and the one panic of the loop is on an entry sent without its
operation. -/
namespace Aquadoggo.Replication

open Library Network

/-- What the service relies on of p2panda's `publish` when it answers a `Have`: it inserts the
entry and its operation in one transaction, so a store whose entries have their operations keeps
that. -/
def P2panda.KeepsOperations (p : P2panda) : Prop :=
  ∀ {store next : Db} {schema : Schema} {entry : EncodedEntry} {operation : EncodedOperation},
    p.publish store schema entry operation = .ok next → store.OperationsStored →
      next.OperationsStored

namespace SyncManager

variable {P : Type}

/-- What one call may do to the store: leave it, or have p2panda's `publish` write it. The
ingest stays. -/
def StoreStep (self next : SyncManager P) : Prop :=
  next.ingest = self.ingest ∧ (next.store = self.store ∨
    ∃ schema entry operation, self.ingest.p2panda.publish self.store schema entry operation =
      .ok next.store)

section StoreStep

variable {self mid next : SyncManager P}

theorem StoreStep.of_eq (hingest : next.ingest = self.ingest) (hstore : next.store = self.store) :
    StoreStep self next :=
  ⟨hingest, .inl hstore⟩

/-- A call that keeps the store and the ingest, after a step. -/
theorem StoreStep.trans_eq (h : StoreStep self mid) (hingest : next.ingest = mid.ingest)
    (hstore : next.store = mid.store) : StoreStep self next := by
  obtain ⟨hmid, hsame | ⟨schema, entry, operation, hpublish⟩⟩ := h
  · exact ⟨hingest.trans hmid, .inl (hstore.trans hsame)⟩
  · exact ⟨hingest.trans hmid, .inr ⟨schema, entry, operation, hstore ▸ hpublish⟩⟩

/-- With a `publish` that keeps operations, a step keeps every entry's operation. -/
theorem StoreStep.operationsStored (h : StoreStep self next)
    (hp : self.ingest.p2panda.KeepsOperations) (hstore : self.store.OperationsStored) :
    next.store.OperationsStored := by
  obtain ⟨-, hsame | ⟨_, _, _, hpublish⟩⟩ := h
  · exact hsame ▸ hstore
  · exact hp hpublish hstore

end StoreStep

variable [DecidableEq P]

@[simp] theorem insertAndInitializeSession_store (self : SyncManager P) (remotePeer : P)
    (sessionId : SessionId) (targetSet : SchemaIdSet) (isLocal : Bool) :
    (self.insertAndInitializeSession remotePeer sessionId targetSet isLocal).1.store = self.store := by
  rw [insertAndInitializeSession_eq]
  exact pushSession_store ..

@[simp] theorem insertAndInitializeSession_ingest (self : SyncManager P) (remotePeer : P)
    (sessionId : SessionId) (targetSet : SchemaIdSet) (isLocal : Bool) :
    (self.insertAndInitializeSession remotePeer sessionId targetSet isLocal).1.ingest = self.ingest := by
  rw [insertAndInitializeSession_eq]
  exact pushSession_ingest ..

@[simp] theorem initiateSession_store (self : SyncManager P) (remotePeer : P) (targetSet : SchemaIdSet)
    (mode : Mode) : (self.initiateSession remotePeer targetSet mode).1.store = self.store := by
  rcases initiateSession_cases self remotePeer targetSet mode with h | ⟨-, h⟩ <;> rw [h]
  exact pushSession_store ..

@[simp] theorem initiateSession_ingest (self : SyncManager P) (remotePeer : P) (targetSet : SchemaIdSet)
    (mode : Mode) : (self.initiateSession remotePeer targetSet mode).1.ingest = self.ingest := by
  rcases initiateSession_cases self remotePeer targetSet mode with h | ⟨-, h⟩ <;> rw [h]
  exact pushSession_ingest ..

section Frames

variable [LT P] [DecidableRel (α := P) (· < ·)]

theorem handleDuplicateSession_frame (self : SyncManager P) (remotePeer : P) (targetSet : SchemaIdSet)
    (existing : Session) :
    (self.handleDuplicateSession remotePeer targetSet existing).1.store = self.store ∧
      (self.handleDuplicateSession remotePeer targetSet existing).1.ingest = self.ingest := by
  unfold handleDuplicateSession
  split
  · exact ⟨rfl, rfl⟩
  · cases existing.state
    · by_cases hlt : self.localPeer < remotePeer
      · simp only [hlt, if_true]
        split
        · -- Our dropped request is asked for again.
          split <;> next _ _ hcall =>
            rw [← congrArg Prod.fst hcall]
            simp
        · simp
      · simp [hlt]
    · exact ⟨rfl, rfl⟩
    · exact ⟨rfl, rfl⟩

theorem handleDuplicateTargetSet_frame (self : SyncManager P) (remotePeer : P)
    (sessionId : SessionId) (existing : Session) :
    (self.handleDuplicateTargetSet remotePeer sessionId existing).1.store = self.store ∧
      (self.handleDuplicateTargetSet remotePeer sessionId existing).1.ingest = self.ingest := by
  unfold handleDuplicateTargetSet
  split
  · exact ⟨rfl, rfl⟩
  · split
    · split <;> simp
    · exact ⟨rfl, rfl⟩

/-- A request changes the table of sessions only. -/
theorem handleSyncRequest_frame (self : SyncManager P) (remotePeer : P) (mode : Mode)
    (sessionId : SessionId) (targetSet : SchemaIdSet) :
    (self.handleSyncRequest remotePeer mode sessionId targetSet).1.store = self.store ∧
      (self.handleSyncRequest remotePeer mode sessionId targetSet).1.ingest = self.ingest := by
  unfold handleSyncRequest
  split
  · exact ⟨rfl, rfl⟩
  · dsimp only
    split
    · exact handleDuplicateSession_frame ..
    · split
      · exact handleDuplicateTargetSet_frame ..
      · simp

variable [ToString P]

omit [LT P] [DecidableRel (α := P) (· < ·)] in
/-- A `Have` or a `SyncDone` changes the table of sessions only, also when it fails. -/
theorem handleSessionMessage_frame {remotePeer : P} {sessionId : SessionId} {message : Message}
    {self next : SyncManager P} {result : Except ReplicationError SyncResult}
    (h : self.handleSessionMessage remotePeer sessionId message = some (next, result)) :
    next.store = self.store ∧ next.ingest = self.ingest := by
  unfold handleSessionMessage at h
  split at h
  · cases h
    exact ⟨rfl, rfl⟩
  split at h
  · cases h
    exact ⟨rfl, rfl⟩
  obtain ⟨⟨updated, out⟩, -, h⟩ := Option.bind_eq_some_iff.mp h
  cases out with
  | error err =>
    cases h
    exact ⟨rfl, rfl⟩
  | ok messages =>
    cases h
    split <;> simp [updateSession]

omit [LT P] [DecidableRel (α := P) (· < ·)] in
/-- An entry is written by `publish`, or not at all. -/
theorem handleEntry_storeStep {remotePeer : P} {sessionId : SessionId} {entry : EncodedEntry}
    {operation : Option EncodedOperation} {self next : SyncManager P}
    {result : Except ReplicationError SyncResult}
    (h : self.handleEntry remotePeer sessionId entry operation = some (next, result)) :
    StoreStep self next := by
  have hframe := handleEntry_frame h
  refine ⟨by rw [hframe], ?_⟩
  unfold handleEntry at h
  split at h
  · cases h
    exact .inl rfl
  split at h
  · cases h
    exact .inl rfl
  cases operation with
  | none => cases h
  | some op =>
    simp only [Option.map_some, Option.some.injEq] at h
    split at h
    · next store hingest =>
      cases h
      obtain ⟨schema, hpublish⟩ := SyncIngest.handleEntry_eq_ok hingest
      exact .inr ⟨schema, entry, op, hpublish⟩
    all_goals
      cases h
      exact .inl rfl

/-- Every message is written to the store by `publish`, or not at all. -/
theorem handleMessage_storeStep {remotePeer : P} {message : SyncMessage} {self next : SyncManager P}
    {result : Except ReplicationError SyncResult}
    (h : self.handleMessage remotePeer message = some (next, result)) : StoreStep self next := by
  obtain ⟨sessionId, message⟩ := message
  cases message with
  | syncRequest mode targetSet =>
    obtain rfl := congrArg Prod.fst (Option.some.inj h)
    obtain ⟨hstore, hingest⟩ := handleSyncRequest_frame self remotePeer mode sessionId targetSet
    exact .of_eq hingest hstore
  | entry entry operation => exact handleEntry_storeStep h
  | syncDone _ | «have» _ =>
    obtain ⟨hstore, hingest⟩ := handleSessionMessage_frame h
    exact .of_eq hingest hstore

end Frames

end SyncManager

namespace ConnectionManager

variable {I : Type} [DecidableEq I] {self next : ConnectionManager I}

/-- The sync manager of `next` is that of `self` with a step on its store. -/
abbrev StoreStep (self next : ConnectionManager I) : Prop :=
  self.syncManager.StoreStep next.syncManager

/-- An error only drops the session: the store and the ingest stay. -/
theorem onReplicationError_storeStep {peer : Peer I} {sessionId : SessionId}
    {sent : List (ServiceMessage I)} (h : self.onReplicationError peer sessionId = some (next, sent)) :
    self.StoreStep next := by
  rw [StoreStep, onReplicationError_syncManager h]
  exact .of_eq (SyncManager.removeSession_ingest ..) (SyncManager.removeSession_store ..)

/-- The loop of `update_sessions` opens sessions only. -/
theorem foldl_initiateStep_frame (candidates : List (Peer I × SchemaIdSet)) :
    ∀ acc : ConnectionManager I × List (ServiceMessage I),
      (candidates.foldl initiateStep acc).1.syncManager.store = acc.1.syncManager.store ∧
        (candidates.foldl initiateStep acc).1.syncManager.ingest = acc.1.syncManager.ingest := by
  induction candidates with
  | nil => exact fun _ => ⟨rfl, rfl⟩
  | cons candidate rest ih =>
    intro acc
    rw [List.foldl_cons]
    obtain ⟨hstore, hingest⟩ := ih (initiateStep acc candidate)
    -- One turn stores what `initiate_session` returned.
    have hstep : (initiateStep acc candidate).1.syncManager =
        (acc.1.syncManager.initiateSession candidate.1 candidate.2 .logHeight).1 := by
      simp only [initiateStep, initiateReplication]
      split <;> next _ _ hcall => rw [hcall]
    rw [hstore, hingest, hstep]
    exact ⟨SyncManager.initiateSession_store .., SyncManager.initiateSession_ingest ..⟩

/-- A beat of the scheduler announces and opens sessions only. -/
theorem onUpdate_storeStep {now : Nat} {order : Shuffle (Peer I)}
    {shuffle : Shuffle (Peer I × SchemaIdSet)} {sent : List (ServiceMessage I)}
    (h : self.onUpdate now order shuffle = some (next, sent)) : self.StoreStep next := by
  obtain ⟨announced, _, _, hannounce, hupdate, -⟩ := onUpdate_eq_some h
  unfold updateSessions at hupdate
  obtain ⟨attempts, -, hfold⟩ := Option.map_eq_some_iff.mp hupdate
  obtain ⟨hstore, hingest⟩ := foldl_initiateStep_frame
    ((shuffle.apply attempts).take maxPeerSample) (announced, [])
  rw [hfold] at hstore hingest
  have hsync := announce_syncManager hannounce
  exact .of_eq (hingest.trans (congrArg (·.ingest) hsync)) (hstore.trans (congrArg (·.store) hsync))

theorem onConnectionEstablished_storeStep {peer : Peer I} {now : Nat} {order : Shuffle (Peer I)}
    {shuffle : Shuffle (Peer I × SchemaIdSet)} {sent : List (ServiceMessage I)}
    (h : self.onConnectionEstablished peer now order shuffle = some (next, sent)) :
    self.StoreStep next := by
  unfold onConnectionEstablished at h
  split at h
  · cases h
    exact .of_eq rfl rfl
  · -- The scheduler runs on the table with the new peer, and the same sync manager.
    exact (onUpdate_storeStep h :)

section Messages

variable [LT I] [DecidableRel (α := I) (· < ·)] [ToString I]

/-- A replication message reaches the store through the sync manager only. -/
theorem routeReplicationMessage_storeStep {peer : Peer I} {message : SyncMessage}
    {sent : List (ServiceMessage I)} (h : self.routeReplicationMessage peer message = some (next, sent)) :
    self.StoreStep next := by
  unfold routeReplicationMessage at h
  obtain ⟨⟨syncManager, result⟩, hhandle, h⟩ := Option.bind_eq_some_iff.mp h
  have hstep := SyncManager.handleMessage_storeStep hhandle
  dsimp only at h
  split at h
  · split at h
    · obtain ⟨finished, hfinished, h⟩ := Option.bind_eq_some_iff.mp h
      cases h
      rw [StoreStep, onReplicationFinished_syncManager hfinished]
      exact hstep
    · cases h
      exact hstep
  · have hsync := onReplicationError_syncManager h
    exact hstep.trans_eq (by rw [hsync]; exact SyncManager.removeSession_ingest ..)
      (by rw [hsync]; exact SyncManager.removeSession_store ..)

theorem onReplicationMessage_storeStep {peer : Peer I} {message : SyncMessage}
    {sent : List (ServiceMessage I)} (h : self.onReplicationMessage peer message = some (next, sent)) :
    self.StoreStep next := by
  unfold onReplicationMessage at h
  split at h
  · split at h
    · cases h
    · split at h
      · exact onReplicationError_storeStep h
      · exact routeReplicationMessage_storeStep h
  · exact routeReplicationMessage_storeStep h

/-- The loop writes the store only through `publish`, and keeps the ingest. -/
theorem handle_storeStep [LinearOrder SchemaId] {event : ServiceEvent I}
    {sent : List (ServiceMessage I)} (h : self.handle event = some (next, sent)) :
    self.StoreStep next := by
  cases event with
  | bus message now order shuffle =>
    cases message with
    | peerConnected peer => exact onConnectionEstablished_storeStep h
    | peerDisconnected peer =>
      cases h
      exact .of_eq rfl rfl
    | receivedMessage peer message =>
      cases message with
      | syncMessage message => exact onReplicationMessage_storeStep h
      | announce message =>
        cases h
        rw [StoreStep, onAnnouncementMessage_syncManager]
        exact .of_eq rfl rfl
    | newOperation _ | sentMessage _ _ | replicationFailed _ =>
      cases h
      exact .of_eq rfl rfl
  | schemaAdded supportedSchemaIds now =>
    cases h
    exact .of_eq rfl rfl
  | tick now order shuffle => exact onUpdate_storeStep h

end Messages

end ConnectionManager

namespace Node

variable {I : Type} [DecidableEq I] [LT I] [DecidableRel (α := I) (· < ·)] [ToString I]
  [LinearOrder SchemaId]

/-- From the start of the service, the node ingests with the ingest it started with, and, when
`publish` keeps operations, its store keeps every entry's operation. -/
theorem stores_of_reachable {store : Db} {ingest : SyncIngest} {localPeerId : I}
    {supportedSchemaIds : List SchemaId} {now : Nat} {node : Node I}
    (hstore : store.OperationsStored) (hp : ingest.p2panda.KeepsOperations)
    (hreach : Reachable Step (start store ingest localPeerId supportedSchemaIds now) node) :
    node.manager.syncManager.ingest = ingest ∧ node.manager.syncManager.store.OperationsStored := by
  refine Reachable.invariant (fun node : Node I => node.manager.syncManager.ingest = ingest ∧
    node.manager.syncManager.store.OperationsStored) ?_ hreach ⟨rfl, hstore⟩
  intro node next event ⟨hingest, hstored⟩ hstep
  cases hstep with
  | handle _ hhandle =>
    have hstep := ConnectionManager.handle_storeStep hhandle
    exact ⟨hstep.1.trans hingest, hstep.operationsStored (hingest ▸ hp) hstored⟩

/-- From the start of the service on a store whose entries have their operations, with a
`publish` that keeps that, the loop panics on an event the network may deliver exactly when it
is an `Entry` without its operation from a peer that has a session under the message's id. -/
theorem reachable_handle_eq_none_iff {store : Db} {ingest : SyncIngest} {localPeerId : I}
    {supportedSchemaIds : List SchemaId} {now : Nat} {node : Node I} {event : ServiceEvent I}
    (hstore : store.OperationsStored) (hp : ingest.p2panda.KeepsOperations)
    (hreach : Reachable Step (start store ingest localPeerId supportedSchemaIds now) node)
    (hallowed : event.Allowed node.connections) :
    node.manager.handle event = none ↔ ∃ peer sessionId entry now order shuffle,
      event = .bus (.receivedMessage peer (.syncMessage ⟨sessionId, .entry entry none⟩)) now order
        shuffle ∧
      ∃ session ∈ node.manager.syncManager.getSessions peer, session.id = sessionId :=
  (tracks_of_reachable hreach).handle_eq_none_iff (stores_of_reachable hstore hp hreach).2 hallowed

end Node

/-- The entry without operation that peer `1` sends for session `0`. -/
def entryWithoutOperation : ServiceEvent Nat :=
  .bus (.receivedMessage ⟨1, 0⟩ (.syncMessage ⟨0, .entry ⟨"00"⟩ none⟩)) 0 (keepOrder _)
    (keepOrder _)

/-- The ingest of the runs here publishes nothing new. -/
theorem bareIngest_keepsOperations : bareIngest.p2panda.KeepsOperations := by
  intro store next schema entry operation hpublish hstore
  cases hpublish
  exact hstore

theorem requested_node_panics_on_entry_without_operation :
    letI : LinearOrder SchemaId := IsWellOrder.linearOrder WellOrderingRel
    Db.empty.OperationsStored ∧ bareIngest.p2panda.KeepsOperations ∧
      ∃ node, Reachable Node.Step (Node.start Db.empty bareIngest (0 : Nat) [] 0) node ∧
        entryWithoutOperation.Allowed node.connections ∧
        node.manager.handle entryWithoutOperation = none := by
  let _ : LinearOrder SchemaId := IsWellOrder.linearOrder WellOrderingRel
  have hempty : Db.empty.OperationsStored := fun _ hrow => absurd hrow List.not_mem_nil
  obtain ⟨node, run, hconnections, session, hsession, hid⟩ := requested_run
  have hallowed : entryWithoutOperation.Allowed node.connections := by
    rw [hconnections]
    exact List.mem_singleton_self _
  exact ⟨hempty, bareIngest_keepsOperations, node, ⟨_, run⟩, hallowed,
    (Node.reachable_handle_eq_none_iff hempty bareIngest_keepsOperations ⟨_, run⟩ hallowed).mpr
      ⟨_, 0, _, 0, _, _, rfl, session, hsession, hid⟩⟩

end Aquadoggo.Replication
