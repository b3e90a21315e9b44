import Aquadoggo.Replication.ServiceRuns

/-! The sessions a node opens itself. Only the scheduler opens one, and only with a peer that runs
fewer than `MAX_SESSIONS_PER_PEER` sessions; a request that collides with one of ours replaces it
by at most one. However its peers interleave their requests, a node never runs more than
`MAX_SESSIONS_PER_PEER` sessions of its own with one peer. -/
namespace Aquadoggo.Replication

open Library Network

namespace Session

theorem handleMessage_isLocal {self next : Session} {provider : SchemaProvider} {db : Db}
    {message : Message} {out : Except ReplicationError (List Message)}
    (h : self.handleMessage provider db message = some (next, out)) : next.isLocal = self.isLocal := by
  obtain ⟨liveMode, -, rfl, -⟩ | ⟨strategy, err, -, rfl, -⟩ | ⟨strategy, result, -, rfl, -⟩ :=
    handleMessage_cases h
  · rw [settle_eq]
  · rfl
  · rw [settle_eq, flippyFlaggy_fst]

end Session

namespace SyncManager

variable {P : Type} [DecidableEq P]

/-- The sessions with `peer` that we opened. -/
def localSessions (self : SyncManager P) (peer : P) : Nat :=
  (self.getSessions peer).countP (·.isLocal)

def LocalBounded (self : SyncManager P) : Prop :=
  ∀ peer, self.localSessions peer ≤ maxSessionsPerPeer

section Counts

variable (self : SyncManager P)

theorem localSessions_le_length (peer : P) :
    self.localSessions peer ≤ (self.getSessions peer).length :=
  List.countP_le_length

theorem localSessions_pushSession (remotePeer peer : P) (session : Session) :
    (self.pushSession remotePeer session).localSessions peer =
      self.localSessions peer + if peer = remotePeer ∧ session.isLocal = true then 1 else 0 := by
  unfold localSessions
  rw [getSessions_pushSession]
  by_cases hpeer : peer = remotePeer
  · subst hpeer
    cases hlocal : session.isLocal <;> simp [List.countP_append, hlocal]
  · simp [hpeer]

theorem localSessions_removeSession_le (remotePeer peer : P) (sessionId : SessionId) :
    (self.removeSession remotePeer sessionId).localSessions peer ≤ self.localSessions peer := by
  unfold localSessions
  rw [getSessions_removeSession]
  split
  · next hpeer =>
    subst hpeer
    exact List.eraseP_sublist.countP_le
  · exact le_refl _

theorem localSessions_removeSession_of_find? {remotePeer : P} {sessionId : SessionId}
    {existing : Session} (hfind : (self.getSessions remotePeer).find? (·.id == sessionId) = some existing) :
    (self.removeSession remotePeer sessionId).localSessions remotePeer +
      (if existing.isLocal then 1 else 0) = self.localSessions remotePeer := by
  unfold localSessions
  rw [getSessions_removeSession, if_pos rfl]
  exact countP_eraseP_add_of_find? hfind

theorem getSessions_removeSessions (remotePeer peer : P) :
    (self.removeSessions remotePeer).getSessions peer =
      if peer = remotePeer then [] else self.getSessions peer := by
  unfold removeSessions getSessions
  rw [lookup_filter_ne]
  split <;> rfl

theorem localSessions_removeSessions_le (remotePeer peer : P) :
    (self.removeSessions remotePeer).localSessions peer ≤ self.localSessions peer := by
  unfold localSessions
  rw [getSessions_removeSessions]
  split
  · exact Nat.zero_le _
  · exact le_refl _

theorem localSessions_insertAndInitializeSession (remotePeer peer : P) (sessionId : SessionId)
    (targetSet : SchemaIdSet) :
    (self.insertAndInitializeSession remotePeer sessionId targetSet false).1.localSessions peer =
      self.localSessions peer := by
  rw [insertAndInitializeSession_eq, localSessions_pushSession]
  simp [Session.new]

theorem localSessions_initiateSession_le (remotePeer peer : P) (targetSet : SchemaIdSet) (mode : Mode) :
    (self.initiateSession remotePeer targetSet mode).1.localSessions peer ≤
      self.localSessions peer + if peer = remotePeer then 1 else 0 := by
  rcases initiateSession_cases self remotePeer targetSet mode with hsame | ⟨-, hnext⟩
  · rw [hsame]
    exact Nat.le_add_right _ _
  · rw [hnext, insertSession, localSessions_pushSession]
    by_cases hpeer : peer = remotePeer <;> simp [hpeer, Session.new]

@[simp] theorem localSessions_store (store : Db) (peer : P) :
    ({ self with store := store } : SyncManager P).localSessions peer = self.localSessions peer := rfl

theorem localSessions_insertMap (remotePeer peer : P) (sessions : List Session) :
    ({ self with sessions := insertMap self.sessions remotePeer sessions } : SyncManager P).localSessions peer =
      if peer = remotePeer then sessions.countP (·.isLocal) else self.localSessions peer := by
  unfold localSessions getSessions
  rw [lookup_insertMap]
  split <;> rfl

end Counts

theorem LocalBounded.of_le {self next : SyncManager P} (h : self.LocalBounded)
    (hle : ∀ peer, next.localSessions peer ≤ self.localSessions peer) : next.LocalBounded :=
  fun peer => (hle peer).trans (h peer)

section Handlers

variable {self : SyncManager P} [ToString P]

theorem localSessions_handleSessionMessage_le {remotePeer : P} {sessionId : SessionId}
    {message : Message} {next : SyncManager P} {result : Except ReplicationError SyncResult}
    (h : self.handleSessionMessage remotePeer sessionId message = some (next, result)) (peer : P) :
    next.localSessions peer ≤ self.localSessions peer := by
  unfold SyncManager.handleSessionMessage at h
  split at h
  · cases h
    exact le_refl _
  next sessions hlookup =>
  split at h
  · cases h
    exact le_refl _
  next session hfind =>
  have hsessions : self.getSessions remotePeer = sessions := by simp [getSessions, hlookup]
  obtain ⟨⟨updated, out⟩, hcall, h⟩ := Option.bind_eq_some_iff.mp h
  have hlocal : updated.isLocal = session.isLocal := Session.handleMessage_isLocal hcall
  -- Storing the updated session keeps the count: it is ours exactly when the old one was.
  have hupdate : (self.updateSession remotePeer sessions sessionId updated).localSessions peer =
      self.localSessions peer := by
    unfold updateSession
    rw [localSessions_insertMap]
    split
    · next hpeer =>
      subst hpeer
      rw [countP_set_findIdx hfind hlocal]
      unfold localSessions
      rw [hsessions]
    · rfl
  cases out with
  | error err =>
    cases h
    exact hupdate.le
  | ok messages =>
    cases h
    split
    · calc ((self.updateSession remotePeer sessions sessionId updated).removeSession remotePeer
              sessionId).localSessions peer
          ≤ (self.updateSession remotePeer sessions sessionId updated).localSessions peer :=
            localSessions_removeSession_le _ _ _ _
        _ = self.localSessions peer := hupdate
    · exact hupdate.le

theorem localSessions_handleEntry {remotePeer : P} {sessionId : SessionId} {entry : EncodedEntry}
    {operation : Option EncodedOperation} {next : SyncManager P}
    {result : Except ReplicationError SyncResult}
    (h : self.handleEntry remotePeer sessionId entry operation = some (next, result)) (peer : P) :
    next.localSessions peer = self.localSessions peer := by
  rw [handleEntry_frame h]
  rfl

variable [LT P] [DecidableRel (α := P) (· < ·)]

omit [ToString P] in
/-- The table after a request that reuses the id of `existing`: unchanged, or, when `existing` is
ours, the inbound session in its place, and then perhaps our request for its target set again. -/
theorem handleDuplicateSession_fst (self : SyncManager P) (remotePeer : P) (targetSet : SchemaIdSet)
    (existing : Session) :
    (self.handleDuplicateSession remotePeer targetSet existing).1 = self ∨ existing.isLocal = true ∧
      ∃ inserted, inserted = ((self.removeSession remotePeer existing.id).insertAndInitializeSession
          remotePeer existing.id targetSet false).1 ∧
        ((self.handleDuplicateSession remotePeer targetSet existing).1 = inserted ∨
          (self.handleDuplicateSession remotePeer targetSet existing).1 =
            (inserted.initiateSession remotePeer existing.targetSet existing.mode).1) := by
  unfold SyncManager.handleDuplicateSession
  split
  · exact .inl rfl
  next hlocal =>
  have hours : existing.isLocal = true := by simpa using hlocal
  cases existing.state
  · by_cases hlt : self.localPeer < remotePeer
    · simp only [hlt, if_true]
      refine .inr ⟨hours, _, rfl, ?_⟩
      split
      · split <;> next _ _ hcall => exact .inr (by rw [hcall])
      · exact .inl rfl
    · simp only [hlt, if_false, true_or]
  · exact .inl rfl
  · exact .inl rfl

omit [ToString P] in
/-- The table after a request for the target set of `existing`: unchanged, or the inbound session
in place of ours. -/
theorem handleDuplicateTargetSet_fst (self : SyncManager P) (remotePeer : P) (sessionId : SessionId)
    (existing : Session) :
    (self.handleDuplicateTargetSet remotePeer sessionId existing).1 = self ∨
      (self.handleDuplicateTargetSet remotePeer sessionId existing).1 =
        ((self.removeSession remotePeer existing.id).insertAndInitializeSession remotePeer sessionId
          existing.targetSet false).1 := by
  unfold SyncManager.handleDuplicateTargetSet
  split
  · exact .inl rfl
  · split
    · split
      · exact .inr rfl
      · exact .inl rfl
    · exact .inl rfl

omit [ToString P] in
/-- Accepting a request that reuses the id of one of our pending sessions drops ours, and asks
again for its target set under a new id when that differs: one of ours out, at most one in. -/
theorem localSessions_handleDuplicateSession_le {remotePeer : P} {targetSet : SchemaIdSet}
    {existing : Session} (hexisting : (self.getSessions remotePeer).find? (·.id == existing.id) = some existing)
    (peer : P) :
    (self.handleDuplicateSession remotePeer targetSet existing).1.localSessions peer ≤
      self.localSessions peer := by
  rcases handleDuplicateSession_fst self remotePeer targetSet existing with hsame | ⟨hours, inserted, hinserted, hnext⟩
  · rw [hsame]
  have hremoved := self.localSessions_removeSession_of_find? hexisting
  rw [hours, if_pos rfl] at hremoved
  have hle := self.localSessions_removeSession_le remotePeer peer existing.id
  have hkept : inserted.localSessions peer = (self.removeSession remotePeer existing.id).localSessions peer := by
    rw [hinserted, localSessions_insertAndInitializeSession]
  have hinit := inserted.localSessions_initiateSession_le remotePeer peer existing.targetSet existing.mode
  -- Ours was dropped from the peer's sessions, so the one our request opens again fits.
  by_cases hpeer : peer = remotePeer
  · subst hpeer
    simp only [if_true] at hinit
    rcases hnext with hnext | hnext <;> rw [hnext] <;> omega
  · simp only [hpeer, if_false] at hinit
    rcases hnext with hnext | hnext <;> rw [hnext] <;> omega

omit [ToString P] in
theorem localSessions_handleDuplicateTargetSet_le (remotePeer : P) (sessionId : SessionId)
    (existing : Session) (peer : P) :
    (self.handleDuplicateTargetSet remotePeer sessionId existing).1.localSessions peer ≤
      self.localSessions peer := by
  rcases handleDuplicateTargetSet_fst self remotePeer sessionId existing with hsame | hnext
  · rw [hsame]
  · rw [hnext, localSessions_insertAndInitializeSession]
    exact localSessions_removeSession_le _ _ _ _

omit [ToString P] in
theorem localSessions_handleSyncRequest_le (remotePeer : P) (mode : Mode) (sessionId : SessionId)
    (targetSet : SchemaIdSet) (peer : P) :
    (self.handleSyncRequest remotePeer mode sessionId targetSet).1.localSessions peer ≤
      self.localSessions peer := by
  unfold SyncManager.handleSyncRequest
  split
  · exact le_refl _
  · dsimp only
    split
    · next existing hfind =>
      have hid : existing.id = sessionId := by simpa using List.find?_some hfind
      subst hid
      exact localSessions_handleDuplicateSession_le hfind peer
    · split
      · exact localSessions_handleDuplicateTargetSet_le _ _ _ peer
      · exact (localSessions_insertAndInitializeSession _ _ _ _ _).le

/-- No message of a peer adds a session of ours, with any peer. -/
theorem localSessions_handleMessage_le {remotePeer : P} {message : SyncMessage} {next : SyncManager P}
    {result : Except ReplicationError SyncResult}
    (h : self.handleMessage remotePeer message = some (next, result)) (peer : P) :
    next.localSessions peer ≤ self.localSessions peer := by
  obtain ⟨sessionId, message⟩ := message
  cases message with
  | syncRequest mode targetSet =>
    obtain rfl := congrArg Prod.fst (Option.some.inj h)
    exact localSessions_handleSyncRequest_le remotePeer mode sessionId targetSet peer
  | entry entry operation => exact (localSessions_handleEntry h peer).le
  | syncDone _ | «have» _ => exact localSessions_handleSessionMessage_le h peer

end Handlers

end SyncManager

namespace ConnectionManager

variable {I : Type} {self : ConnectionManager I} {connections : List (Peer I)}

theorem announce_syncManager {now : Nat} {next : ConnectionManager I} {sent : List (ServiceMessage I)}
    (h : self.announce now = some (next, sent)) : next.syncManager = self.syncManager := by
  obtain ⟨-, -, hframe, -⟩ := announce_eq_some h
  rw [hframe]

variable [DecidableEq I]

theorem onAnnouncementMessage_syncManager (self : ConnectionManager I) (peer : Peer I)
    (message : AnnouncementMessage) : (self.onAnnouncementMessage peer message).syncManager = self.syncManager := by
  unfold ConnectionManager.onAnnouncementMessage
  split
  · rfl
  · dsimp only
    split
    · split
      · split <;> rfl
      · rfl
    · rfl

theorem onReplicationFinished_syncManager {peer : Peer I} {next : ConnectionManager I}
    (h : self.onReplicationFinished peer = some next) : next.syncManager = self.syncManager := by
  unfold ConnectionManager.onReplicationFinished at h
  split at h
  · cases h
    rfl
  · cases h

theorem onReplicationError_syncManager {peer : Peer I} {sessionId : SessionId} {next : ConnectionManager I}
    {sent : List (ServiceMessage I)} (h : self.onReplicationError peer sessionId = some (next, sent)) :
    next.syncManager = self.syncManager.removeSession peer sessionId := by
  unfold ConnectionManager.onReplicationError at h
  split at h
  · cases h
    rfl
  · cases h

theorem localSessions_initiateReplication_le (self : ConnectionManager I) (peer : Peer I)
    (targetSet : SchemaIdSet) (other : Peer I) :
    (self.initiateReplication peer targetSet).1.syncManager.localSessions other ≤
      self.syncManager.localSessions other + if other = peer then 1 else 0 := by
  have hle := self.syncManager.localSessions_initiateSession_le peer other targetSet .logHeight
  unfold ConnectionManager.initiateReplication
  split <;> next _ _ hcall => rw [hcall] at hle; exact hle

/-- The loop of `update_sessions` adds at most one session of ours each time it picks a peer. -/
theorem localSessions_foldl_initiateStep_le (candidates : List (Peer I × SchemaIdSet)) (peer : Peer I) :
    ∀ acc : ConnectionManager I × List (ServiceMessage I),
      (candidates.foldl initiateStep acc).1.syncManager.localSessions peer ≤
        acc.1.syncManager.localSessions peer + (candidates.map (·.1)).count peer := by
  induction candidates with
  | nil => intro acc; simp
  | cons candidate rest ih =>
    intro acc
    have hstep := localSessions_initiateReplication_le acc.1 candidate.1 candidate.2 peer
    have hrest := ih (initiateStep acc candidate)
    change _ ≤ (acc.1.initiateReplication candidate.1 candidate.2).1.syncManager.localSessions peer + _ at hrest
    rw [List.foldl_cons, List.map_cons, List.count_cons]
    by_cases hpeer : peer = candidate.1
    · subst hpeer
      simp only [if_true, beq_self_eq_true] at hstep ⊢
      omega
    · have hne : (candidate.1 == peer) = false := beq_false_of_ne (Ne.symm hpeer)
      simp only [hpeer, if_false, hne] at hstep ⊢
      omega

/-- A peer the scheduler may pick runs fewer than `MAX_SESSIONS_PER_PEER` sessions of ours: none of
its sessions is finished, so all of them count as active. -/
theorem Tracks.localSessions_lt_of_mem_attemptPeers (h : self.Tracks connections)
    {attempts : List (Peer I × SchemaIdSet)} (hattempts : self.attemptPeers order = some attempts)
    {candidate : Peer I × SchemaIdSet} (hmem : candidate ∈ attempts) :
    self.syncManager.localSessions candidate.1 < maxSessionsPerPeer := by
  obtain ⟨-, -, -, -, -, -, -, -, hactive, -⟩ := of_mem_attemptPeers hattempts hmem
  have hall : (self.syncManager.getSessions candidate.1).filter (fun session => !session.isDone) =
      self.syncManager.getSessions candidate.1 :=
    List.filter_eq_self.mpr fun session hsession => by
      simpa [Session.isDone] using h.kept.not_done hsession
  rw [hall] at hactive
  exact lt_of_le_of_lt (self.syncManager.localSessions_le_length _) hactive

theorem Tracks.localBounded_updateSessions (h : self.Tracks connections)
    (hbounded : self.syncManager.LocalBounded) {order : Shuffle (Peer I)}
    {shuffle : Shuffle (Peer I × SchemaIdSet)} {next : ConnectionManager I}
    {sent : List (ServiceMessage I)} (hupdate : self.updateSessions order shuffle = some (next, sent)) :
    next.syncManager.LocalBounded := by
  unfold ConnectionManager.updateSessions at hupdate
  obtain ⟨attempts, hattempts, hfold⟩ := Option.map_eq_some_iff.mp hupdate
  have hnext : (((shuffle.apply attempts).take maxPeerSample).foldl initiateStep (self, [])).1 = next :=
    congrArg Prod.fst hfold
  intro peer
  have hle := localSessions_foldl_initiateStep_le ((shuffle.apply attempts).take maxPeerSample) peer (self, [])
  rw [hnext] at hle
  have hcount := List.nodup_iff_count_le_one.mp (attemptPeers_picked_nodup hattempts shuffle maxPeerSample) peer
  -- A picked peer gains one session of ours, from below the bound; the others gain none.
  by_cases hpicked : peer ∈ ((shuffle.apply attempts).take maxPeerSample).map (·.1)
  · obtain ⟨candidate, hmem, rfl⟩ := List.mem_map.mp hpicked
    have hlt := h.localSessions_lt_of_mem_attemptPeers hattempts (shuffle.take_subset attempts maxPeerSample hmem)
    dsimp only at hle
    omega
  · rw [List.count_eq_zero_of_not_mem hpicked] at hle
    exact hle.trans (hbounded peer)

theorem Tracks.localBounded_onUpdate (h : self.Tracks connections) (hbounded : self.syncManager.LocalBounded)
    {now : Nat} {order : Shuffle (Peer I)} {shuffle : Shuffle (Peer I × SchemaIdSet)}
    {next : ConnectionManager I} {sent : List (ServiceMessage I)}
    (hupdate : self.onUpdate now order shuffle = some (next, sent)) :
    next.syncManager.LocalBounded := by
  obtain ⟨announced, announcedSent, initiated, hannounce, hsessions, -⟩ := onUpdate_eq_some hupdate
  have hsame := announce_syncManager hannounce
  exact (h.announce hannounce).localBounded_updateSessions (hsame ▸ hbounded) hsessions

theorem Tracks.localBounded_onConnectionEstablished (h : self.Tracks connections)
    (hbounded : self.syncManager.LocalBounded) {peer : Peer I} (hnew : peer ∉ connections) {now : Nat}
    {order : Shuffle (Peer I)} {shuffle : Shuffle (Peer I × SchemaIdSet)} {next : ConnectionManager I}
    {sent : List (ServiceMessage I)}
    (hestablished : self.onConnectionEstablished peer now order shuffle = some (next, sent)) :
    next.syncManager.LocalBounded := by
  unfold ConnectionManager.onConnectionEstablished at hestablished
  rw [h.lookup_eq_none hnew] at hestablished
  exact (h.insertPeer hnew).localBounded_onUpdate hbounded hestablished

variable [LT I] [DecidableRel (α := I) (· < ·)] [ToString I]

/-- A replication message is refused by the allow list, as an error of the session would be, or
goes to the sync manager. -/
theorem onReplicationMessage_cases {peer : Peer I} {message : SyncMessage} {next : ConnectionManager I}
    {sent : List (ServiceMessage I)} (hmessage : self.onReplicationMessage peer message = some (next, sent)) :
    self.onReplicationError peer message.sessionId = some (next, sent) ∨
      self.routeReplicationMessage peer message = some (next, sent) := by
  unfold ConnectionManager.onReplicationMessage at hmessage
  split at hmessage
  · split at hmessage
    · cases hmessage
    · split at hmessage
      · exact .inl hmessage
      · exact .inr hmessage
  · exact .inr hmessage

theorem localSessions_routeReplicationMessage_le {peer : Peer I} {message : SyncMessage}
    {next : ConnectionManager I} {sent : List (ServiceMessage I)}
    (hroute : self.routeReplicationMessage peer message = some (next, sent)) (other : Peer I) :
    next.syncManager.localSessions other ≤ self.syncManager.localSessions other := by
  unfold ConnectionManager.routeReplicationMessage at hroute
  obtain ⟨⟨syncManager, result⟩, hhandle, hroute⟩ := Option.bind_eq_some_iff.mp hroute
  have hle := SyncManager.localSessions_handleMessage_le hhandle other
  dsimp only at hroute
  split at hroute
  · split at hroute
    · obtain ⟨finished, hfinished, hroute⟩ := Option.bind_eq_some_iff.mp hroute
      cases hroute
      rw [onReplicationFinished_syncManager hfinished]
      exact hle
    · cases hroute
      exact hle
  · rw [onReplicationError_syncManager hroute]
    exact (SyncManager.localSessions_removeSession_le _ _ _ _).trans hle

theorem localSessions_onReplicationMessage_le {peer : Peer I} {message : SyncMessage}
    {next : ConnectionManager I} {sent : List (ServiceMessage I)}
    (hmessage : self.onReplicationMessage peer message = some (next, sent)) (other : Peer I) :
    next.syncManager.localSessions other ≤ self.syncManager.localSessions other := by
  rcases onReplicationMessage_cases hmessage with herror | hroute
  · rw [onReplicationError_syncManager herror]
    exact SyncManager.localSessions_removeSession_le _ _ _ _
  · exact localSessions_routeReplicationMessage_le hroute other

theorem Tracks.localBounded_handleServiceMessage (h : self.Tracks connections)
    (hbounded : self.syncManager.LocalBounded) {now : Nat} {order : Shuffle (Peer I)}
    {shuffle : Shuffle (Peer I × SchemaIdSet)} {message : ServiceMessage I}
    (hallowed : message.Allowed connections) {next : ConnectionManager I}
    {sent : List (ServiceMessage I)}
    (hhandle : self.handleServiceMessage now order shuffle message = some (next, sent)) :
    next.syncManager.LocalBounded := by
  cases message with
  | peerConnected peer => exact h.localBounded_onConnectionEstablished hbounded hallowed hhandle
  | peerDisconnected peer =>
    cases hhandle
    exact hbounded.of_le (self.syncManager.localSessions_removeSessions_le peer)
  | receivedMessage peer message =>
    cases message with
    | syncMessage message => exact hbounded.of_le (localSessions_onReplicationMessage_le hhandle)
    | announce message =>
      cases hhandle
      rw [onAnnouncementMessage_syncManager]
      exact hbounded
  | newOperation _ | sentMessage _ _ | replicationFailed _ =>
    cases hhandle
    exact hbounded

theorem Tracks.localBounded_handle [LinearOrder SchemaId] (h : self.Tracks connections)
    (hbounded : self.syncManager.LocalBounded) {event : ServiceEvent I} (hallowed : event.Allowed connections)
    {next : ConnectionManager I} {sent : List (ServiceMessage I)}
    (hhandle : self.handle event = some (next, sent)) : next.syncManager.LocalBounded := by
  cases event with
  | bus message now order shuffle => exact h.localBounded_handleServiceMessage hbounded hallowed hhandle
  | schemaAdded supportedSchemaIds now =>
    cases hhandle
    exact hbounded
  | tick now order shuffle => exact h.localBounded_onUpdate hbounded hhandle

end ConnectionManager

namespace Node

variable {I : Type} [DecidableEq I] [LT I] [DecidableRel (α := I) (· < ·)] [ToString I]
  [LinearOrder SchemaId]

omit [LT I] [DecidableRel (α := I) (· < ·)] [ToString I] in
theorem localBounded_start (store : Db) (ingest : SyncIngest) (localPeerId : I)
    (supportedSchemaIds : List SchemaId) (now : Nat) :
    (start store ingest localPeerId supportedSchemaIds now).manager.syncManager.LocalBounded :=
  fun _ => Nat.zero_le _

theorem localBounded_step {node next : Node I} {event : ServiceEvent I}
    (h : node.manager.Tracks node.connections) (hbounded : node.manager.syncManager.LocalBounded)
    (hstep : Step node event next) : next.manager.syncManager.LocalBounded := by
  cases hstep with
  | handle hallowed hhandle => exact h.localBounded_handle hbounded hallowed hhandle

/-- From the start of the service, along any order of events the network may deliver, the node
runs at most `MAX_SESSIONS_PER_PEER` sessions it opened itself with each peer. -/
theorem reachable_local_sessions_bounded {store : Db} {ingest : SyncIngest} {localPeerId : I}
    {supportedSchemaIds : List SchemaId} {now : Nat} {node : Node I}
    (hreach : Reachable Step (start store ingest localPeerId supportedSchemaIds now) node) (peer : Peer I) :
    (node.manager.syncManager.getSessions peer).countP (·.isLocal) ≤ maxSessionsPerPeer := by
  -- The bound rests on the table invariant: the scheduler counts the sessions it sees as active.
  have hboth := Reachable.invariant
    (fun node : Node I => node.manager.Tracks node.connections ∧ node.manager.syncManager.LocalBounded)
    (fun _ _ _ h hstep => ⟨tracks_step h.1 hstep, localBounded_step h.1 h.2 hstep⟩) hreach
    ⟨tracks_start store ingest localPeerId _ now, localBounded_start store ingest localPeerId _ now⟩
  exact hboth.2 peer

end Node

/-- After peer `1` announced blobs, a beat of the scheduler opens a session of ours with it. -/
theorem announced_node_opens_local_session : letI : LinearOrder SchemaId := IsWellOrder.linearOrder WellOrderingRel
    ∃ node, Reachable Node.Step (Node.start Db.empty bareIngest (0 : Nat) [.blob 1] 1) node ∧
      (node.manager.syncManager.getSessions ⟨1, 0⟩).countP (·.isLocal) = 1 ∧
      (node.manager.syncManager.getSessions ⟨1, 0⟩).countP (·.isLocal) ≤ maxSessionsPerPeer := by
  let _ : LinearOrder SchemaId := IsWellOrder.linearOrder WellOrderingRel
  obtain ⟨node, run, hcount⟩ : ∃ node, Run Node.Step (Node.start Db.empty bareIngest (0 : Nat) [.blob 1] 1)
      (announcedBlobs ++ [.tick 2 (keepOrder _) (keepOrder _)]) node ∧
      (node.manager.syncManager.getSessions ⟨1, 0⟩).countP (·.isLocal) = 1 := by
    rw [start_blobs]
    exact ⟨_, Run.cons (Node.Step.handle List.not_mem_nil rfl)
      (Run.cons (Node.Step.handle (List.mem_singleton_self _) rfl) (Run.single (Node.Step.handle trivial rfl))),
      rfl⟩
  exact ⟨node, ⟨_, run⟩, hcount, Node.reachable_local_sessions_bounded ⟨_, run⟩ ⟨1, 0⟩⟩

end Aquadoggo.Replication
