import Mathlib.SetTheory.Cardinal.Order
import Aquadoggo.Replication.Service
import Aquadoggo.Replication.Handling
import Aquadoggo.Replication.SessionTable

/-! The replication service over whole runs. The network delivers the events of each
connection in libp2p's order; from any state such runs reach, the connection manager knows
exactly the open connections, its sync manager holds sessions only with them and never a
finished one. -/
namespace Aquadoggo.Replication

open Library Network

namespace Session

theorem handleMessage_id {self next : Session} {provider : SchemaProvider} {db : Db}
    {message : Message} {out : Except ReplicationError (List Message)}
    (h : self.handleMessage provider db message = some (next, out)) : next.id = self.id := by
  obtain ⟨liveMode, -, rfl, -⟩ | ⟨strategy, err, -, rfl, -⟩ | ⟨strategy, result, -, rfl, -⟩ :=
    handleMessage_cases h
  · rw [settle_eq]
  · rfl
  · rw [settle_eq, flippyFlaggy_fst]

/-- A session that fails keeps its state: `handle_message` settles only after the strategy
answered. -/
theorem handleMessage_error_state {self next : Session} {provider : SchemaProvider} {db : Db}
    {message : Message} {err : ReplicationError}
    (h : self.handleMessage provider db message = some (next, .error err)) :
    next.state = self.state := by
  obtain ⟨liveMode, -, -, hout⟩ | ⟨strategy, err, -, rfl, -⟩ | ⟨strategy, result, -, -, hout⟩ :=
    handleMessage_cases h
  · cases hout
  · rfl
  · cases hout

end Session

namespace SyncManager

variable {P : Type}

/-- What the service relies on of the session table: every peer in it is one of `peers`, and
no session in it is finished, since a session that finishes is removed at once. -/
structure Kept (manager : SyncManager P) (peers : List P) : Prop where
  within : ∀ entry ∈ manager.sessions, entry.1 ∈ peers
  running : ∀ entry ∈ manager.sessions, ∀ session ∈ entry.2, session.state ≠ .done

section Kept

variable {self : SyncManager P} {peers : List P}

theorem Kept.mono (h : self.Kept peers) {larger : List P} (hsub : peers ⊆ larger) :
    self.Kept larger :=
  ⟨fun entry hentry => hsub (h.within entry hentry), h.running⟩

@[simp] theorem kept_store (store : Db) :
    ({ self with store := store } : SyncManager P).Kept peers ↔ self.Kept peers :=
  ⟨fun h => ⟨h.within, h.running⟩, fun h => ⟨h.within, h.running⟩⟩

variable [DecidableEq P]

theorem Kept.not_done (h : self.Kept peers) {remotePeer : P} {session : Session}
    (hmem : session ∈ self.getSessions remotePeer) : session.state ≠ .done := by
  unfold getSessions at hmem
  cases hlookup : self.sessions.lookup remotePeer with
  | none => simp [hlookup] at hmem
  | some sessions =>
    rw [hlookup, Option.getD_some] at hmem
    exact h.running _ (mem_of_lookup_eq_some hlookup) session hmem

/-- A peer with a session is one of `peers`. -/
theorem Kept.mem_of_getSessions (h : self.Kept peers) {remotePeer : P} {session : Session}
    (hmem : session ∈ self.getSessions remotePeer) : remotePeer ∈ peers := by
  unfold getSessions at hmem
  cases hlookup : self.sessions.lookup remotePeer with
  | none => simp [hlookup] at hmem
  | some sessions => exact h.within (remotePeer, sessions) (mem_of_lookup_eq_some hlookup)

/-- Replacing the sessions of a peer the table already has by unfinished ones. -/
theorem Kept.insertMap_known (h : self.Kept peers) {remotePeer : P} {old sessions : List Session}
    (hknown : self.sessions.lookup remotePeer = some old)
    (hsessions : ∀ session ∈ sessions, session.state ≠ .done) :
    ({ self with sessions := insertMap self.sessions remotePeer sessions } : SyncManager P).Kept peers := by
  constructor
  · intro entry hentry
    rcases mem_insertMap hentry with hold | rfl
    · exact h.within entry hold
    · exact h.within (remotePeer, old) (mem_of_lookup_eq_some hknown)
  · intro entry hentry session hsession
    rcases mem_insertMap hentry with hold | rfl
    · exact h.running entry hold session hsession
    · exact hsessions session hsession

theorem Kept.pushSession (h : self.Kept peers) {remotePeer : P} (hpeer : remotePeer ∈ peers)
    {session : Session} (hsession : session.state ≠ .done) :
    (self.pushSession remotePeer session).Kept peers := by
  constructor
  · intro entry hentry
    rw [pushSession_sessions] at hentry
    rcases mem_insertMap hentry with hold | rfl
    · exact h.within entry hold
    · exact hpeer
  · intro entry hentry other hother
    rw [pushSession_sessions] at hentry
    rcases mem_insertMap hentry with hold | rfl
    · exact h.running entry hold other hother
    · rcases List.mem_append.mp hother with hold | hnew
      · exact h.not_done hold
      · rw [List.mem_singleton.mp hnew]
        exact hsession

theorem Kept.removeSession (h : self.Kept peers) (remotePeer : P) (sessionId : SessionId) :
    (self.removeSession remotePeer sessionId).Kept peers := by
  unfold SyncManager.removeSession
  split
  · next sessions hlookup =>
    apply h.insertMap_known hlookup
    intro session hsession
    exact h.running _ (mem_of_lookup_eq_some hlookup) session (List.mem_of_mem_eraseP hsession)
  · exact h

/-- Forgetting a peer leaves the other peers of the table. -/
theorem Kept.removeSessions (h : self.Kept peers) (remotePeer : P) :
    (self.removeSessions remotePeer).Kept (peers.erase remotePeer) := by
  constructor
  · intro entry hentry
    obtain ⟨hmem, hne⟩ := List.mem_filter.mp hentry
    exact (List.mem_erase_of_ne (by simpa using hne)).mpr (h.within entry hmem)
  · intro entry hentry
    exact h.running entry (List.mem_filter.mp hentry).1

theorem Kept.insertSession (h : self.Kept peers) {remotePeer : P} (hpeer : remotePeer ∈ peers)
    (sessionId : SessionId) (targetSet : SchemaIdSet) (isLocal : Bool) :
    (self.insertSession remotePeer sessionId targetSet isLocal).Kept peers :=
  h.pushSession hpeer (by simp [Session.new])

theorem Kept.insertAndInitializeSession (h : self.Kept peers) {remotePeer : P}
    (hpeer : remotePeer ∈ peers) (sessionId : SessionId) (targetSet : SchemaIdSet) (isLocal : Bool) :
    (self.insertAndInitializeSession remotePeer sessionId targetSet isLocal).1.Kept peers := by
  rw [insertAndInitializeSession_eq]
  exact h.pushSession hpeer (by simp [Session.new])

theorem Kept.initiateSession (h : self.Kept peers) {remotePeer : P} (hpeer : remotePeer ∈ peers)
    (targetSet : SchemaIdSet) (mode : Mode) :
    (self.initiateSession remotePeer targetSet mode).1.Kept peers := by
  rcases initiateSession_cases self remotePeer targetSet mode with hsame | ⟨-, hnext⟩
  · rw [hsame]
    exact h
  · rw [hnext]
    exact h.insertSession hpeer _ targetSet true

/-- Removing a session right after storing its update removes the old session. -/
theorem removeSession_updateSession (self : SyncManager P) {remotePeer : P} {sessions : List Session}
    {sessionId : SessionId} {session : Session} (hid : session.id = sessionId)
    (hfound : ∃ old ∈ sessions, old.id = sessionId) :
    (self.updateSession remotePeer sessions sessionId session).removeSession remotePeer sessionId =
      { self with sessions := insertMap self.sessions remotePeer (sessions.eraseP (·.id == sessionId)) } := by
  have hlt : sessions.findIdx (·.id == sessionId) < sessions.length := by
    obtain ⟨old, hold, holdId⟩ := hfound
    exact List.findIdx_lt_length_of_exists ⟨old, hold, by simp [holdId]⟩
  unfold updateSession removeSession
  rw [lookup_insertMap_self]
  dsimp only
  rw [insertMap_insertMap, eraseP_set_findIdx (by simp [hid]) hlt]

variable [ToString P]

theorem Kept.handleSessionMessage (h : self.Kept peers) {remotePeer : P} {sessionId : SessionId}
    {message : Message} {next : SyncManager P} {result : Except ReplicationError SyncResult}
    (hmessage : self.handleSessionMessage remotePeer sessionId message = some (next, result)) :
    next.Kept peers := by
  unfold SyncManager.handleSessionMessage at hmessage
  split at hmessage
  · cases hmessage
    exact h
  next sessions hlookup =>
  split at hmessage
  · cases hmessage
    exact h
  next session hfind =>
  have hold : ∀ other ∈ sessions, other.state ≠ .done := h.running _ (mem_of_lookup_eq_some hlookup)
  have hsession : session ∈ sessions := List.mem_of_find?_eq_some hfind
  have hid : session.id = sessionId := by simpa using List.find?_some hfind
  obtain ⟨⟨updated, out⟩, hcall, hmessage⟩ := Option.bind_eq_some_iff.mp hmessage
  cases out with
  | error err =>
    -- A failed session is stored with its changes, in the state it had.
    cases hmessage
    apply h.insertMap_known hlookup
    intro other hother
    rcases List.mem_or_eq_of_mem_set hother with hother | rfl
    · exact hold other hother
    · rw [Session.handleMessage_error_state hcall]
      exact hold session hsession
  | ok messages =>
    cases hmessage
    split
    · -- A session both sides finished is dropped again right after its update.
      have hupdated : updated.id = sessionId := (Session.handleMessage_id hcall).trans hid
      rw [removeSession_updateSession self hupdated ⟨session, hsession, hid⟩]
      apply h.insertMap_known hlookup
      intro other hother
      exact hold other (List.mem_of_mem_eraseP hother)
    · next hdone =>
      apply h.insertMap_known hlookup
      intro other hother
      rcases List.mem_or_eq_of_mem_set hother with hother | rfl
      · exact hold other hother
      · simpa using hdone

/-- An entry changes at most the store, also when it is refused. -/
theorem handleEntry_frame {remotePeer : P} {sessionId : SessionId} {entry : EncodedEntry}
    {operation : Option EncodedOperation} {next : SyncManager P}
    {result : Except ReplicationError SyncResult}
    (h : self.handleEntry remotePeer sessionId entry operation = some (next, result)) :
    next = { self with store := next.store } := by
  unfold handleEntry at h
  split at h
  · cases h
    rfl
  split at h
  · cases h
    rfl
  cases operation with
  | none => cases h
  | some op =>
    simp only [Option.map_some, Option.some.injEq] at h
    split at h <;> cases h <;> rfl

variable [LT P] [DecidableRel (α := P) (· < ·)]

omit [ToString P] in
theorem Kept.handleDuplicateSession (h : self.Kept peers) {remotePeer : P} (hpeer : remotePeer ∈ peers)
    (targetSet : SchemaIdSet) (existing : Session) :
    (self.handleDuplicateSession remotePeer targetSet existing).1.Kept peers := by
  unfold SyncManager.handleDuplicateSession
  split
  · exact h
  · cases hstate : existing.state
    · by_cases hlt : self.localPeer < remotePeer
      · simp only [hlt, if_true]
        have hnext := (h.removeSession remotePeer existing.id).insertAndInitializeSession hpeer
          existing.id targetSet false
        split
        · -- Our dropped request is asked for again under a new id.
          have hinit := hnext.initiateSession hpeer existing.targetSet existing.mode
          split <;> next _ _ hcall => rw [hcall] at hinit; exact hinit
        · exact hnext
      · simp only [hlt, if_false]
        exact h
    · exact h
    · exact h

omit [ToString P] in
theorem Kept.handleDuplicateTargetSet (h : self.Kept peers) {remotePeer : P}
    (hpeer : remotePeer ∈ peers) (sessionId : SessionId) (existing : Session) :
    (self.handleDuplicateTargetSet remotePeer sessionId existing).1.Kept peers := by
  unfold SyncManager.handleDuplicateTargetSet
  split
  · exact h
  · split
    · split
      · exact (h.removeSession remotePeer existing.id).insertAndInitializeSession hpeer sessionId
          existing.targetSet false
      · exact h
    · exact h

omit [ToString P] in
theorem Kept.handleSyncRequest (h : self.Kept peers) {remotePeer : P} (hpeer : remotePeer ∈ peers)
    (mode : Mode) (sessionId : SessionId) (targetSet : SchemaIdSet) :
    (self.handleSyncRequest remotePeer mode sessionId targetSet).1.Kept peers := by
  unfold SyncManager.handleSyncRequest
  split
  · exact h
  · dsimp only
    split
    · exact h.handleDuplicateSession hpeer targetSet _
    · split
      · exact h.handleDuplicateTargetSet hpeer sessionId _
      · exact h.insertAndInitializeSession hpeer sessionId targetSet false

/-- Every message a connected peer sends leaves the table kept, whatever the answer. -/
theorem Kept.handleMessage (h : self.Kept peers) {remotePeer : P} (hpeer : remotePeer ∈ peers)
    {message : SyncMessage} {next : SyncManager P} {result : Except ReplicationError SyncResult}
    (hmessage : self.handleMessage remotePeer message = some (next, result)) : next.Kept peers := by
  obtain ⟨sessionId, message⟩ := message
  cases message with
  | syncRequest mode targetSet =>
    obtain rfl := congrArg Prod.fst (Option.some.inj hmessage)
    exact h.handleSyncRequest hpeer mode sessionId targetSet
  | entry entry operation =>
    rw [handleEntry_frame hmessage, kept_store]
    exact h
  | syncDone _ | «have» _ => exact h.handleSessionMessage hmessage

end Kept

section Requests

variable [DecidableEq P]

/-- `initiate_session` for a target set none of the peer's sessions has: it registers a local
session under the next id and sends its request. -/
theorem initiateSession_of_fresh (self : SyncManager P) {remotePeer : P} {targetSet : SchemaIdSet}
    (hfresh : ∀ session ∈ self.getSessions remotePeer, session.targetSet ≠ targetSet) :
    self.initiateSession remotePeer targetSet .logHeight =
      (self.insertSession remotePeer (nextSessionId (self.getSessions remotePeer)) targetSet true,
        .ok [⟨nextSessionId (self.getSessions remotePeer), .syncRequest .logHeight targetSet⟩]) := by
  have hfind : (self.getSessions remotePeer).find? (·.targetSet == targetSet) = none := by
    rw [List.find?_eq_none]
    intro session hmem
    simpa using hfresh session hmem
  simp [initiateSession, isModeSupported, supportedModes, hfind]
  rfl

end Requests

section Panics

variable {self : SyncManager P} [DecidableEq P] [ToString P]

theorem handleEntry_eq_none_iff {remotePeer : P} {sessionId : SessionId} {entry : EncodedEntry}
    {operation : Option EncodedOperation} :
    self.handleEntry remotePeer sessionId entry operation = none ↔
      operation = none ∧ ∃ session ∈ self.getSessions remotePeer, session.id = sessionId := by
  unfold handleEntry
  cases hfind : (self.getSessions remotePeer).find? (·.id == sessionId) with
  | none =>
    simp only [reduceCtorEq, false_iff, not_and]
    rintro - ⟨session, hmem, hid⟩
    have := List.find?_eq_none.mp hfind session hmem
    simp [hid] at this
  | some session =>
    have hmem := List.mem_of_find?_eq_some hfind
    have hid : session.id = sessionId := by simpa using List.find?_some hfind
    cases operation with
    | none =>
      simp only [validateEntry, true_and]
      exact ⟨fun _ => ⟨session, hmem, hid⟩, fun _ => rfl⟩
    | some op =>
      simp only [reduceCtorEq, false_and, iff_false]
      split <;> simp

/-- On a store whose entries have their operations, a session message never panics. -/
theorem handleSessionMessage_isSome (hstore : self.store.OperationsStored) (remotePeer : P)
    (sessionId : SessionId) (message : Message) :
    (self.handleSessionMessage remotePeer sessionId message).isSome := by
  unfold handleSessionMessage
  split
  · rfl
  split
  · rfl
  next session _ =>
  obtain ⟨⟨updated, out⟩, hcall⟩ := Option.isSome_iff_exists.mp
    (Session.handleMessage_isSome hstore session self.ingest.schemaProvider message)
  rw [hcall]
  cases out <;> rfl

variable [LT P] [DecidableRel (α := P) (· < ·)]

/-- An entry without its operation, for a session the peer has under that id, panics. -/
theorem handleMessage_entry_eq_none {remotePeer : P} {session : Session}
    (hsession : session ∈ self.getSessions remotePeer) (entry : EncodedEntry) :
    self.handleMessage remotePeer ⟨session.id, .entry entry none⟩ = none :=
  handleEntry_eq_none_iff.mpr ⟨rfl, session, hsession, rfl⟩

/-- On a store whose entries have their operations, `handle_message` panics on one message only:
an entry without its operation, for a session the peer has under that id. -/
theorem handleMessage_eq_none_iff (hstore : self.store.OperationsStored) {remotePeer : P}
    {message : SyncMessage} :
    self.handleMessage remotePeer message = none ↔
      ∃ entry, message.message = .entry entry none ∧
        ∃ session ∈ self.getSessions remotePeer, session.id = message.sessionId := by
  obtain ⟨sessionId, message⟩ := message
  cases message with
  | entry entry operation =>
    change self.handleEntry remotePeer sessionId entry operation = none ↔ _
    rw [handleEntry_eq_none_iff]
    simp
  | syncRequest mode targetSet => simp [handleMessage]
  | syncDone _ | «have» _ =>
    -- Both go to a session, which answers on such a store.
    refine iff_of_false (Option.isSome_iff_ne_none.mp
      (handleSessionMessage_isSome hstore remotePeer sessionId _)) ?_
    simp

end Panics

end SyncManager

namespace Shuffle

variable {α : Type} (shuffle : Shuffle α)

/-- A prefix of a shuffled list holds only elements of the list. -/
theorem take_subset (list : List α) (n : Nat) : (shuffle.apply list).take n ⊆ list :=
  fun _ hmem => (shuffle.perm list).subset (List.mem_of_mem_take hmem)

/-- A prefix of a shuffled list keeps the elements of the list apart. -/
theorem nodup_map_take {β : Type} {f : α → β} {list : List α} (hnodup : (list.map f).Nodup) (n : Nat) :
    (((shuffle.apply list).take n).map f).Nodup := by
  rw [List.map_take]
  exact (((shuffle.perm list).map f).nodup_iff.mpr hnodup).sublist (List.take_sublist _ _)

end Shuffle

namespace ConnectionManager

variable {I : Type}

/-- What the connection manager keeps of the network's connections: one peer entry for each
open connection, in the order they opened; sessions with open connections only, none of them
finished; and an announcement of our own, set before the loop starts. -/
structure Tracks (manager : ConnectionManager I) (connections : List (Peer I)) : Prop where
  keys : manager.peers.map (·.1) = connections
  nodup : connections.Nodup
  kept : manager.syncManager.Kept connections
  announced : manager.announcement.isSome

section Tracks

variable {self : ConnectionManager I} {connections : List (Peer I)}

theorem Tracks.withPeers (h : self.Tracks connections) {peers : List (Peer I × PeerStatus I)}
    (hkeys : peers.map (·.1) = self.peers.map (·.1)) :
    ({ self with peers := peers } : ConnectionManager I).Tracks connections :=
  ⟨hkeys.trans h.keys, h.nodup, h.kept, h.announced⟩

theorem Tracks.withSyncManager (h : self.Tracks connections) {syncManager : SyncManager (Peer I)}
    (hkept : syncManager.Kept connections) :
    ({ self with syncManager := syncManager } : ConnectionManager I).Tracks connections :=
  ⟨h.keys, h.nodup, hkept, h.announced⟩

theorem Tracks.updateAnnouncement [LinearOrder SchemaId] (h : self.Tracks connections)
    (supportedSchemaIds : List SchemaId) (now : Nat) :
    (self.updateAnnouncement supportedSchemaIds now).Tracks connections :=
  ⟨h.keys, h.nodup, h.kept, rfl⟩

theorem Tracks.announce (h : self.Tracks connections) {now : Nat} {next : ConnectionManager I}
    {sent : List (ServiceMessage I)} (hannounce : self.announce now = some (next, sent)) :
    next.Tracks connections := by
  unfold ConnectionManager.announce at hannounce
  split at hannounce
  · cases hannounce
  · cases hannounce
    apply h.withPeers
    rw [List.map_map]
    apply List.map_congr_left
    intro entry _
    simp only [Function.comp_apply]
    split <;> rfl

/-- `announce` changes only the statuses of the peers, keeping what they announced, and sends our
announcement to peers of the table. -/
theorem announce_eq_some {now : Nat} {next : ConnectionManager I} {sent : List (ServiceMessage I)}
    (h : self.announce now = some (next, sent)) :
    ∃ ours, self.announcement = some ours ∧ next = { self with peers := next.peers } ∧
      (∀ entry ∈ next.peers, ∃ status, (entry.1, status) ∈ self.peers ∧
        entry.2.announcement = status.announcement) ∧
      ∀ message ∈ sent, ∃ entry ∈ self.peers,
        message = .sentMessage entry.1 (.announce (AnnouncementMessage.new ours)) := by
  unfold ConnectionManager.announce at h
  split at h
  · cases h
  next ours hours =>
  cases h
  refine ⟨ours, hours, rfl, ?_, ?_⟩
  · intro entry hentry
    obtain ⟨old, hold, rfl⟩ := List.mem_map.mp hentry
    split
    · exact ⟨old.2, hold, rfl⟩
    · exact ⟨old.2, hold, rfl⟩
  · intro message hmessage
    obtain ⟨entry, hentry, rfl⟩ := List.mem_map.mp hmessage
    exact ⟨entry, (List.mem_filter.mp hentry).1, rfl⟩

variable [DecidableEq I]

/-- The scheduler reads connections of the table, with their statuses. -/
theorem mem_dedupPeers {order : Shuffle (Peer I)} {peers : List (Peer I × PeerStatus I)}
    {entry : Peer I × PeerStatus I} (h : entry ∈ dedupPeers order peers) : entry ∈ peers := by
  obtain ⟨pair, hpair, rfl⟩ := List.mem_map.mp h
  obtain ⟨peer, -, hlookup⟩ := List.mem_filterMap.mp (mem_of_mem_collectMap hpair)
  obtain ⟨status, hstatus, rfl⟩ := Option.map_eq_some_iff.mp hlookup
  exact mem_of_lookup_eq_some hstatus

/-- One connection per peer id, whatever the order of the `HashMap`. -/
theorem dedupPeers_ids_nodup (order : Shuffle (Peer I)) (peers : List (Peer I × PeerStatus I)) :
    ((dedupPeers order peers).map (·.1.id)).Nodup := by
  apply nodup_map_values_collectMap
  intro pair hpair
  obtain ⟨peer, -, hlookup⟩ := List.mem_filterMap.mp hpair
  obtain ⟨status, -, rfl⟩ := Option.map_eq_some_iff.mp hlookup
  rfl

/-- New statuses in the table are new statuses of the connections the scheduler reads. -/
theorem dedupPeers_map_snd (order : Shuffle (Peer I)) (g : PeerStatus I → PeerStatus I)
    (peers : List (Peer I × PeerStatus I)) :
    dedupPeers order (peers.map fun entry => (entry.1, g entry.2)) =
      (dedupPeers order peers).map fun entry => (entry.1, g entry.2) := by
  have hkeys : (peers.map fun entry => (entry.1, g entry.2)).map (·.1) = peers.map (·.1) := by
    simp [List.map_map, Function.comp_def]
  have hpairs : ((order.apply (peers.map (·.1))).filterMap fun peer =>
      ((peers.map fun entry => (entry.1, g entry.2)).lookup peer).map
        fun status => (peer.id, (peer, status))) =
      ((order.apply (peers.map (·.1))).filterMap fun peer =>
        (peers.lookup peer).map fun status => (peer.id, (peer, status))).map
          fun pair => (pair.1, (pair.2.1, g pair.2.2)) := by
    rw [List.map_filterMap]
    refine List.filterMap_congr fun peer _ => ?_
    rw [lookup_map_snd]
    cases peers.lookup peer <;> rfl
  unfold dedupPeers
  rw [hkeys, hpairs,
    collectMap_map_snd (fun value : Peer I × PeerStatus I => (value.1, g value.2)), List.map_map,
    List.map_map]
  rfl

theorem Tracks.mem_of_lookup (h : self.Tracks connections) {peer : Peer I} {status : PeerStatus I}
    (hlookup : self.peers.lookup peer = some status) : peer ∈ connections := by
  rw [← h.keys, ← lookup_isSome_iff_mem_keys, hlookup]
  rfl

/-- A new status for a peer the table has. -/
theorem Tracks.insertMap_known (h : self.Tracks connections) {peer : Peer I} {old : PeerStatus I}
    (hlookup : self.peers.lookup peer = some old) (status : PeerStatus I) :
    ({ self with peers := insertMap self.peers peer status } : ConnectionManager I).Tracks connections := by
  apply h.withPeers
  rw [keys_insertMap, if_pos (by rw [h.keys]; exact h.mem_of_lookup hlookup)]

theorem Tracks.onConnectionClosed (h : self.Tracks connections) (peer : Peer I) :
    (self.onConnectionClosed peer).Tracks (connections.erase peer) where
  keys := by
    simp only [ConnectionManager.onConnectionClosed, removeConnection]
    rw [keys_eraseMap, h.keys]
  nodup := h.nodup.erase peer
  kept := h.kept.removeSessions peer
  announced := h.announced

theorem Tracks.onAnnouncementMessage (h : self.Tracks connections) (peer : Peer I)
    (message : AnnouncementMessage) : (self.onAnnouncementMessage peer message).Tracks connections := by
  unfold ConnectionManager.onAnnouncementMessage
  split
  · exact h
  · dsimp only
    split
    · next status hlookup =>
      split
      · split
        · exact h.insertMap_known hlookup _
        · exact h
      · exact h.insertMap_known hlookup _
    · exact h

theorem Tracks.onReplicationFinished (h : self.Tracks connections) {peer : Peer I}
    {next : ConnectionManager I} (hfinished : self.onReplicationFinished peer = some next) :
    next.Tracks connections := by
  unfold ConnectionManager.onReplicationFinished at hfinished
  split at hfinished
  · next status hlookup =>
    cases hfinished
    exact h.insertMap_known hlookup _
  · cases hfinished

theorem Tracks.onReplicationError (h : self.Tracks connections) {peer : Peer I}
    {sessionId : SessionId} {next : ConnectionManager I} {sent : List (ServiceMessage I)}
    (herror : self.onReplicationError peer sessionId = some (next, sent)) : next.Tracks connections := by
  unfold ConnectionManager.onReplicationError at herror
  split at herror
  · next status hlookup =>
    cases herror
    exact (h.insertMap_known hlookup _).withSyncManager (h.kept.removeSession peer sessionId)
  · cases herror

end Tracks

section Sessions

variable [DecidableEq I] {self : ConnectionManager I} {connections : List (Peer I)}

/-- What the scheduler checks of a candidate: the peer announced, our intersection with its
announcement is the target set and is not empty, it runs fewer than `MAX_SESSIONS_PER_PEER`
active sessions, and none of them on that target set. -/
theorem attempt_eq_some {localSupportedSchemaIds : SchemaIdSet} {peer : Peer I}
    {status : PeerStatus I} {candidate : Peer I × SchemaIdSet}
    (h : self.attempt localSupportedSchemaIds peer status = some candidate) :
    ∃ announcement, status.announcement = some announcement ∧
      candidate = (peer, SchemaIdSet.fromIntersection localSupportedSchemaIds
        announcement.supportedSchemaIds) ∧
      candidate.2.isEmpty = false ∧
      ((self.syncManager.getSessions peer).filter fun session => !session.isDone).length <
        maxSessionsPerPeer ∧
      ∀ session ∈ self.syncManager.getSessions peer, session.isDone = false →
        session.targetSet ≠ candidate.2 := by
  unfold ConnectionManager.attempt at h
  split at h
  · cases h
  next announcement hannounced =>
  dsimp only at h
  split at h
  · cases h
  next hempty =>
  split at h
  · next hcheck =>
    cases h
    simp only [Bool.and_eq_true, decide_eq_true_eq, Bool.not_eq_true', List.any_eq_false] at hcheck
    refine ⟨announcement, hannounced, rfl, by simpa using hempty, hcheck.1, ?_⟩
    intro session hsession hactive htarget
    exact hcheck.2 session (List.mem_filter.mpr ⟨hsession, by simp [hactive]⟩) (by simp [htarget])
  · cases h

theorem Tracks.mem_attemptPeers (h : self.Tracks connections)
    {candidates : List (Peer I × SchemaIdSet)} (hpeers : self.attemptPeers order = some candidates)
    {candidate : Peer I × SchemaIdSet} (hmem : candidate ∈ candidates) : candidate.1 ∈ connections := by
  unfold ConnectionManager.attemptPeers at hpeers
  obtain ⟨announcement, -, rfl⟩ := Option.map_eq_some_iff.mp hpeers
  obtain ⟨entry, hentry, hattempt⟩ := List.mem_filterMap.mp hmem
  obtain ⟨_, -, rfl, -⟩ := attempt_eq_some hattempt
  rw [← h.keys]
  exact List.mem_map_of_mem (mem_dedupPeers hentry)

theorem Tracks.initiateReplication (h : self.Tracks connections) {peer : Peer I}
    (hpeer : peer ∈ connections) (targetSet : SchemaIdSet) :
    (self.initiateReplication peer targetSet).1.Tracks connections := by
  have hkept := h.kept.initiateSession hpeer targetSet .logHeight
  unfold ConnectionManager.initiateReplication
  split <;> next _ _ hcall => rw [hcall] at hkept; exact h.withSyncManager hkept

/-- The loop of `update_sessions` over candidates among the open connections. -/
theorem Tracks.foldl_initiateStep (candidates : List (Peer I × SchemaIdSet))
    (hcandidates : ∀ candidate ∈ candidates, candidate.1 ∈ connections) :
    ∀ {acc : ConnectionManager I × List (ServiceMessage I)}, acc.1.Tracks connections →
      (candidates.foldl initiateStep acc).1.Tracks connections := by
  induction candidates with
  | nil => exact fun h => h
  | cons candidate rest ih =>
    intro acc h
    rw [List.foldl_cons]
    exact ih (fun other hother => hcandidates other (List.mem_cons_of_mem _ hother))
      (h.initiateReplication (hcandidates candidate List.mem_cons_self) candidate.2)

theorem Tracks.updateSessions (h : self.Tracks connections) {order : Shuffle (Peer I)} {shuffle : Shuffle (Peer I × SchemaIdSet)}
    {next : ConnectionManager I} {sent : List (ServiceMessage I)}
    (hupdate : self.updateSessions order shuffle = some (next, sent)) : next.Tracks connections := by
  unfold ConnectionManager.updateSessions at hupdate
  obtain ⟨candidates, hcandidates, hfold⟩ := Option.map_eq_some_iff.mp hupdate
  rw [show next = _ from (congrArg Prod.fst hfold).symm]
  apply Tracks.foldl_initiateStep _ _ h
  intro candidate hmem
  exact h.mem_attemptPeers hcandidates ((shuffle.perm candidates).subset (List.mem_of_mem_take hmem))

/-- The request `initiate_replication` sends for a candidate that `initiate_session` accepts. -/
def sessionRequest (self : ConnectionManager I) (candidate : Peer I × SchemaIdSet) : ServiceMessage I :=
  .sentMessage candidate.1 (.syncMessage
    ⟨SyncManager.nextSessionId (self.syncManager.getSessions candidate.1),
      .syncRequest .logHeight candidate.2⟩)

theorem initiateStep_of_fresh (acc : ConnectionManager I × List (ServiceMessage I))
    {candidate : Peer I × SchemaIdSet}
    (hfresh : ∀ session ∈ acc.1.syncManager.getSessions candidate.1, session.targetSet ≠ candidate.2) :
    initiateStep acc candidate =
      ({ acc.1 with syncManager := (acc.1.syncManager.insertSession candidate.1
          (SyncManager.nextSessionId (acc.1.syncManager.getSessions candidate.1)) candidate.2 true) },
        acc.2 ++ [acc.1.sessionRequest candidate]) := by
  simp only [initiateStep, initiateReplication, acc.1.syncManager.initiateSession_of_fresh hfresh]
  rfl

theorem foldl_initiateStep_of_fresh (candidates : List (Peer I × SchemaIdSet)) :
    ∀ {acc : ConnectionManager I × List (ServiceMessage I)}, (candidates.map (·.1)).Nodup →
      (∀ candidate ∈ candidates, ∀ session ∈ acc.1.syncManager.getSessions candidate.1,
        session.targetSet ≠ candidate.2) →
      (candidates.foldl initiateStep acc).2 = acc.2 ++ candidates.map acc.1.sessionRequest := by
  induction candidates with
  | nil => simp
  | cons candidate rest ih =>
    intro acc hnodup hfresh
    rw [List.map_cons, List.nodup_cons] at hnodup
    have hstep := initiateStep_of_fresh acc (hfresh candidate List.mem_cons_self)
    -- The step adds a session for its own peer only, and the other candidates' peers differ.
    have hother : ∀ other ∈ rest, (initiateStep acc candidate).1.syncManager.getSessions other.1 =
        acc.1.syncManager.getSessions other.1 := by
      intro other hmem
      rw [hstep]
      simp only [SyncManager.insertSession, SyncManager.getSessions_pushSession]
      rw [if_neg fun heq : other.1 = candidate.1 => hnodup.1 (heq ▸ List.mem_map_of_mem hmem)]
    have hrequests : rest.map (initiateStep acc candidate).1.sessionRequest = rest.map acc.1.sessionRequest :=
      List.map_congr_left fun other hmem => by simp only [sessionRequest, hother other hmem]
    rw [List.foldl_cons, ih hnodup.2 fun other hmem => hother other hmem ▸ hfresh other (List.mem_cons_of_mem _ hmem),
      hrequests, hstep]
    simp

/-- What a candidate of `update_sessions` is: a peer of the table that announced, for the
non-empty intersection of both announcements, with fewer than `MAX_SESSIONS_PER_PEER` active
sessions and none of them on that target set. -/
theorem of_mem_attemptPeers {attempts : List (Peer I × SchemaIdSet)}
    (hattempts : self.attemptPeers order = some attempts) {candidate : Peer I × SchemaIdSet}
    (hmem : candidate ∈ attempts) :
    ∃ ours status theirs, self.announcement = some ours ∧ (candidate.1, status) ∈ self.peers ∧
      status.announcement = some theirs ∧
      candidate.2 = SchemaIdSet.fromIntersection ours.supportedSchemaIds theirs.supportedSchemaIds ∧
      candidate.2.isEmpty = false ∧
      ((self.syncManager.getSessions candidate.1).filter fun session => !session.isDone).length <
        maxSessionsPerPeer ∧
      ∀ session ∈ self.syncManager.getSessions candidate.1, session.isDone = false →
        session.targetSet ≠ candidate.2 := by
  unfold ConnectionManager.attemptPeers at hattempts
  obtain ⟨ours, hours, rfl⟩ := Option.map_eq_some_iff.mp hattempts
  obtain ⟨entry, hentry, hattempt⟩ := List.mem_filterMap.mp hmem
  obtain ⟨theirs, htheirs, rfl, hempty, hcount, hfresh⟩ := attempt_eq_some hattempt
  exact ⟨ours, entry.2, theirs, hours, mem_dedupPeers hentry, htheirs, rfl, hempty, hcount, hfresh⟩

/-- `announce` leaves the candidates of the scheduler as they were: it changes when we last sent
our announcement to each peer, and keeps what the peers announced, our sessions and our own
announcement. -/
theorem attemptPeers_announce {now : Nat} {next : ConnectionManager I} {sent : List (ServiceMessage I)}
    (h : self.announce now = some (next, sent)) (order : Shuffle (Peer I)) :
    next.attemptPeers order = self.attemptPeers order := by
  unfold announce at h
  split at h
  · cases h
  next ours _ =>
  cases h
  -- Each status is stamped, which keeps what the peer announced.
  let stamp := fun status : PeerStatus I =>
    if decide (status.sentOurAnnouncementTimestamp < ours.timestamp) then
      { status with sentOurAnnouncementTimestamp := now } else status
  have hpeers : (self.peers.map fun entry =>
      if decide (entry.2.sentOurAnnouncementTimestamp < ours.timestamp) then
        (entry.1, { entry.2 with sentOurAnnouncementTimestamp := now }) else entry) =
      self.peers.map fun entry => (entry.1, stamp entry.2) :=
    List.map_congr_left fun entry _ => by
      simp only [stamp]
      split <;> rfl
  have hattempt : ∀ localSupportedSchemaIds (entry : Peer I × PeerStatus I),
      self.attempt localSupportedSchemaIds entry.1 (stamp entry.2) =
        self.attempt localSupportedSchemaIds entry.1 entry.2 := by
    intro localSupportedSchemaIds entry
    have hannouncement : (stamp entry.2).announcement = entry.2.announcement := by
      simp only [stamp]
      split <;> rfl
    simp only [attempt, hannouncement]
  simp only [attemptPeers, hpeers, dedupPeers_map_snd, List.filterMap_map]
  exact congrArg (Option.map · self.announcement) (funext fun announcement =>
    List.filterMap_congr fun entry _ => hattempt announcement.supportedSchemaIds entry)

/-- The candidates name pairwise different peer ids: the table is first keyed by peer id. -/
theorem attemptPeers_ids_nodup {attempts : List (Peer I × SchemaIdSet)}
    (hattempts : self.attemptPeers order = some attempts) : (attempts.map (·.1.id)).Nodup := by
  unfold ConnectionManager.attemptPeers at hattempts
  obtain ⟨announcement, -, rfl⟩ := Option.map_eq_some_iff.mp hattempts
  -- An attempt keeps the peer of its entry.
  have hsub : (((dedupPeers order self.peers).filterMap fun entry =>
      self.attempt announcement.supportedSchemaIds entry.1 entry.2).map (·.1)).Sublist
      ((dedupPeers order self.peers).map (·.1)) :=
    keys_filterMap_sublist (fun entry candidate hattempt => by
      obtain ⟨_, -, rfl, -⟩ := attempt_eq_some hattempt
      rfl) _
  have hids := hsub.map Peer.id
  simp only [List.map_map] at hids
  exact hids.nodup (by simpa [List.map_map, Function.comp_def] using dedupPeers_ids_nodup order self.peers)

/-- The peers the scheduler picks are pairwise different. -/
theorem attemptPeers_picked_nodup {attempts : List (Peer I × SchemaIdSet)}
    (hattempts : self.attemptPeers order = some attempts) (shuffle : Shuffle (Peer I × SchemaIdSet)) (n : Nat) :
    (((shuffle.apply attempts).take n).map (·.1)).Nodup := by
  have hids := shuffle.nodup_map_take (attemptPeers_ids_nodup hattempts) n
  exact List.Nodup.of_map Peer.id (by rw [List.map_map]; exact hids)

theorem Tracks.fresh_of_mem_attemptPeers (h : self.Tracks connections)
    {attempts : List (Peer I × SchemaIdSet)} (hattempts : self.attemptPeers order = some attempts)
    {candidate : Peer I × SchemaIdSet} (hmem : candidate ∈ attempts) :
    ∀ session ∈ self.syncManager.getSessions candidate.1, session.targetSet ≠ candidate.2 := by
  obtain ⟨-, -, -, -, -, -, -, -, -, hfresh⟩ := of_mem_attemptPeers hattempts hmem
  intro session hsession
  exact hfresh session hsession (by simpa [Session.isDone] using h.kept.not_done hsession)

/-- `update_sessions` from a tracking state: one request for each candidate it picks. -/
theorem Tracks.updateSessions_sent (h : self.Tracks connections)
    {order : Shuffle (Peer I)} {shuffle : Shuffle (Peer I × SchemaIdSet)} {next : ConnectionManager I}
    {sent : List (ServiceMessage I)} (hupdate : self.updateSessions order shuffle = some (next, sent)) :
    ∃ attempts, self.attemptPeers order = some attempts ∧
      sent = ((shuffle.apply attempts).take maxPeerSample).map self.sessionRequest := by
  unfold ConnectionManager.updateSessions at hupdate
  obtain ⟨attempts, hattempts, hfold⟩ := Option.map_eq_some_iff.mp hupdate
  refine ⟨attempts, hattempts, ?_⟩
  have hsent : (((shuffle.apply attempts).take maxPeerSample).foldl initiateStep (self, [])).2 = sent :=
    congrArg Prod.snd hfold
  rw [← hsent, foldl_initiateStep_of_fresh _ (attemptPeers_picked_nodup hattempts shuffle maxPeerSample)
    fun candidate hmem => h.fresh_of_mem_attemptPeers hattempts (shuffle.take_subset attempts maxPeerSample hmem)]
  rfl


theorem onUpdate_eq_some {now : Nat} {order : Shuffle (Peer I)} {shuffle : Shuffle (Peer I × SchemaIdSet)}
    {next : ConnectionManager I} {sent : List (ServiceMessage I)}
    (h : self.onUpdate now order shuffle = some (next, sent)) :
    ∃ announced announcedSent initiated, self.announce now = some (announced, announcedSent) ∧
      announced.updateSessions order shuffle = some (next, initiated) ∧ sent = announcedSent ++ initiated := by
  unfold ConnectionManager.onUpdate at h
  obtain ⟨⟨announced, announcedSent⟩, hannounce, h⟩ := Option.bind_eq_some_iff.mp h
  obtain ⟨⟨updated, initiated⟩, hupdate, h⟩ := Option.bind_eq_some_iff.mp h
  cases h
  exact ⟨announced, announcedSent, initiated, hannounce, hupdate, rfl⟩

theorem Tracks.onUpdate (h : self.Tracks connections) {now : Nat}
    {order : Shuffle (Peer I)} {shuffle : Shuffle (Peer I × SchemaIdSet)} {next : ConnectionManager I}
    {sent : List (ServiceMessage I)} (hupdate : self.onUpdate now order shuffle = some (next, sent)) :
    next.Tracks connections := by
  obtain ⟨announced, announcedSent, initiated, hannounce, hsessions, -⟩ := onUpdate_eq_some hupdate
  exact (h.announce hannounce).updateSessions hsessions

theorem Tracks.lookup_isSome (h : self.Tracks connections) {peer : Peer I} (hpeer : peer ∈ connections) :
    (self.peers.lookup peer).isSome := by
  rw [lookup_isSome_iff_mem_keys, h.keys]
  exact hpeer

omit [DecidableEq I] in
theorem Tracks.announce_isSome (h : self.Tracks connections) (now : Nat) : (self.announce now).isSome := by
  obtain ⟨announcement, hannouncement⟩ := Option.isSome_iff_exists.mp h.announced
  unfold ConnectionManager.announce
  rw [hannouncement]
  rfl

theorem Tracks.updateSessions_isSome (h : self.Tracks connections) (order : Shuffle (Peer I))
    (shuffle : Shuffle (Peer I × SchemaIdSet)) : (self.updateSessions order shuffle).isSome := by
  simp only [ConnectionManager.updateSessions, ConnectionManager.attemptPeers, Option.isSome_map]
  exact h.announced

theorem Tracks.onUpdate_isSome (h : self.Tracks connections) (now : Nat) (order : Shuffle (Peer I)) (shuffle : Shuffle (Peer I × SchemaIdSet)) :
    (self.onUpdate now order shuffle).isSome := by
  obtain ⟨⟨announced, sent⟩, hannounce⟩ := Option.isSome_iff_exists.mp (h.announce_isSome now)
  obtain ⟨⟨updated, initiated⟩, hupdate⟩ :=
    Option.isSome_iff_exists.mp ((h.announce hannounce).updateSessions_isSome order shuffle)
  unfold ConnectionManager.onUpdate
  rw [hannounce]
  simp [hupdate]

theorem Tracks.insertPeer (h : self.Tracks connections) {peer : Peer I} (hnew : peer ∉ connections) :
    ({ self with peers := insertMap self.peers peer (PeerStatus.new peer) } : ConnectionManager I).Tracks
      (connections ++ [peer]) := by
  refine ⟨?_, ?_, h.kept.mono (List.subset_append_left _ _), h.announced⟩
  · rw [keys_insertMap, if_neg (by rw [h.keys]; exact hnew), h.keys]
  · simpa [List.nodup_append, h.nodup] using fun other hother => (by rintro rfl; exact hnew hother)

theorem Tracks.lookup_eq_none (h : self.Tracks connections) {peer : Peer I} (hnew : peer ∉ connections) :
    self.peers.lookup peer = none := by
  rw [← Option.not_isSome_iff_eq_none, lookup_isSome_iff_mem_keys, h.keys]
  exact hnew

theorem Tracks.onConnectionEstablished_isSome (h : self.Tracks connections) {peer : Peer I}
    (hnew : peer ∉ connections) (now : Nat) (order : Shuffle (Peer I)) (shuffle : Shuffle (Peer I × SchemaIdSet)) :
    (self.onConnectionEstablished peer now order shuffle).isSome := by
  unfold ConnectionManager.onConnectionEstablished
  rw [h.lookup_eq_none hnew]
  exact (h.insertPeer hnew).onUpdate_isSome now order shuffle

theorem Tracks.onReplicationFinished_isSome (h : self.Tracks connections) {peer : Peer I}
    (hpeer : peer ∈ connections) : (self.onReplicationFinished peer).isSome := by
  obtain ⟨status, hlookup⟩ := Option.isSome_iff_exists.mp (h.lookup_isSome hpeer)
  unfold ConnectionManager.onReplicationFinished
  rw [hlookup]
  rfl

theorem Tracks.onReplicationError_isSome (h : self.Tracks connections) {peer : Peer I}
    (hpeer : peer ∈ connections) (sessionId : SessionId) : (self.onReplicationError peer sessionId).isSome := by
  obtain ⟨status, hlookup⟩ := Option.isSome_iff_exists.mp (h.lookup_isSome hpeer)
  unfold ConnectionManager.onReplicationError
  rw [hlookup]
  rfl

/-- A new connection gets a peer entry at the end of the table, then the scheduler runs. -/
theorem Tracks.onConnectionEstablished (h : self.Tracks connections) {peer : Peer I}
    (hnew : peer ∉ connections) {now : Nat} {order : Shuffle (Peer I)} {shuffle : Shuffle (Peer I × SchemaIdSet)}
    {next : ConnectionManager I} {sent : List (ServiceMessage I)}
    (hestablished : self.onConnectionEstablished peer now order shuffle = some (next, sent)) :
    next.Tracks (connections ++ [peer]) := by
  unfold ConnectionManager.onConnectionEstablished at hestablished
  rw [h.lookup_eq_none hnew] at hestablished
  exact (h.insertPeer hnew).onUpdate hestablished

variable [LT I] [DecidableRel (α := I) (· < ·)] [ToString I]

theorem Tracks.routeReplicationMessage (h : self.Tracks connections) {peer : Peer I}
    (hpeer : peer ∈ connections) {message : SyncMessage} {next : ConnectionManager I}
    {sent : List (ServiceMessage I)} (hroute : self.routeReplicationMessage peer message = some (next, sent)) :
    next.Tracks connections := by
  unfold ConnectionManager.routeReplicationMessage at hroute
  obtain ⟨⟨syncManager, result⟩, hhandle, hroute⟩ := Option.bind_eq_some_iff.mp hroute
  have hsync := h.withSyncManager (h.kept.handleMessage hpeer hhandle)
  dsimp only at hroute
  split at hroute
  · split at hroute
    · obtain ⟨finished, hfinished, hroute⟩ := Option.bind_eq_some_iff.mp hroute
      cases hroute
      exact hsync.onReplicationFinished hfinished
    · cases hroute
      exact hsync
  · exact hsync.onReplicationError hroute

theorem Tracks.onReplicationMessage (h : self.Tracks connections) {peer : Peer I}
    (hpeer : peer ∈ connections) {message : SyncMessage} {next : ConnectionManager I}
    {sent : List (ServiceMessage I)} (hmessage : self.onReplicationMessage peer message = some (next, sent)) :
    next.Tracks connections := by
  unfold ConnectionManager.onReplicationMessage at hmessage
  split at hmessage
  · split at hmessage
    · cases hmessage
    · split at hmessage
      · exact h.onReplicationError hmessage
      · exact h.routeReplicationMessage hpeer hmessage
  · exact h.routeReplicationMessage hpeer hmessage

theorem Tracks.handleServiceMessage (h : self.Tracks connections) {now : Nat}
    {order : Shuffle (Peer I)} {shuffle : Shuffle (Peer I × SchemaIdSet)} {message : ServiceMessage I}
    (hallowed : message.Allowed connections) {next : ConnectionManager I}
    {sent : List (ServiceMessage I)} (hhandle : self.handleServiceMessage now order shuffle message = some (next, sent)) :
    next.Tracks (message.connections connections) := by
  cases message with
  | peerConnected peer => exact h.onConnectionEstablished hallowed hhandle
  | peerDisconnected peer =>
    cases hhandle
    exact h.onConnectionClosed peer
  | receivedMessage peer message =>
    cases message with
    | syncMessage message => exact h.onReplicationMessage hallowed hhandle
    | announce message =>
      cases hhandle
      exact h.onAnnouncementMessage peer message
  | newOperation _ | sentMessage _ _ | replicationFailed _ =>
    cases hhandle
    exact h

theorem Tracks.handle [LinearOrder SchemaId] (h : self.Tracks connections) {event : ServiceEvent I}
    (hallowed : event.Allowed connections) {next : ConnectionManager I} {sent : List (ServiceMessage I)}
    (hhandle : self.handle event = some (next, sent)) : next.Tracks (event.connections connections) := by
  cases event with
  | bus message now order shuffle => exact h.handleServiceMessage hallowed hhandle
  | schemaAdded supportedSchemaIds now =>
    cases hhandle
    exact h.updateAnnouncement supportedSchemaIds now
  | tick now order shuffle => exact h.onUpdate hhandle

theorem Tracks.routeReplicationMessage_eq_none_iff (h : self.Tracks connections) {peer : Peer I}
    (hpeer : peer ∈ connections) {message : SyncMessage} :
    self.routeReplicationMessage peer message = none ↔ self.syncManager.handleMessage peer message = none := by
  unfold ConnectionManager.routeReplicationMessage
  cases hhandle : self.syncManager.handleMessage peer message with
  | none => simp
  | some handled =>
    obtain ⟨syncManager, result⟩ := handled
    have hsync := h.withSyncManager (h.kept.handleMessage hpeer hhandle)
    simp only [reduceCtorEq, iff_false]
    dsimp only [bind, Option.bind]
    cases result with
    | ok result =>
      by_cases hdone : result.isDone
      · obtain ⟨finished, hfinished⟩ := Option.isSome_iff_exists.mp (hsync.onReplicationFinished_isSome hpeer)
        simp [hdone, hfinished]
      · simp [hdone]
    | error err =>
      obtain ⟨out, hout⟩ := Option.isSome_iff_exists.mp (hsync.onReplicationError_isSome hpeer message.sessionId)
      simp [hout]

theorem Tracks.onReplicationMessage_eq_none_iff (h : self.Tracks connections) {peer : Peer I}
    (hpeer : peer ∈ connections) {message : SyncMessage} :
    self.onReplicationMessage peer message = none ↔ self.syncManager.handleMessage peer message = none := by
  unfold ConnectionManager.onReplicationMessage
  split
  · next mode targetSet hrequest =>
    -- A request is never a panic of the sync manager.
    have hanswered : self.syncManager.handleMessage peer message ≠ none := by
      simp [SyncManager.handleMessage, hrequest]
    obtain ⟨announcement, hannouncement⟩ := Option.isSome_iff_exists.mp h.announced
    rw [hannouncement]
    dsimp only
    split
    · obtain ⟨out, hout⟩ := Option.isSome_iff_exists.mp (h.onReplicationError_isSome hpeer message.sessionId)
      simpa [hout] using hanswered
    · exact h.routeReplicationMessage_eq_none_iff hpeer
  · exact h.routeReplicationMessage_eq_none_iff hpeer

/-- A peer's entry without its operation, for a session the node has with it under that id,
panics the loop. -/
theorem Tracks.handle_entry_eq_none [LinearOrder SchemaId] (h : self.Tracks connections)
    {peer : Peer I} {session : Session} (hsession : session ∈ self.syncManager.getSessions peer)
    (entry : EncodedEntry) (now : Nat) (order : Shuffle (Peer I))
    (shuffle : Shuffle (Peer I × SchemaIdSet)) :
    self.handle (.bus (.receivedMessage peer (.syncMessage ⟨session.id, .entry entry none⟩)) now
      order shuffle) = none :=
  (h.onReplicationMessage_eq_none_iff (h.kept.mem_of_getSessions hsession)).mpr
    (SyncManager.handleMessage_entry_eq_none hsession entry)

/-- On a store whose entries have their operations, the loop panics on one event only: a peer's
entry without its operation for a session the node has with it under that id. -/
theorem Tracks.handle_eq_none_iff [LinearOrder SchemaId] (h : self.Tracks connections)
    (hstore : self.syncManager.store.OperationsStored) {event : ServiceEvent I}
    (hallowed : event.Allowed connections) :
    self.handle event = none ↔ ∃ peer sessionId entry now order shuffle,
      event = .bus (.receivedMessage peer (.syncMessage ⟨sessionId, .entry entry none⟩)) now order
        shuffle ∧
      ∃ session ∈ self.syncManager.getSessions peer, session.id = sessionId := by
  cases event with
  | bus message now order shuffle =>
    cases message with
    | peerConnected peer =>
      have hsome := h.onConnectionEstablished_isSome hallowed now order shuffle
      refine ⟨fun hnone => ?_, ?_⟩
      · change self.onConnectionEstablished peer now order shuffle = none at hnone
        simp [hnone] at hsome
      · rintro ⟨_, _, _, _, _, _, heq, -⟩
        cases heq
    | receivedMessage peer message =>
      cases message with
      | syncMessage message =>
        change self.onReplicationMessage peer message = none ↔ _
        rw [h.onReplicationMessage_eq_none_iff hallowed, SyncManager.handleMessage_eq_none_iff hstore]
        obtain ⟨sessionId, message⟩ := message
        constructor
        · rintro ⟨entry, rfl, session, hmem, hid⟩
          exact ⟨peer, sessionId, entry, now, order, shuffle, rfl, session, hmem, hid⟩
        · rintro ⟨_, _, entry, _, _, _, heq, session, hmem, hid⟩
          cases heq
          exact ⟨entry, rfl, session, hmem, hid⟩
      | announce message =>
        refine ⟨fun hnone => (by cases hnone), ?_⟩
        rintro ⟨_, _, _, _, _, _, heq, -⟩
        cases heq
    | _ =>
      refine ⟨fun hnone => (by cases hnone), ?_⟩
      rintro ⟨_, _, _, _, _, _, heq, -⟩
      cases heq
  | schemaAdded supportedSchemaIds now =>
    refine ⟨fun hnone => (by cases hnone), ?_⟩
    rintro ⟨_, _, _, _, _, _, heq, -⟩
    cases heq
  | tick now order shuffle =>
    have hsome := h.onUpdate_isSome now order shuffle
    refine ⟨fun hnone => ?_, ?_⟩
    · change self.onUpdate now order shuffle = none at hnone
      simp [hnone] at hsome
    · rintro ⟨_, _, _, _, _, _, heq, -⟩
      cases heq

end Sessions

end ConnectionManager

namespace Node

variable {I : Type} [DecidableEq I] [LT I] [DecidableRel (α := I) (· < ·)] [ToString I]
  [LinearOrder SchemaId]

omit [DecidableEq I] [LT I] [DecidableRel (α := I) (· < ·)] [ToString I] in
theorem tracks_start (store : Db) (ingest : SyncIngest) (localPeerId : I)
    (supportedSchemaIds : List SchemaId) (now : Nat) :
    (start store ingest localPeerId supportedSchemaIds now).manager.Tracks [] where
  keys := rfl
  nodup := List.nodup_nil
  kept := ⟨fun _ h => absurd h List.not_mem_nil, fun _ h => absurd h List.not_mem_nil⟩
  announced := rfl

theorem tracks_step {node next : Node I} {event : ServiceEvent I}
    (h : node.manager.Tracks node.connections) (hstep : Step node event next) :
    next.manager.Tracks next.connections := by
  cases hstep with
  | handle hallowed hhandle => exact h.handle hallowed hhandle

theorem tracks_of_reachable {store : Db} {ingest : SyncIngest} {localPeerId : I}
    {supportedSchemaIds : List SchemaId} {now : Nat} {node : Node I}
    (hreach : Reachable Step (start store ingest localPeerId supportedSchemaIds now) node) :
    node.manager.Tracks node.connections :=
  Reachable.invariant (fun node : Node I => node.manager.Tracks node.connections)
    (fun _ _ _ h hstep => tracks_step h hstep) hreach (tracks_start store ingest localPeerId _ now)

/-- From the start of the service, along any order of events the network may deliver, the
connection manager has one peer entry for each open connection and none for anything else; its
sync manager holds sessions only with open connections and never a finished one; and the
announcement is set. -/
theorem reachable_node_tracks_connections {store : Db} {ingest : SyncIngest} {localPeerId : I}
    {supportedSchemaIds : List SchemaId} {now : Nat} {node : Node I}
    (hreach : Reachable Step (start store ingest localPeerId supportedSchemaIds now) node) :
    node.manager.peers.map (·.1) = node.connections ∧ node.connections.Nodup ∧
      (∀ entry ∈ node.manager.syncManager.sessions, entry.1 ∈ node.connections) ∧
      (∀ entry ∈ node.manager.syncManager.sessions, ∀ session ∈ entry.2, session.state ≠ .done) ∧
      node.manager.announcement.isSome := by
  have h := tracks_of_reachable hreach
  exact ⟨h.keys, h.nodup, h.kept.within, h.kept.running, h.announced⟩

/-- A peer can stop the replication service of any node it has a session with: the array of three
items `[ENTRY_TYPE, session id, entry]` is a valid message, and the loop panics on it. -/
theorem reachable_session_dies_on_entry_without_operation {store : Db} {ingest : SyncIngest}
    {localPeerId : I} {supportedSchemaIds : List SchemaId} {now : Nat} {node : Node I}
    (hreach : Reachable Step (start store ingest localPeerId supportedSchemaIds now) node)
    {peer : Peer I} {session : Session} (hsession : session ∈ node.manager.syncManager.getSessions peer)
    (schemaIdText : SchemaIdText) (hex : String) (received : Nat) (order : Shuffle (Peer I))
    (shuffle : Shuffle (Peer I × SchemaIdSet)) :
    ∃ message, PeerMessage.deserialize schemaIdText
        (.array [.unsigned entryType, .unsigned session.id, .bytes hex]) = .ok message ∧
      (ServiceEvent.bus (.receivedMessage peer message) received order shuffle).Allowed
        node.connections ∧
      node.manager.handle (.bus (.receivedMessage peer message) received order shuffle) = none := by
  have h := tracks_of_reachable hreach
  -- Only an open connection has sessions, so the network may deliver its message.
  refine ⟨_, deserialize_entry_without_operation session.id hex, h.kept.mem_of_getSessions hsession,
    ?_⟩
  exact h.handle_entry_eq_none hsession ⟨hex⟩ received order shuffle

/-- From the start of the service, a beat of the scheduler sends our announcement to open
connections, then one `SyncRequest` for each peer it picks, which `initiate_session` never
refuses. It picks the first `MAX_PEER_SAMPLE` candidates in the order `shuffle` leaves them:
peers with pairwise different peer ids, each a peer of the table that announced, for the
non-empty intersection of both announcements, with fewer than `MAX_SESSIONS_PER_PEER` sessions
open and none of them on that target set. -/
theorem reachable_tick_requests {store : Db} {ingest : SyncIngest} {localPeerId : I}
    {supportedSchemaIds : List SchemaId} {now : Nat} {node : Node I}
    (hreach : Reachable Step (start store ingest localPeerId supportedSchemaIds now) node)
    {beat : Nat} {order : Shuffle (Peer I)} {shuffle : Shuffle (Peer I × SchemaIdSet)}
    {next : ConnectionManager I} {sent : List (ServiceMessage I)}
    (htick : node.manager.handle (.tick beat order shuffle) = some (next, sent)) :
    ∃ (ours : Announcement) (announcements : List (ServiceMessage I))
      (attempts candidates : List (Peer I × SchemaIdSet)), node.manager.announcement = some ours ∧
      node.manager.attemptPeers order = some attempts ∧
      candidates = (shuffle.apply attempts).take maxPeerSample ∧
      sent = announcements ++ candidates.map node.manager.sessionRequest ∧
      (∀ message ∈ announcements, ∃ peer ∈ node.connections,
        message = .sentMessage peer (.announce (AnnouncementMessage.new ours))) ∧
      candidates.length ≤ maxPeerSample ∧ (candidates.map (·.1.id)).Nodup ∧
      ∀ candidate ∈ candidates, ∃ status theirs, (candidate.1, status) ∈ node.manager.peers ∧
        status.announcement = some theirs ∧
        candidate.2 = SchemaIdSet.fromIntersection ours.supportedSchemaIds theirs.supportedSchemaIds ∧
        candidate.2.isEmpty = false ∧
        (node.manager.syncManager.getSessions candidate.1).length < maxSessionsPerPeer ∧
        ∀ session ∈ node.manager.syncManager.getSessions candidate.1, session.targetSet ≠ candidate.2 := by
  have h := tracks_of_reachable hreach
  obtain ⟨announced, announcements, initiated, hannounce, hupdate, rfl⟩ :=
    ConnectionManager.onUpdate_eq_some htick
  obtain ⟨ours, hours, hframe, -, hannouncements⟩ := ConnectionManager.announce_eq_some hannounce
  obtain ⟨attempts, hattempts, rfl⟩ := (h.announce hannounce).updateSessions_sent hupdate
  -- The scheduler runs on the announced manager, which has the candidates, sessions and
  -- announcement of the node.
  rw [ConnectionManager.attemptPeers_announce hannounce] at hattempts
  have hsync : announced.syncManager = node.manager.syncManager := by rw [hframe]
  have hrequest : announced.sessionRequest = node.manager.sessionRequest := by
    funext candidate
    simp only [ConnectionManager.sessionRequest, hsync]
  refine ⟨ours, announcements, attempts, _, hours, hattempts, rfl, by rw [hrequest], ?_,
    List.length_take_le _ _, shuffle.nodup_map_take (ConnectionManager.attemptPeers_ids_nodup hattempts) _, ?_⟩
  · intro message hmessage
    obtain ⟨entry, hentry, rfl⟩ := hannouncements message hmessage
    exact ⟨entry.1, h.keys ▸ List.mem_map_of_mem hentry, rfl⟩
  · intro candidate hmem
    have hattempt := shuffle.take_subset attempts maxPeerSample hmem
    obtain ⟨ours', status, theirs, hours', hstatus, htheirs, htarget, hempty, hcount, -⟩ :=
      ConnectionManager.of_mem_attemptPeers hattempts hattempt
    obtain rfl : ours' = ours := Option.some.inj (hours'.symm.trans hours)
    -- Every session of the table is running, so the active ones are all of them.
    have hactive : (node.manager.syncManager.getSessions candidate.1).filter (fun session => !session.isDone) =
        node.manager.syncManager.getSessions candidate.1 :=
      List.filter_eq_self.mpr fun session hsession => by
        simpa [Session.isDone] using h.kept.not_done hsession
    refine ⟨status, theirs, hstatus, htheirs, htarget, hempty, ?_,
      h.fresh_of_mem_attemptPeers hattempts hattempt⟩
    rw [← hactive]
    exact hcount

end Node

/-! ### A node with a session -/

/-- The order that leaves a list as it is, for the `HashMap` and for `shuffle`. -/
def keepOrder (α : Type) : Shuffle α := ⟨id, List.Perm.refl⟩

/-- Peer `1` connects to node `0`, then asks for a session `0` on blobs. -/
def connectAndRequest : List (ServiceEvent Nat) :=
  [.bus (.peerConnected ⟨1, 0⟩) 0 (keepOrder _) (keepOrder _),
    .bus (.receivedMessage ⟨1, 0⟩ (.syncMessage ⟨0, .syncRequest .logHeight ⟨[.blob 1]⟩⟩)) 0
      (keepOrder _) (keepOrder _)]

-- Any order of schema ids will do below: the node announces no schema id, so none is sorted.
theorem requested_run : letI : LinearOrder SchemaId := IsWellOrder.linearOrder WellOrderingRel
    ∃ node, Run Node.Step (Node.start Db.empty bareIngest (0 : Nat) [] 0) connectAndRequest node ∧
      node.connections = [⟨1, 0⟩] ∧
      ∃ session ∈ node.manager.syncManager.getSessions ⟨1, 0⟩, session.id = 0 := by
  let _ : LinearOrder SchemaId := IsWellOrder.linearOrder WellOrderingRel
  exact ⟨_, Run.cons (Node.Step.handle List.not_mem_nil rfl)
    (Run.single (Node.Step.handle (List.mem_singleton_self _) rfl)), rfl, _, List.mem_singleton_self _, rfl⟩

theorem requested_node_tracks_connections :
    letI : LinearOrder SchemaId := IsWellOrder.linearOrder WellOrderingRel
    ∃ node, Reachable Node.Step (Node.start Db.empty bareIngest (0 : Nat) [] 0) node ∧
      node.connections = [⟨1, 0⟩] ∧ node.manager.peers.map (·.1) = [⟨1, 0⟩] ∧
      ∀ entry ∈ node.manager.syncManager.sessions, entry.1 = ⟨1, 0⟩ := by
  let _ : LinearOrder SchemaId := IsWellOrder.linearOrder WellOrderingRel
  obtain ⟨node, run, hconnections, -⟩ := requested_run
  obtain ⟨hkeys, -, hwithin, -⟩ := Node.reachable_node_tracks_connections ⟨_, run⟩
  refine ⟨node, ⟨_, run⟩, hconnections, hkeys.trans hconnections, fun entry hentry => ?_⟩
  simpa [hconnections] using hwithin entry hentry

theorem requested_node_dies_on_three_items :
    letI : LinearOrder SchemaId := IsWellOrder.linearOrder WellOrderingRel
    ∃ node message, Reachable Node.Step (Node.start Db.empty bareIngest (0 : Nat) [] 0) node ∧
      PeerMessage.deserialize ⟨fun _ => "", fun _ => .error ""⟩
        (.array [.unsigned entryType, .unsigned 0, .bytes "00"]) = .ok message ∧
      node.manager.handle (.bus (.receivedMessage ⟨1, 0⟩ message) 0 (keepOrder _) (keepOrder _)) =
        none := by
  let _ : LinearOrder SchemaId := IsWellOrder.linearOrder WellOrderingRel
  obtain ⟨node, run, -, session, hsession, hid⟩ := requested_run
  obtain ⟨message, hdecode, -, hpanic⟩ := Node.reachable_session_dies_on_entry_without_operation
    ⟨_, run⟩ hsession ⟨fun _ => "", fun _ => .error ""⟩ "00" 0 (keepOrder _) (keepOrder _)
  rw [hid] at hdecode
  exact ⟨node, message, ⟨_, run⟩, hdecode, hpanic⟩

theorem SchemaIdSet.new_singleton [LinearOrder SchemaId] (schemaId : SchemaId) :
    SchemaIdSet.new [schemaId] = ⟨[schemaId]⟩ := by
  simp [SchemaIdSet.new]

theorem start_blobs [LinearOrder SchemaId] : Node.start Db.empty bareIngest (0 : Nat) [.blob 1] 1 =
    ⟨⟨[], SyncManager.new Db.empty bareIngest ⟨0, 0⟩, some ⟨⟨[.blob 1]⟩, 1⟩⟩, [], []⟩ := by
  simp [Node.start, ConnectionManager.updateAnnouncement, ConnectionManager.new, Announcement.new,
    SchemaIdSet.new_singleton]

/-- Node `0` supports blobs; peer `1` connects and announces blobs too. -/
def announcedBlobs : List (ServiceEvent Nat) :=
  [.bus (.peerConnected ⟨1, 0⟩) 1 (keepOrder _) (keepOrder _),
    .bus (.receivedMessage ⟨1, 0⟩ (.announce ⟨1, ⟨⟨[.blob 1]⟩, 5⟩⟩)) 1 (keepOrder _) (keepOrder _)]

theorem announced_run : letI : LinearOrder SchemaId := IsWellOrder.linearOrder WellOrderingRel
    ∃ node next, Run Node.Step (Node.start Db.empty bareIngest (0 : Nat) [.blob 1] 1) announcedBlobs node ∧
      node.connections = [⟨1, 0⟩] ∧
      node.manager.handle (.tick 2 (keepOrder _) (keepOrder _)) = some (next,
        [.sentMessage ⟨1, 0⟩ (.syncMessage ⟨0, .syncRequest .logHeight ⟨[.blob 1]⟩⟩)]) := by
  let _ : LinearOrder SchemaId := IsWellOrder.linearOrder WellOrderingRel
  rw [start_blobs]
  exact ⟨_, _, Run.cons (Node.Step.handle List.not_mem_nil rfl)
    (Run.single (Node.Step.handle (List.mem_singleton_self _) rfl)), rfl, rfl⟩

/-- On the next beat the scheduler picks peer `1` and asks it for blobs under session id `0`. -/
theorem announced_peer_gets_request : letI : LinearOrder SchemaId := IsWellOrder.linearOrder WellOrderingRel
    ∃ node next, Reachable Node.Step (Node.start Db.empty bareIngest (0 : Nat) [.blob 1] 1) node ∧
      node.manager.handle (.tick 2 (keepOrder _) (keepOrder _)) = some (next,
        [.sentMessage ⟨1, 0⟩ (.syncMessage ⟨0, .syncRequest .logHeight ⟨[.blob 1]⟩⟩)]) ∧
      ∃ candidate, node.manager.sessionRequest candidate =
          .sentMessage ⟨1, 0⟩ (.syncMessage ⟨0, .syncRequest .logHeight ⟨[.blob 1]⟩⟩) ∧
        candidate.2.isEmpty = false := by
  let _ : LinearOrder SchemaId := IsWellOrder.linearOrder WellOrderingRel
  obtain ⟨node, next, run, -, htick⟩ := announced_run
  obtain ⟨ours, announcements, -, candidates, -, -, -, hsent, hannounced, -, -, hcandidates⟩ :=
    Node.reachable_tick_requests ⟨_, run⟩ htick
  refine ⟨node, next, ⟨_, run⟩, htick, ?_⟩
  cases announcements with
  | cons message rest =>
    -- Our announcement is not a request.
    obtain ⟨peer, -, hmessage⟩ := hannounced message List.mem_cons_self
    rw [List.cons_append, List.cons.injEq] at hsent
    rw [← hsent.1] at hmessage
    cases hmessage
  | nil =>
    rw [List.nil_append, eq_comm, List.map_eq_singleton_iff] at hsent
    obtain ⟨candidate, rfl, hrequest⟩ := hsent
    obtain ⟨-, -, -, -, -, hempty, -⟩ := hcandidates candidate List.mem_cons_self
    exact ⟨candidate, hrequest, hempty⟩

end Aquadoggo.Replication
