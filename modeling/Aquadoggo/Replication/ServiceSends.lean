import Aquadoggo.Replication.LocalSessions

/-! What the replication service puts on the bus, and what one peer can change. Every message
goes to a peer whose connection is open; every `SyncRequest` names a session of ours that the
sync manager holds once the event is handled, so the peer's answers find it; and a message of
one peer is answered to that peer alone and leaves what the node keeps of every other peer as it
was. -/
namespace Aquadoggo

open Network Replication

/-- A message for a peer over one of the open connections: a message to send it, or the report
that its session failed, on which the network closes the connection. -/
def ServiceMessage.AddressedWithin {I : Type} (connections : List (Peer I)) : ServiceMessage I → Prop
  | .sentMessage peer _ => peer ∈ connections
  | .replicationFailed peer => peer ∈ connections
  | _ => False

theorem ServiceMessage.AddressedWithin.mono {I : Type} {connections larger : List (Peer I)}
    {message : ServiceMessage I} (h : message.AddressedWithin connections) (hsub : connections ⊆ larger) :
    message.AddressedWithin larger := by
  cases message with
  | sentMessage peer _ => exact hsub h
  | replicationFailed peer => exact hsub h
  | _ => exact h.elim

/-- A `SyncRequest` on the bus that the sync manager holds as a session of ours, under the id
and for the target set it names. -/
def ServiceMessage.RecordedIn {I : Type} [DecidableEq I] (syncManager : SyncManager (Peer I)) :
    ServiceMessage I → Prop
  | .sentMessage peer (.syncMessage message) =>
    message.message.isSyncRequest = true → syncManager.Reinitiates peer message
  | _ => True

theorem ServiceMessage.RecordedIn.mono {I : Type} [DecidableEq I] {syncManager next : SyncManager (Peer I)}
    {message : ServiceMessage I} (h : message.RecordedIn syncManager)
    (hsub : ∀ peer, syncManager.getSessions peer ⊆ next.getSessions peer) : message.RecordedIn next := by
  cases message with
  | sentMessage peer inner =>
    cases inner with
    | syncMessage message =>
      intro hrequest
      obtain ⟨session, hmem, hsession⟩ := h hrequest
      exact ⟨session, hsub peer hmem, hsession⟩
    | announce _ => trivial
  | _ => trivial

namespace Replication

open Library

namespace SyncManager

variable {P : Type} [DecidableEq P]

/-- Two tables that hold the same sessions with every peer but `remotePeer`. -/
def AgreeBeyond (self next : SyncManager P) (remotePeer : P) : Prop :=
  ∀ peer, peer ≠ remotePeer → next.getSessions peer = self.getSessions peer

section Frame

variable {self : SyncManager P} {remotePeer : P}

theorem AgreeBeyond.refl (self : SyncManager P) (remotePeer : P) : self.AgreeBeyond self remotePeer :=
  fun _ _ => rfl

theorem AgreeBeyond.trans {mid next : SyncManager P} (h : self.AgreeBeyond mid remotePeer)
    (h' : mid.AgreeBeyond next remotePeer) : self.AgreeBeyond next remotePeer :=
  fun peer hpeer => (h' peer hpeer).trans (h peer hpeer)

theorem agreeBeyond_pushSession (self : SyncManager P) (remotePeer : P) (session : Session) :
    self.AgreeBeyond (self.pushSession remotePeer session) remotePeer := by
  intro peer hpeer
  rw [getSessions_pushSession, if_neg hpeer]

theorem agreeBeyond_removeSession (self : SyncManager P) (remotePeer : P) (sessionId : SessionId) :
    self.AgreeBeyond (self.removeSession remotePeer sessionId) remotePeer := by
  intro peer hpeer
  rw [getSessions_removeSession, if_neg hpeer]

theorem agreeBeyond_insertAndInitializeSession (self : SyncManager P) (remotePeer : P)
    (sessionId : SessionId) (targetSet : SchemaIdSet) (isLocal : Bool) :
    self.AgreeBeyond (self.insertAndInitializeSession remotePeer sessionId targetSet isLocal).1 remotePeer := by
  rw [insertAndInitializeSession_eq]
  exact agreeBeyond_pushSession _ _ _

theorem agreeBeyond_initiateSession (self : SyncManager P) (remotePeer : P) (targetSet : SchemaIdSet)
    (mode : Mode) :
    self.AgreeBeyond (self.initiateSession remotePeer targetSet mode).1 remotePeer := by
  rcases initiateSession_cases self remotePeer targetSet mode with hsame | ⟨-, hnext⟩
  · rw [hsame]
    exact AgreeBeyond.refl self remotePeer
  · rw [hnext]
    exact agreeBeyond_pushSession _ _ _

/-- `initiate_session` only adds a session. -/
theorem getSessions_subset_initiateSession (self : SyncManager P) (remotePeer peer : P)
    (targetSet : SchemaIdSet) (mode : Mode) :
    self.getSessions peer ⊆ (self.initiateSession remotePeer targetSet mode).1.getSessions peer := by
  rcases initiateSession_cases self remotePeer targetSet mode with hsame | ⟨-, hnext⟩
  · rw [hsame]
    exact List.Subset.refl _
  · rw [hnext, insertSession, getSessions_pushSession]
    split
    · next hpeer =>
      subst hpeer
      exact List.subset_append_left _ _
    · exact List.Subset.refl _

theorem Reinitiates.mono {next : SyncManager P} {message : SyncMessage}
    (h : self.Reinitiates remotePeer message)
    (hsub : self.getSessions remotePeer ⊆ next.getSessions remotePeer) : next.Reinitiates remotePeer message := by
  obtain ⟨session, hmem, hlocal, hid, hrequest⟩ := h
  exact ⟨session, hsub hmem, hlocal, hid, hrequest⟩

/-- A new session sends our `Have`, and `SyncDone` when we hold nothing: never a request. -/
theorem insertAndInitializeSession_requests (self : SyncManager P) (remotePeer : P)
    (sessionId : SessionId) (targetSet : SchemaIdSet) (isLocal : Bool) :
    ∀ message ∈ (self.insertAndInitializeSession remotePeer sessionId targetSet isLocal).2,
      message.isSyncRequest = false := by
  rw [insertAndInitializeSession_eq]
  intro message hmessage
  rcases List.mem_cons.mp hmessage with rfl | hdone
  · rfl
  · split at hdone
    · rw [List.mem_singleton.mp hdone]
      rfl
    · cases hdone

theorem toSyncMessages_requests {sessionId : SessionId} {messages : List Message}
    (h : ∀ message ∈ messages, message.isSyncRequest = false) :
    ∀ message ∈ toSyncMessages sessionId messages, message.message.isSyncRequest = false := by
  intro message hmessage
  obtain ⟨inner, hinner, rfl⟩ := List.mem_map.mp hmessage
  exact h inner hinner

end Frame

section Handlers

variable {self next : SyncManager P} {remotePeer : P} [LT P] [DecidableRel (α := P) (· < ·)]

/-- Accepting a request that reuses the id of one of ours answers with the new session's first
messages and, when our dropped request was for another target set, the request that opens it
again. -/
theorem handleDuplicateSession_requests {targetSet : SchemaIdSet} {existing : Session}
    {result : SyncResult} (h : self.handleDuplicateSession remotePeer targetSet existing = (next, .ok result)) :
    ∀ message ∈ result.messages, message.message.isSyncRequest = true → next.Reinitiates remotePeer message := by
  intro message hmessage hrequest
  unfold handleDuplicateSession at h
  cases hlocal : existing.isLocal
  · simp [hlocal] at h
  cases hstate : existing.state
  case established | done => simp [hlocal, hstate] at h
  case pending =>
  by_cases hlt : self.localPeer < remotePeer
  · simp only [hlocal, hstate, hlt, if_true, Bool.not_true, Bool.false_eq_true, if_false] at h
    have hinbound : ∀ message ∈ toSyncMessages existing.id ((self.removeSession remotePeer
        existing.id).insertAndInitializeSession remotePeer existing.id targetSet false).2,
        message.message.isSyncRequest = false :=
      toSyncMessages_requests (insertAndInitializeSession_requests _ remotePeer existing.id targetSet false)
    split at h
    · split at h
      · cases h
      · rename_i hinit
        simp only [Prod.mk.injEq, Except.ok.injEq] at h
        obtain ⟨rfl, rfl⟩ := h
        rcases List.mem_append.mp hmessage with hold | hnew
        · simp [hinbound message hold] at hrequest
        · exact reinitiates_of_initiateSession hinit message hnew
    · simp only [Prod.mk.injEq, Except.ok.injEq] at h
      obtain ⟨-, rfl⟩ := h
      simp [hinbound message hmessage] at hrequest
  · simp only [hlocal, hstate, hlt, if_false, Bool.not_true, Bool.false_eq_true, Prod.mk.injEq,
      Except.ok.injEq] at h
    obtain ⟨-, rfl⟩ := h
    cases hmessage

theorem handleDuplicateTargetSet_requests {sessionId : SessionId} {existing : Session}
    {result : SyncResult} (h : self.handleDuplicateTargetSet remotePeer sessionId existing = (next, .ok result)) :
    ∀ message ∈ result.messages, message.message.isSyncRequest = false := by
  unfold handleDuplicateTargetSet at h
  split at h
  · cases h
  · split at h
    · split at h
      · obtain ⟨-, hresult⟩ := Prod.mk.inj h
        cases Except.ok.inj hresult
        exact toSyncMessages_requests (insertAndInitializeSession_requests
          (self.removeSession remotePeer existing.id) remotePeer sessionId existing.targetSet false)
      · obtain ⟨-, hresult⟩ := Prod.mk.inj h
        cases Except.ok.inj hresult
        simp
    · cases h

/-- The only request among the answers to a request is one that opens a dropped session of ours
again, under the id the table holds it with. -/
theorem handleSyncRequest_requests {mode : Mode} {sessionId : SessionId} {targetSet : SchemaIdSet}
    {result : SyncResult} (h : self.handleSyncRequest remotePeer mode sessionId targetSet = (next, .ok result)) :
    ∀ message ∈ result.messages, message.message.isSyncRequest = true → next.Reinitiates remotePeer message := by
  intro message hmessage hrequest
  unfold handleSyncRequest at h
  split at h
  · cases h
  · dsimp only at h
    split at h
    · exact handleDuplicateSession_requests h message hmessage hrequest
    · split at h
      · simp [handleDuplicateTargetSet_requests h message hmessage] at hrequest
      · obtain ⟨-, hresult⟩ := Prod.mk.inj h
        cases Except.ok.inj hresult
        simp [toSyncMessages_requests (insertAndInitializeSession_requests _ _ _ _ _) message hmessage]
          at hrequest

theorem agreeBeyond_handleDuplicateSession (targetSet : SchemaIdSet) (existing : Session) :
    self.AgreeBeyond (self.handleDuplicateSession remotePeer targetSet existing).1 remotePeer := by
  rcases handleDuplicateSession_fst self remotePeer targetSet existing with hsame | ⟨-, inserted, rfl, hnext⟩
  · rw [hsame]
    exact AgreeBeyond.refl self remotePeer
  have hinserted := (agreeBeyond_removeSession self remotePeer existing.id).trans
    (agreeBeyond_insertAndInitializeSession _ remotePeer existing.id targetSet false)
  rcases hnext with hnext | hnext <;> rw [hnext]
  · exact hinserted
  · exact hinserted.trans (agreeBeyond_initiateSession _ remotePeer existing.targetSet existing.mode)

theorem agreeBeyond_handleDuplicateTargetSet (sessionId : SessionId) (existing : Session) :
    self.AgreeBeyond (self.handleDuplicateTargetSet remotePeer sessionId existing).1 remotePeer := by
  rcases handleDuplicateTargetSet_fst self remotePeer sessionId existing with hnext | hnext <;> rw [hnext]
  · exact AgreeBeyond.refl self remotePeer
  · exact (agreeBeyond_removeSession self remotePeer _).trans
      (agreeBeyond_insertAndInitializeSession _ remotePeer _ _ _)

theorem agreeBeyond_handleSyncRequest (mode : Mode) (sessionId : SessionId) (targetSet : SchemaIdSet) :
    self.AgreeBeyond (self.handleSyncRequest remotePeer mode sessionId targetSet).1 remotePeer := by
  unfold handleSyncRequest
  split
  · exact AgreeBeyond.refl self remotePeer
  · dsimp only
    split
    · exact agreeBeyond_handleDuplicateSession _ _
    · split
      · exact agreeBeyond_handleDuplicateTargetSet _ _
      · exact agreeBeyond_insertAndInitializeSession self remotePeer _ _ _

variable [ToString P]

omit [LT P] [DecidableRel (α := P) (· < ·)] in
theorem agreeBeyond_handleSessionMessage {sessionId : SessionId} {message : Message}
    {result : Except ReplicationError SyncResult}
    (h : self.handleSessionMessage remotePeer sessionId message = some (next, result)) :
    self.AgreeBeyond next remotePeer := by
  unfold handleSessionMessage at h
  split at h
  · cases h
    exact AgreeBeyond.refl self remotePeer
  next sessions hlookup =>
  split at h
  · cases h
    exact AgreeBeyond.refl self remotePeer
  next session hfind =>
  obtain ⟨⟨updated, out⟩, -, h⟩ := Option.bind_eq_some_iff.mp h
  have hupdate : self.AgreeBeyond (self.updateSession remotePeer sessions sessionId updated) remotePeer := by
    intro peer hpeer
    rw [getSessions_updateSession, if_neg hpeer]
  cases out with
  | error err =>
    cases h
    exact hupdate
  | ok messages =>
    cases h
    split
    · exact hupdate.trans (agreeBeyond_removeSession _ remotePeer _)
    · exact hupdate

/-- A message of a peer changes the sessions of that peer alone. -/
theorem agreeBeyond_handleMessage {message : SyncMessage} {result : Except ReplicationError SyncResult}
    (h : self.handleMessage remotePeer message = some (next, result)) : self.AgreeBeyond next remotePeer := by
  obtain ⟨sessionId, message⟩ := message
  cases message with
  | syncRequest mode targetSet =>
    obtain rfl := congrArg Prod.fst (Option.some.inj h)
    exact agreeBeyond_handleSyncRequest mode sessionId targetSet
  | entry entry operation =>
    rw [handleEntry_frame h]
    exact AgreeBeyond.refl self remotePeer
  | syncDone _ | «have» _ => exact agreeBeyond_handleSessionMessage h

/-- Every request among the answers to a peer's message opens a session of ours that the table
holds afterwards. -/
theorem handleMessage_requests {message : SyncMessage} {result : SyncResult}
    (h : self.handleMessage remotePeer message = some (next, .ok result)) :
    ∀ reply ∈ result.messages, reply.message.isSyncRequest = true → next.Reinitiates remotePeer reply := by
  obtain ⟨sessionId, message⟩ := message
  cases message with
  | syncRequest mode targetSet => exact handleSyncRequest_requests (Option.some.inj h)
  | entry entry operation =>
    obtain ⟨hmessages, -⟩ := handleEntry_ok h
    simp [hmessages]
  | syncDone _ | «have» _ =>
    obtain ⟨-, -, -, -, hanswers⟩ := handleSessionMessage_keeps h
    intro reply hreply hrequest
    simp [hanswers reply hreply] at hrequest

end Handlers

end SyncManager

namespace ConnectionManager

variable {I : Type} [DecidableEq I] {self : ConnectionManager I} {connections : List (Peer I)}

/-- Two managers that keep the same of every peer but `peer`: its status and its sessions. -/
def AgreeBeyond (self next : ConnectionManager I) (peer : Peer I) : Prop :=
  (∀ other, other ≠ peer → next.peers.lookup other = self.peers.lookup other) ∧
    self.syncManager.AgreeBeyond next.syncManager peer

section Frame

theorem AgreeBeyond.refl (self : ConnectionManager I) (peer : Peer I) : self.AgreeBeyond self peer :=
  ⟨fun _ _ => rfl, SyncManager.AgreeBeyond.refl _ _⟩

theorem AgreeBeyond.trans {mid next : ConnectionManager I} {peer : Peer I} (h : self.AgreeBeyond mid peer)
    (h' : mid.AgreeBeyond next peer) : self.AgreeBeyond next peer :=
  ⟨fun other hother => (h'.1 other hother).trans (h.1 other hother), h.2.trans h'.2⟩

theorem agreeBeyond_insertMap (self : ConnectionManager I) (peer : Peer I) (status : PeerStatus I) :
    self.AgreeBeyond { self with peers := insertMap self.peers peer status } peer :=
  ⟨fun _ hother => lookup_insertMap_ne _ _ hother, SyncManager.AgreeBeyond.refl _ _⟩

theorem agreeBeyond_withSyncManager {syncManager : SyncManager (Peer I)} {peer : Peer I}
    (h : self.syncManager.AgreeBeyond syncManager peer) :
    self.AgreeBeyond { self with syncManager := syncManager } peer :=
  ⟨fun _ _ => rfl, h⟩

theorem agreeBeyond_onAnnouncementMessage (self : ConnectionManager I) (peer : Peer I)
    (message : AnnouncementMessage) : self.AgreeBeyond (self.onAnnouncementMessage peer message) peer := by
  unfold ConnectionManager.onAnnouncementMessage
  split
  · exact AgreeBeyond.refl self peer
  · dsimp only
    split
    · split
      · split
        · exact agreeBeyond_insertMap self peer _
        · exact AgreeBeyond.refl self peer
      · exact agreeBeyond_insertMap self peer _
    · exact AgreeBeyond.refl self peer

theorem agreeBeyond_onReplicationFinished {peer : Peer I} {next : ConnectionManager I}
    (h : self.onReplicationFinished peer = some next) : self.AgreeBeyond next peer := by
  unfold ConnectionManager.onReplicationFinished at h
  split at h
  · cases h
    exact agreeBeyond_insertMap self peer _
  · cases h

/-- `on_replication_error` reports the failure of the peer, and nothing else. -/
theorem onReplicationError_eq_some {peer : Peer I} {sessionId : SessionId} {next : ConnectionManager I}
    {sent : List (ServiceMessage I)} (h : self.onReplicationError peer sessionId = some (next, sent)) :
    self.AgreeBeyond next peer ∧ sent = [.replicationFailed peer] := by
  unfold ConnectionManager.onReplicationError at h
  split at h
  · cases h
    exact ⟨(agreeBeyond_insertMap self peer _).trans
      (agreeBeyond_withSyncManager (SyncManager.agreeBeyond_removeSession _ peer _)), rfl⟩
  · cases h

theorem onReplicationError_answers {peer : Peer I} {sessionId : SessionId} {next : ConnectionManager I}
    {sent : List (ServiceMessage I)} (h : self.onReplicationError peer sessionId = some (next, sent)) :
    self.AgreeBeyond next peer ∧ (∀ reply ∈ sent, reply.AddressedWithin [peer]) ∧
      ∀ reply ∈ sent, reply.RecordedIn next.syncManager := by
  obtain ⟨hagree, rfl⟩ := onReplicationError_eq_some h
  refine ⟨hagree, ?_, ?_⟩ <;> intro reply hreply <;> rw [List.mem_singleton.mp hreply]
  · exact List.mem_singleton_self peer
  · trivial

end Frame

theorem initiateReplication_syncManager (self : ConnectionManager I) (peer : Peer I)
    (targetSet : SchemaIdSet) :
    (self.initiateReplication peer targetSet).1.syncManager =
      (self.syncManager.initiateSession peer targetSet .logHeight).1 := by
  unfold ConnectionManager.initiateReplication
  split <;> next _ _ hcall => rw [hcall]

theorem recordedIn_initiateReplication (self : ConnectionManager I) (peer : Peer I) (targetSet : SchemaIdSet) :
    ∀ message ∈ (self.initiateReplication peer targetSet).2,
      message.RecordedIn (self.initiateReplication peer targetSet).1.syncManager := by
  unfold ConnectionManager.initiateReplication
  split
  · next syncManager messages hcall =>
    intro message hmessage
    obtain ⟨request, hrequest, rfl⟩ := List.mem_map.mp hmessage
    exact fun _ => SyncManager.reinitiates_of_initiateSession hcall request hrequest
  · intro message hmessage
    cases hmessage

/-- The loop of `update_sessions` keeps every session it opened: a later turn only adds one. -/
theorem recordedIn_foldl_initiateStep (candidates : List (Peer I × SchemaIdSet)) :
    ∀ acc : ConnectionManager I × List (ServiceMessage I), (∀ message ∈ acc.2, message.RecordedIn acc.1.syncManager) →
      ∀ message ∈ (candidates.foldl initiateStep acc).2,
        message.RecordedIn (candidates.foldl initiateStep acc).1.syncManager := by
  induction candidates with
  | nil => exact fun _ h => h
  | cons candidate rest ih =>
    intro acc h
    rw [List.foldl_cons]
    apply ih
    intro message hmessage
    rcases List.mem_append.mp hmessage with hold | hnew
    · apply (h message hold).mono
      intro peer
      change _ ⊆ (acc.1.initiateReplication candidate.1 candidate.2).1.syncManager.getSessions peer
      rw [initiateReplication_syncManager]
      exact SyncManager.getSessions_subset_initiateSession _ _ _ _ _
    · exact recordedIn_initiateReplication acc.1 candidate.1 candidate.2 message hnew

theorem recordedIn_updateSessions {order : Shuffle (Peer I)} {shuffle : Shuffle (Peer I × SchemaIdSet)} {next : ConnectionManager I}
    {sent : List (ServiceMessage I)} (hupdate : self.updateSessions order shuffle = some (next, sent)) :
    ∀ message ∈ sent, message.RecordedIn next.syncManager := by
  unfold ConnectionManager.updateSessions at hupdate
  obtain ⟨attempts, -, hfold⟩ := Option.map_eq_some_iff.mp hupdate
  rw [show next = _ from (congrArg Prod.fst hfold).symm, show sent = _ from (congrArg Prod.snd hfold).symm]
  exact recordedIn_foldl_initiateStep _ (self, []) (List.forall_mem_nil _)

theorem recordedIn_onUpdate {now : Nat} {order : Shuffle (Peer I)} {shuffle : Shuffle (Peer I × SchemaIdSet)} {next : ConnectionManager I}
    {sent : List (ServiceMessage I)} (hupdate : self.onUpdate now order shuffle = some (next, sent)) :
    ∀ message ∈ sent, message.RecordedIn next.syncManager := by
  obtain ⟨announced, announcedSent, initiated, hannounce, hsessions, rfl⟩ := onUpdate_eq_some hupdate
  obtain ⟨ours, -, -, -, hannouncements⟩ := announce_eq_some hannounce
  intro message hmessage
  rcases List.mem_append.mp hmessage with hold | hnew
  · -- Our announcement is no request.
    obtain ⟨entry, -, rfl⟩ := hannouncements message hold
    trivial
  · exact recordedIn_updateSessions hsessions message hnew

omit [DecidableEq I] in
theorem Tracks.announce_addressed (h : self.Tracks connections) {now : Nat} {next : ConnectionManager I}
    {sent : List (ServiceMessage I)} (hannounce : self.announce now = some (next, sent)) :
    ∀ message ∈ sent, message.AddressedWithin connections := by
  obtain ⟨ours, -, -, -, hannouncements⟩ := announce_eq_some hannounce
  intro message hmessage
  obtain ⟨entry, hentry, rfl⟩ := hannouncements message hmessage
  show entry.1 ∈ connections
  exact h.keys ▸ List.mem_map_of_mem hentry

theorem Tracks.updateSessions_addressed (h : self.Tracks connections) {order : Shuffle (Peer I)} {shuffle : Shuffle (Peer I × SchemaIdSet)}
    {next : ConnectionManager I} {sent : List (ServiceMessage I)}
    (hupdate : self.updateSessions order shuffle = some (next, sent)) :
    ∀ message ∈ sent, message.AddressedWithin connections := by
  obtain ⟨attempts, hattempts, rfl⟩ := h.updateSessions_sent hupdate
  intro message hmessage
  obtain ⟨candidate, hmem, rfl⟩ := List.mem_map.mp hmessage
  exact h.mem_attemptPeers hattempts (shuffle.take_subset attempts maxPeerSample hmem)

theorem Tracks.onUpdate_addressed (h : self.Tracks connections) {now : Nat}
    {order : Shuffle (Peer I)} {shuffle : Shuffle (Peer I × SchemaIdSet)} {next : ConnectionManager I} {sent : List (ServiceMessage I)}
    (hupdate : self.onUpdate now order shuffle = some (next, sent)) :
    ∀ message ∈ sent, message.AddressedWithin connections := by
  obtain ⟨announced, announcedSent, initiated, hannounce, hsessions, rfl⟩ := onUpdate_eq_some hupdate
  intro message hmessage
  rcases List.mem_append.mp hmessage with hold | hnew
  · exact h.announce_addressed hannounce message hold
  · exact (h.announce hannounce).updateSessions_addressed hsessions message hnew

theorem Tracks.onConnectionEstablished_addressed (h : self.Tracks connections) {peer : Peer I}
    (hnew : peer ∉ connections) {now : Nat} {order : Shuffle (Peer I)} {shuffle : Shuffle (Peer I × SchemaIdSet)}
    {next : ConnectionManager I} {sent : List (ServiceMessage I)}
    (hestablished : self.onConnectionEstablished peer now order shuffle = some (next, sent)) :
    ∀ message ∈ sent, message.AddressedWithin (connections ++ [peer]) := by
  unfold ConnectionManager.onConnectionEstablished at hestablished
  rw [h.lookup_eq_none hnew] at hestablished
  exact (h.insertPeer hnew).onUpdate_addressed hestablished

theorem recordedIn_onConnectionEstablished {peer : Peer I} {now : Nat}
    {order : Shuffle (Peer I)} {shuffle : Shuffle (Peer I × SchemaIdSet)} {next : ConnectionManager I} {sent : List (ServiceMessage I)}
    (hestablished : self.onConnectionEstablished peer now order shuffle = some (next, sent)) :
    ∀ message ∈ sent, message.RecordedIn next.syncManager := by
  unfold ConnectionManager.onConnectionEstablished at hestablished
  split at hestablished
  · cases hestablished
    exact List.forall_mem_nil _
  · exact recordedIn_onUpdate hestablished

variable [LT I] [DecidableRel (α := I) (· < ·)] [ToString I]

/-- A peer's replication message is answered to that peer alone, and changes what the node keeps
of that peer alone; every request among the answers opens a session of ours. -/
theorem routeReplicationMessage_eq_some {peer : Peer I} {message : SyncMessage} {next : ConnectionManager I}
    {sent : List (ServiceMessage I)} (hroute : self.routeReplicationMessage peer message = some (next, sent)) :
    self.AgreeBeyond next peer ∧ (∀ reply ∈ sent, reply.AddressedWithin [peer]) ∧
      ∀ reply ∈ sent, reply.RecordedIn next.syncManager := by
  unfold ConnectionManager.routeReplicationMessage at hroute
  obtain ⟨⟨syncManager, result⟩, hhandle, hroute⟩ := Option.bind_eq_some_iff.mp hroute
  have hagree : self.AgreeBeyond { self with syncManager := syncManager } peer :=
    agreeBeyond_withSyncManager (SyncManager.agreeBeyond_handleMessage hhandle)
  cases result with
  | error err =>
    obtain ⟨hfailed, haddressed, hrecorded⟩ := onReplicationError_answers hroute
    exact ⟨hagree.trans hfailed, haddressed, hrecorded⟩
  | ok result =>
    -- The replies, each under its own session id, go to the peer.
    have hreplies : ∀ reply ∈ result.messages.map fun reply => ServiceMessage.sentMessage peer (.syncMessage reply),
        reply.AddressedWithin [peer] ∧ reply.RecordedIn syncManager := by
      intro reply hreply
      obtain ⟨inner, hinner, rfl⟩ := List.mem_map.mp hreply
      exact ⟨List.mem_singleton_self peer, fun hrequest =>
        SyncManager.handleMessage_requests hhandle inner hinner hrequest⟩
    dsimp only at hroute
    split at hroute
    · obtain ⟨finished, hfinished, hroute⟩ := Option.bind_eq_some_iff.mp hroute
      cases hroute
      have hsame := onReplicationFinished_syncManager hfinished
      refine ⟨hagree.trans (agreeBeyond_onReplicationFinished hfinished), fun reply hreply =>
        (hreplies reply hreply).1, fun reply hreply => ?_⟩
      rw [hsame]
      exact (hreplies reply hreply).2
    · cases hroute
      exact ⟨hagree, fun reply hreply => (hreplies reply hreply).1, fun reply hreply => (hreplies reply hreply).2⟩

theorem onReplicationMessage_eq_some {peer : Peer I} {message : SyncMessage} {next : ConnectionManager I}
    {sent : List (ServiceMessage I)} (hmessage : self.onReplicationMessage peer message = some (next, sent)) :
    self.AgreeBeyond next peer ∧ (∀ reply ∈ sent, reply.AddressedWithin [peer]) ∧
      ∀ reply ∈ sent, reply.RecordedIn next.syncManager := by
  rcases onReplicationMessage_cases hmessage with herror | hroute
  · exact onReplicationError_answers herror
  · exact routeReplicationMessage_eq_some hroute

/-- Of the messages of the bus, only a new connection and a replication message make the service
send anything. -/
theorem handleServiceMessage_sent {now : Nat} {order : Shuffle (Peer I)} {shuffle : Shuffle (Peer I × SchemaIdSet)}
    {message : ServiceMessage I} {next : ConnectionManager I} {sent : List (ServiceMessage I)}
    (hhandle : self.handleServiceMessage now order shuffle message = some (next, sent)) :
    (∃ peer, message = .peerConnected peer ∧ self.onConnectionEstablished peer now order shuffle = some (next, sent)) ∨
      (∃ peer inner, message = .receivedMessage peer (.syncMessage inner) ∧
        self.onReplicationMessage peer inner = some (next, sent)) ∨ sent = [] := by
  cases message with
  | peerConnected peer => exact .inl ⟨peer, rfl, hhandle⟩
  | receivedMessage peer message =>
    cases message with
    | syncMessage inner => exact .inr (.inl ⟨peer, inner, rfl, hhandle⟩)
    | announce _ =>
      cases hhandle
      exact .inr (.inr rfl)
  | peerDisconnected _ | newOperation _ | sentMessage _ _ | replicationFailed _ =>
    cases hhandle
    exact .inr (.inr rfl)

theorem Tracks.handleServiceMessage_addressed (h : self.Tracks connections) {now : Nat}
    {order : Shuffle (Peer I)} {shuffle : Shuffle (Peer I × SchemaIdSet)} {message : ServiceMessage I}
    (hallowed : message.Allowed connections) {next : ConnectionManager I} {sent : List (ServiceMessage I)}
    (hhandle : self.handleServiceMessage now order shuffle message = some (next, sent)) :
    ∀ reply ∈ sent, reply.AddressedWithin (message.connections connections) := by
  rcases handleServiceMessage_sent hhandle with ⟨peer, rfl, hestablished⟩ | ⟨peer, inner, rfl, hmessage⟩ | rfl
  · exact h.onConnectionEstablished_addressed hallowed hestablished
  · -- The peer's connection is open, so the answers to it stay within the connections.
    obtain ⟨-, haddressed, -⟩ := onReplicationMessage_eq_some hmessage
    exact fun reply hreply => (haddressed reply hreply).mono (List.cons_subset.mpr ⟨hallowed, List.nil_subset _⟩)
  · exact List.forall_mem_nil _

theorem Tracks.handle_addressed [LinearOrder SchemaId] (h : self.Tracks connections) {event : ServiceEvent I}
    (hallowed : event.Allowed connections) {next : ConnectionManager I} {sent : List (ServiceMessage I)}
    (hhandle : self.handle event = some (next, sent)) :
    ∀ message ∈ sent, message.AddressedWithin (event.connections connections) := by
  cases event with
  | bus message now order shuffle => exact h.handleServiceMessage_addressed hallowed hhandle
  | schemaAdded supportedSchemaIds now =>
    cases hhandle
    exact List.forall_mem_nil _
  | tick now order shuffle => exact h.onUpdate_addressed hhandle

theorem recordedIn_handleServiceMessage {now : Nat} {order : Shuffle (Peer I)} {shuffle : Shuffle (Peer I × SchemaIdSet)}
    {message : ServiceMessage I} {next : ConnectionManager I} {sent : List (ServiceMessage I)}
    (hhandle : self.handleServiceMessage now order shuffle message = some (next, sent)) :
    ∀ reply ∈ sent, reply.RecordedIn next.syncManager := by
  rcases handleServiceMessage_sent hhandle with ⟨peer, rfl, hestablished⟩ | ⟨peer, inner, rfl, hmessage⟩ | rfl
  · exact recordedIn_onConnectionEstablished hestablished
  · exact (onReplicationMessage_eq_some hmessage).2.2
  · exact List.forall_mem_nil _

variable [LinearOrder SchemaId]

/-- Whatever the state of the connection manager and whatever the event, every `SyncRequest` the
loop puts on the bus opens a session of ours that the sync manager holds afterwards, under the
id of the request, for its target set and in its mode. -/
theorem handle_requests_recorded (self : ConnectionManager I) {event : ServiceEvent I}
    {next : ConnectionManager I} {sent : List (ServiceMessage I)} (hhandle : self.handle event = some (next, sent)) :
    ∀ peer message, .sentMessage peer (.syncMessage message) ∈ sent → message.message.isSyncRequest = true →
      next.syncManager.Reinitiates peer message := by
  have hrecorded : ∀ reply ∈ sent, reply.RecordedIn next.syncManager := by
    cases event with
    | bus message now order shuffle => exact recordedIn_handleServiceMessage hhandle
    | schemaAdded supportedSchemaIds now =>
      cases hhandle
      exact List.forall_mem_nil _
    | tick now order shuffle => exact recordedIn_onUpdate hhandle
  exact fun peer message hmem hrequest => hrecorded _ hmem hrequest

/-- Whatever the state of the connection manager, a message of a peer is answered to that peer
alone, and leaves the status and the sessions of every other peer as they were. -/
theorem handle_received_touches_only_sender (self : ConnectionManager I) {peer : Peer I}
    {message : PeerMessage} {now : Nat} {order : Shuffle (Peer I)} {shuffle : Shuffle (Peer I × SchemaIdSet)}
    {next : ConnectionManager I} {sent : List (ServiceMessage I)}
    (hhandle : self.handle (.bus (.receivedMessage peer message) now order shuffle) = some (next, sent)) :
    (∀ reply ∈ sent, reply.AddressedWithin [peer]) ∧ ∀ other, other ≠ peer →
      next.peers.lookup other = self.peers.lookup other ∧
        next.syncManager.getSessions other = self.syncManager.getSessions other := by
  have hpeer : self.AgreeBeyond next peer ∧ ∀ reply ∈ sent, reply.AddressedWithin [peer] := by
    cases message with
    | syncMessage message =>
      obtain ⟨hagree, haddressed, -⟩ := onReplicationMessage_eq_some hhandle
      exact ⟨hagree, haddressed⟩
    | announce message =>
      cases hhandle
      exact ⟨agreeBeyond_onAnnouncementMessage self peer message, List.forall_mem_nil _⟩
  exact ⟨hpeer.2, fun other hother => ⟨hpeer.1.1 other hother, hpeer.1.2 other hother⟩⟩

end ConnectionManager

namespace Node

variable {I : Type} [DecidableEq I] [LT I] [DecidableRel (α := I) (· < ·)] [ToString I]
  [LinearOrder SchemaId]

/-- From the start of the service, along any order of events the network may deliver, every
message the loop puts on the bus is for a peer whose connection is open once the event is
handled: a message to send it, or the report that its session failed. -/
theorem reachable_sends_within_connections {store : Db} {ingest : SyncIngest} {localPeerId : I}
    {supportedSchemaIds : List SchemaId} {now : Nat} {node : Node I} {event : ServiceEvent I}
    (hreach : Reachable Step (start store ingest localPeerId supportedSchemaIds now) node)
    (hallowed : event.Allowed node.connections) {next : ConnectionManager I} {sent : List (ServiceMessage I)}
    (hhandle : node.manager.handle event = some (next, sent)) :
    ∀ message ∈ sent, message.AddressedWithin (event.connections node.connections) :=
  (tracks_of_reachable hreach).handle_addressed hallowed hhandle

end Node

/-- The beat after peer `1` announced blobs sends its request over the open connection. -/
theorem announced_tick_sends_within_connections :
    letI : LinearOrder SchemaId := IsWellOrder.linearOrder WellOrderingRel
    ∃ node next sent, Reachable Node.Step (Node.start Db.empty bareIngest (0 : Nat) [.blob 1] 1) node ∧
      node.manager.handle (.tick 2 (keepOrder _) (keepOrder _)) = some (next, sent) ∧ sent ≠ [] ∧
      ∀ message ∈ sent, message.AddressedWithin [⟨1, 0⟩] := by
  let _ : LinearOrder SchemaId := IsWellOrder.linearOrder WellOrderingRel
  obtain ⟨node, next, run, hconnections, htick⟩ := announced_run
  have hallowed : (ServiceEvent.tick 2 (keepOrder _) (keepOrder _) : ServiceEvent Nat).Allowed node.connections := trivial
  have haddressed := Node.reachable_sends_within_connections ⟨_, run⟩ hallowed htick
  change ∀ message ∈ _, ServiceMessage.AddressedWithin node.connections message at haddressed
  rw [hconnections] at haddressed
  exact ⟨node, next, _, ⟨_, run⟩, htick, List.cons_ne_nil _ _, haddressed⟩

/-- The request of that beat is held as a session of ours under id `0`. -/
theorem announced_tick_request_recorded :
    letI : LinearOrder SchemaId := IsWellOrder.linearOrder WellOrderingRel
    ∃ node next, Reachable Node.Step (Node.start Db.empty bareIngest (0 : Nat) [.blob 1] 1) node ∧
      node.manager.handle (.tick 2 (keepOrder _) (keepOrder _)) = some (next,
        [.sentMessage ⟨1, 0⟩ (.syncMessage ⟨0, .syncRequest .logHeight ⟨[.blob 1]⟩⟩)]) ∧
      next.syncManager.Reinitiates ⟨1, 0⟩ ⟨0, .syncRequest .logHeight ⟨[.blob 1]⟩⟩ := by
  let _ : LinearOrder SchemaId := IsWellOrder.linearOrder WellOrderingRel
  obtain ⟨node, next, run, -, htick⟩ := announced_run
  exact ⟨node, next, ⟨_, run⟩, htick, ConnectionManager.handle_requests_recorded node.manager htick _ _
    (List.mem_singleton_self _) rfl⟩

/-- Peer `1` asks a fresh node for blobs: the answers go to peer `1`, and peer `2` is untouched. -/
theorem request_touches_only_sender : letI : LinearOrder SchemaId := IsWellOrder.linearOrder WellOrderingRel
    ∃ next sent, (Node.start Db.empty bareIngest (0 : Nat) [] 0).manager.handle
        (.bus (.receivedMessage ⟨1, 0⟩ (.syncMessage ⟨0, .syncRequest .logHeight ⟨[.blob 1]⟩⟩)) 0
          (keepOrder _) (keepOrder _)) = some (next, sent) ∧
      (∀ reply ∈ sent, reply.AddressedWithin [⟨1, 0⟩]) ∧
      next.peers.lookup ⟨2, 0⟩ = none ∧ next.syncManager.getSessions ⟨2, 0⟩ = [] := by
  let _ : LinearOrder SchemaId := IsWellOrder.linearOrder WellOrderingRel
  obtain ⟨⟨next, sent⟩, hhandle⟩ : ∃ out, (Node.start Db.empty bareIngest (0 : Nat) [] 0).manager.handle
      (.bus (.receivedMessage ⟨1, 0⟩ (.syncMessage ⟨0, .syncRequest .logHeight ⟨[.blob 1]⟩⟩)) 0
        (keepOrder _) (keepOrder _)) = some out := ⟨_, rfl⟩
  obtain ⟨haddressed, hothers⟩ := ConnectionManager.handle_received_touches_only_sender _ hhandle
  obtain ⟨hstatus, hsessions⟩ := hothers ⟨2, 0⟩ (by decide)
  exact ⟨next, sent, hhandle, haddressed, hstatus, hsessions⟩

end Replication

end Aquadoggo
