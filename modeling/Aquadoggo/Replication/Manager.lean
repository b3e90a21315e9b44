import Aquadoggo.Replication.Session
import Aquadoggo.Library.AssocList

/-! The `SyncManager` of `replication/manager.rs`: the table of sessions per remote
peer, how a node opens a session, and how it routes every incoming `SyncMessage`,
including the tie-break between two peers that requested at the same time.

Every operation returns the new manager next to its result, because the Rust code
mutates the table before it can still fail with `?`. -/
namespace Aquadoggo.Replication

open Library

/-- The p2panda-rs calls replication makes but this repository does not contain:
hashing an encoded entry, decoding an operation to its schema id, and `publish`. -/
structure P2panda where
  entryHash : EncodedEntry → String
  decodeOperation : EncodedOperation → Option SchemaId
  publish : Db → Schema → EncodedEntry → EncodedOperation → Except String Db

structure SyncIngest where
  schemaProvider : SchemaProvider
  isAllowListActive : Bool
  supportedSchemaIds : List SchemaId
  p2panda : P2panda

/-- `SyncIngest::handle_entry`: reject duplicates and unknown schemas, then publish. -/
def SyncIngest.handleEntry (self : SyncIngest) (store : Db) (entry : EncodedEntry)
    (operation : EncodedOperation) : Except IngestError Db := do
  let hash := self.p2panda.entryHash entry
  if store.entries.any (·.entryHash == hash) then throw (.duplicateEntry hash)
  let some schemaId := self.p2panda.decodeOperation operation
    | throw (.decodeOperation "invalid operation")
  if self.isAllowListActive && !self.supportedSchemaIds.contains schemaId then
    throw .unsupportedSchema
  let some schema := self.schemaProvider.get schemaId | throw .schemaNotFound
  match self.p2panda.publish store schema entry operation with
  | .ok store => pure store
  | .error reason => throw (.domain reason)

/-- `SUPPORT_LIVE_MODE`. -/
def supportLiveMode : Bool := false

structure SyncResult where
  messages : List SyncMessage
  isDone : Bool
deriving DecidableEq, Repr

def SyncResult.fromMessages (sessionId : SessionId) (messages : List Message) (isDone : Bool) :
    SyncResult :=
  ⟨toSyncMessages sessionId messages, isDone⟩

structure SyncManager (P : Type) where
  store : Db
  ingest : SyncIngest
  localPeer : P
  sessions : List (P × List Session)

namespace SyncManager

variable {P : Type} [DecidableEq P]

def new (store : Db) (ingest : SyncIngest) (localPeer : P) : SyncManager P :=
  ⟨store, ingest, localPeer, []⟩

/-- `remove_sessions`: forget the peer and all its sessions. -/
def removeSessions (self : SyncManager P) (remotePeer : P) : SyncManager P :=
  { self with sessions := self.sessions.filter (·.1 != remotePeer) }

/-- `get_sessions`: a copy of the peer's sessions, empty for an unknown peer. -/
def getSessions (self : SyncManager P) (remotePeer : P) : List Session :=
  (self.sessions.lookup remotePeer).getD []

/-- The `push` onto the peer's vector that both insertion methods end with. -/
def pushSession (self : SyncManager P) (remotePeer : P) (session : Session) : SyncManager P :=
  match self.sessions.lookup remotePeer with
  | some sessions => { self with sessions := insertMap self.sessions remotePeer (sessions ++ [session]) }
  | none => { self with sessions := insertMap self.sessions remotePeer [session] }

/-- `insert_and_initialize_session`: register a new session and return its initial messages. -/
def insertAndInitializeSession (self : SyncManager P) (remotePeer : P) (sessionId : SessionId)
    (targetSet : SchemaIdSet) (isLocal : Bool) : SyncManager P × List Message :=
  let session := Session.new sessionId targetSet isLocal supportLiveMode
  let (session, initialMessages) := session.initialMessages self.ingest.schemaProvider self.store
  (self.pushSession remotePeer session, initialMessages)

/-- `insert_session`: register a new session without asking it for messages. -/
def insertSession (self : SyncManager P) (remotePeer : P) (sessionId : SessionId)
    (targetSet : SchemaIdSet) (isLocal : Bool) : SyncManager P :=
  self.pushSession remotePeer (Session.new sessionId targetSet isLocal supportLiveMode)

/-- `remove_session`: drop the first session of the peer with this id, if any. -/
def removeSession (self : SyncManager P) (remotePeer : P) (sessionId : SessionId) : SyncManager P :=
  match self.sessions.lookup remotePeer with
  | some sessions =>
    { self with sessions := insertMap self.sessions remotePeer (sessions.eraseP (·.id == sessionId)) }
  | none => self

theorem pushSession_sessions (self : SyncManager P) (remotePeer : P) (session : Session) :
    (self.pushSession remotePeer session).sessions =
      insertMap self.sessions remotePeer (self.getSessions remotePeer ++ [session]) := by
  unfold pushSession getSessions
  cases self.sessions.lookup remotePeer <;> rfl

theorem getSessions_pushSession (self : SyncManager P) (remotePeer peer : P) (session : Session) :
    (self.pushSession remotePeer session).getSessions peer =
      if peer = remotePeer then self.getSessions remotePeer ++ [session]
      else self.getSessions peer := by
  unfold getSessions
  rw [pushSession_sessions, lookup_insertMap]
  split <;> rfl

theorem getSessions_removeSession (self : SyncManager P) (remotePeer peer : P) (sessionId : SessionId) :
    (self.removeSession remotePeer sessionId).getSessions peer =
      if peer = remotePeer then (self.getSessions remotePeer).eraseP (·.id == sessionId)
      else self.getSessions peer := by
  unfold removeSession getSessions
  cases hlookup : self.sessions.lookup remotePeer with
  | none =>
    by_cases hpeer : peer = remotePeer
    · subst peer
      simp [hlookup]
    · simp [hpeer]
  | some sessions =>
    simp only [lookup_insertMap]
    split <;> simp

@[simp] theorem pushSession_store (self : SyncManager P) (remotePeer : P) (session : Session) :
    (self.pushSession remotePeer session).store = self.store := by
  unfold pushSession
  split <;> rfl

@[simp] theorem pushSession_ingest (self : SyncManager P) (remotePeer : P) (session : Session) :
    (self.pushSession remotePeer session).ingest = self.ingest := by
  unfold pushSession
  split <;> rfl

@[simp] theorem pushSession_localPeer (self : SyncManager P) (remotePeer : P) (session : Session) :
    (self.pushSession remotePeer session).localPeer = self.localPeer := by
  unfold pushSession
  split <;> rfl

@[simp] theorem removeSession_store (self : SyncManager P) (remotePeer : P) (sessionId : SessionId) :
    (self.removeSession remotePeer sessionId).store = self.store := by
  unfold removeSession
  split <;> rfl

@[simp] theorem removeSession_ingest (self : SyncManager P) (remotePeer : P) (sessionId : SessionId) :
    (self.removeSession remotePeer sessionId).ingest = self.ingest := by
  unfold removeSession
  split <;> rfl

@[simp] theorem removeSession_localPeer (self : SyncManager P) (remotePeer : P)
    (sessionId : SessionId) : (self.removeSession remotePeer sessionId).localPeer = self.localPeer := by
  unfold removeSession
  split <;> rfl

def isModeSupported (mode : Mode) : Except ReplicationError Unit :=
  if supportedModes.contains mode then pure () else throw .unsupportedMode

/-- The id `initiate_session` picks: one above the id of the last session in the peer's
vector, or `INITIAL_SESSION_ID` for an empty one. -/
def nextSessionId (sessions : List Session) : SessionId :=
  match sessions.getLast? with
  | some session => session.id + 1
  | none => initialSessionId

/-- `initiate_session`: open an outbound session for a target set not yet in use. -/
def initiateSession (self : SyncManager P) (remotePeer : P) (targetSet : SchemaIdSet)
    (mode : Mode) : SyncManager P × Except ReplicationError (List SyncMessage) :=
  match isModeSupported mode with
  | .error err => (self, .error err)
  | .ok () =>
    let sessions := self.getSessions remotePeer
    match sessions.find? (·.targetSet == targetSet) with
    | some session => (self, .error (.duplicateSession (.outboundExistingTargetSet session.targetSet)))
    | none =>
      let sessionId := nextSessionId sessions
      (self.insertSession remotePeer sessionId targetSet true,
        .ok [⟨sessionId, .syncRequest mode targetSet⟩])

/-- What `initiate_session` can do to the table: nothing, or register a local session under
`nextSessionId` for a target set no session of the peer has. -/
theorem initiateSession_cases (self : SyncManager P) (remotePeer : P) (targetSet : SchemaIdSet)
    (mode : Mode) :
    (self.initiateSession remotePeer targetSet mode).1 = self ∨
      (∀ session ∈ self.getSessions remotePeer, session.targetSet ≠ targetSet) ∧
      (self.initiateSession remotePeer targetSet mode).1 =
        self.insertSession remotePeer (nextSessionId (self.getSessions remotePeer)) targetSet true := by
  unfold initiateSession
  cases isModeSupported mode with
  | error err => exact .inl rfl
  | ok u =>
    dsimp only
    cases hfind : (self.getSessions remotePeer).find? (·.targetSet == targetSet) with
    | some session => exact .inl rfl
    | none =>
      refine .inr ⟨fun session hmem htarget => ?_, rfl⟩
      have := List.find?_eq_none.mp hfind session hmem
      simp [htarget] at this

-- The tie-break between two peers compares them, and errors name the peer.
variable [LT P] [DecidableRel (α := P) (· < ·)] [ToString P]

/-- `handle_duplicate_session`: a `SyncRequest` arrived with the id of one of our sessions. -/
def handleDuplicateSession (self : SyncManager P) (remotePeer : P) (targetSet : SchemaIdSet)
    (existing : Session) : SyncManager P × Except ReplicationError SyncResult :=
  if !existing.isLocal then
    (self, .error (.duplicateSession (.inboundPendingSession existing.id)))
  else
    let accept := match existing.state with
      | .pending => if self.localPeer < remotePeer then
          Except.ok (self.removeSession remotePeer existing.id, true) else .ok (self, false)
      | .established => .error (ReplicationError.duplicateSession (.inboundEstablishedSession existing.id))
      | .done => .error (.duplicateSession (.inboundDoneSession existing.id))
    match accept with
    | .error err => (self, .error err)
    | .ok (self, false) => (self, .ok ⟨[], false⟩)
    | .ok (self, true) =>
      let (self, messages) :=
        self.insertAndInitializeSession remotePeer existing.id targetSet false
      let allMessages := toSyncMessages existing.id messages
      -- Our dropped request concerned another target set: ask for it again under a new id.
      if existing.targetSet != targetSet then
        match self.initiateSession remotePeer existing.targetSet existing.mode with
        | (self, .error err) => (self, .error err)
        | (self, .ok messages) => (self, .ok ⟨allMessages ++ messages, false⟩)
      else (self, .ok ⟨allMessages, false⟩)

/-- `handle_duplicate_target_set`: a `SyncRequest` arrived for the target set of one of our
sessions, under another id. The replies are tagged with the id of our dropped session. -/
def handleDuplicateTargetSet (self : SyncManager P) (remotePeer : P) (sessionId : SessionId)
    (existing : Session) : SyncManager P × Except ReplicationError SyncResult :=
  if !existing.isLocal then
    (self, .error (.duplicateSession (.inboundExistingTargetSet existing.targetSet)))
  else
    match existing.state with
    | .pending =>
      if self.localPeer < remotePeer then
        let self := self.removeSession remotePeer existing.id
        let (self, messages) :=
          self.insertAndInitializeSession remotePeer sessionId existing.targetSet false
        (self, .ok ⟨toSyncMessages existing.id messages, false⟩)
      else (self, .ok ⟨[], false⟩)
    | _ => (self, .error (.duplicateSession (.inboundExistingTargetSet existing.targetSet)))

/-- `handle_sync_request`: duplicates by id first, then by target set, else a new inbound
session. -/
def handleSyncRequest (self : SyncManager P) (remotePeer : P) (mode : Mode) (sessionId : SessionId)
    (targetSet : SchemaIdSet) : SyncManager P × Except ReplicationError SyncResult :=
  match isModeSupported mode with
  | .error err => (self, .error err)
  | .ok () =>
    let sessions := self.getSessions remotePeer
    match sessions.find? (·.id == sessionId) with
    | some existing => self.handleDuplicateSession remotePeer targetSet existing
    | none =>
      match sessions.find? (·.targetSet == targetSet) with
      | some existing => self.handleDuplicateTargetSet remotePeer sessionId existing
      | none =>
        let (self, messages) := self.insertAndInitializeSession remotePeer sessionId targetSet false
        (self, .ok (SyncResult.fromMessages sessionId messages false))

/-- Replace the first session of the peer with this id. -/
def updateSession (self : SyncManager P) (remotePeer : P) (sessions : List Session)
    (sessionId : SessionId) (session : Session) : SyncManager P :=
  let index := sessions.findIdx (·.id == sessionId)
  { self with sessions := insertMap self.sessions remotePeer (sessions.set index session) }

omit [LT P] [DecidableRel (α := P) (· < ·)] [ToString P] in
theorem getSessions_updateSession (self : SyncManager P) (remotePeer peer : P)
    (sessions : List Session) (sessionId : SessionId) (session : Session) :
    (self.updateSession remotePeer sessions sessionId session).getSessions peer =
      if peer = remotePeer then sessions.set (sessions.findIdx (·.id == sessionId)) session
      else self.getSessions peer := by
  unfold updateSession getSessions
  rw [lookup_insertMap]
  split <;> rfl

/-- `handle_session_message`: pass `Have` or `SyncDone` to the session with this id, and
remove the session once both sides are done. The session keeps its changes when it fails;
`none` is a panic of the session. -/
def handleSessionMessage (self : SyncManager P) (remotePeer : P) (sessionId : SessionId)
    (message : Message) : Option (SyncManager P × Except ReplicationError SyncResult) :=
  match self.sessions.lookup remotePeer with
  | none => some (self, .error (.noPeerFound (toString remotePeer)))
  | some sessions =>
    match sessions.find? (·.id == sessionId) with
    | none => some (self, .error (.noSessionFound sessionId (toString remotePeer)))
    | some session => do
      let (session, result) ← session.handleMessage self.ingest.schemaProvider self.store message
      let self := self.updateSession remotePeer sessions sessionId session
      match result with
      | .error err => pure (self, .error err)
      | .ok messages =>
        let isBothDone := session.state == .done
        let self := if isBothDone then self.removeSession remotePeer sessionId else self
        pure (self, .ok (SyncResult.fromMessages sessionId messages isBothDone))

/-- `Session::validate_entry`: the operation must follow a schema of the target set. -/
def validateEntry (ingest : SyncIngest) (session : Session) (operation : Option EncodedOperation) :
    Except ReplicationError Unit :=
  match operation with
  | none => pure ()
  | some operation =>
    match ingest.p2panda.decodeOperation operation with
    | none => throw (.strategyFailed "Could not decode operation")
    | some schemaId => if session.targetSet.contains schemaId then pure () else throw .unmatchedTargetSet

/-- `handle_entry`: validate against a copy of the session, then ingest. `none` is the
`expect` panic on an entry that comes without its operation. -/
def handleEntry (self : SyncManager P) (remotePeer : P) (sessionId : SessionId)
    (entry : EncodedEntry) (operation : Option EncodedOperation) :
    Option (SyncManager P × Except ReplicationError SyncResult) :=
  match (self.getSessions remotePeer).find? (·.id == sessionId) with
  | none => some (self, .error (.noSessionFound sessionId (toString remotePeer)))
  | some session =>
    match validateEntry self.ingest session operation with
    | .error err => some (self, .error err)
    | .ok () =>
      operation.map fun operation =>
        match self.ingest.handleEntry self.store entry operation with
        | .ok store => ({ self with store := store }, .ok ⟨[], session.state == .done⟩)
        | .error (.duplicateEntry _) | .error .schemaNotFound =>
          (self, .ok ⟨[], session.state == .done⟩)
        | .error err => (self, .error (.validation err))

/-- `handle_message`: route a message by its kind. `none` is a panic. -/
def handleMessage (self : SyncManager P) (remotePeer : P) (syncMessage : SyncMessage) :
    Option (SyncManager P × Except ReplicationError SyncResult) :=
  match syncMessage.message with
  | .syncRequest mode targetSet =>
    some (self.handleSyncRequest remotePeer mode syncMessage.sessionId targetSet)
  | .entry entry operation => self.handleEntry remotePeer syncMessage.sessionId entry operation
  | message => self.handleSessionMessage remotePeer syncMessage.sessionId message

end SyncManager

end Aquadoggo.Replication
