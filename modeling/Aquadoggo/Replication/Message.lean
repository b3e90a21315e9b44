import Aquadoggo.Data.Types

/-! Replication messages and the target sets sessions are opened for. -/
namespace Aquadoggo.Replication

inductive Mode where
  | logHeight
  | setReconciliation
  | unknown
deriving DecidableEq, Repr

/-- `SUPPORTED_MODES`: this node replicates with the log-height strategy only. -/
def supportedModes : List Mode := [.logHeight]

/-- The schema ids a session replicates, as the sequence the wire carries. -/
structure SchemaIdSet where
  ids : List SchemaId
deriving DecidableEq, Repr

namespace SchemaIdSet

def contains (set : SchemaIdSet) (schemaId : SchemaId) : Bool := set.ids.contains schemaId

def isEmpty (set : SchemaIdSet) : Bool := set.ids.isEmpty

def fromIntersection (localSet remoteSet : SchemaIdSet) : SchemaIdSet :=
  ⟨localSet.ids.filter remoteSet.contains⟩

/-- No element of `set` is unknown to `self`. -/
def isValidSet (self set : SchemaIdSet) : Bool := !set.ids.any fun schemaId => !self.contains schemaId

end SchemaIdSet

abbrev SessionId := Nat

/-- `INITIAL_SESSION_ID`. -/
def initialSessionId : SessionId := 0

/-- The heights a peer reports for the logs of one author. -/
abbrev LogHeights := PublicKey × List (LogId × SeqNum)

/-- Entry and operation in their encoded (hex) form. -/
structure EncodedEntry where
  bytes : String
deriving DecidableEq, Repr

structure EncodedOperation where
  bytes : String
deriving DecidableEq, Repr

inductive Message where
  | syncRequest (mode : Mode) (targetSet : SchemaIdSet)
  | entry (entry : EncodedEntry) (operation : Option EncodedOperation)
  | syncDone (liveMode : Bool)
  | have (logHeights : List LogHeights)
deriving DecidableEq, Repr

namespace Message

def isHave : Message → Bool
  | .have _ => true
  | _ => false

def isSyncDone : Message → Bool
  | .syncDone _ => true
  | _ => false

def isSyncRequest : Message → Bool
  | .syncRequest _ _ => true
  | _ => false

@[simp] theorem isHave_have (logHeights : List LogHeights) : (Message.have logHeights).isHave = true := rfl
@[simp] theorem isHave_syncDone (liveMode : Bool) : (syncDone liveMode).isHave = false := rfl
@[simp] theorem isHave_entry (entry : EncodedEntry) (operation : Option EncodedOperation) :
    (Message.entry entry operation).isHave = false := rfl
@[simp] theorem isSyncDone_syncDone (liveMode : Bool) : (syncDone liveMode).isSyncDone = true := rfl
@[simp] theorem isSyncDone_have (logHeights : List LogHeights) :
    (Message.have logHeights).isSyncDone = false := rfl
@[simp] theorem isSyncDone_entry (entry : EncodedEntry) (operation : Option EncodedOperation) :
    (Message.entry entry operation).isSyncDone = false := rfl
@[simp] theorem isSyncRequest_have (logHeights : List LogHeights) :
    (Message.have logHeights).isSyncRequest = false := rfl
@[simp] theorem isSyncRequest_syncDone (liveMode : Bool) : (syncDone liveMode).isSyncRequest = false :=
  rfl
@[simp] theorem isSyncRequest_entry (entry : EncodedEntry) (operation : Option EncodedOperation) :
    (Message.entry entry operation).isSyncRequest = false := rfl

end Message

structure SyncMessage where
  sessionId : SessionId
  message : Message
deriving DecidableEq, Repr

/-- `to_sync_messages`: tag every message with the session id. -/
def toSyncMessages (sessionId : SessionId) (messages : List Message) : List SyncMessage :=
  messages.map fun message => ⟨sessionId, message⟩

inductive DuplicateSessionRequestError where
  | inboundPendingSession (id : SessionId)
  | inboundEstablishedSession (id : SessionId)
  | inboundDoneSession (id : SessionId)
  | inboundExistingTargetSet (targetSet : SchemaIdSet)
  | outboundExistingTargetSet (targetSet : SchemaIdSet)
  | outbound (id : SessionId)
deriving DecidableEq, Repr

/-- `IngestError`; the p2panda domain and decoding errors are kept as their text. -/
inductive IngestError where
  | unsupportedSchema
  | schemaNotFound
  | domain (reason : String)
  | decodeEntry (reason : String)
  | decodeOperation (reason : String)
  | duplicateEntry (hash : String)
deriving DecidableEq, Repr

inductive ReplicationError where
  | unsupportedMode
  | unsupportedTargetSet
  | duplicateSession (error : DuplicateSessionRequestError)
  | noSessionFound (id : SessionId) (peer : String)
  | noPeerFound (peer : String)
  | unmatchedTargetSet
  | strategyFailed (reason : String)
  | validation (error : IngestError)
deriving DecidableEq, Repr

end Aquadoggo.Replication
