import Aquadoggo.Replication.SchemaIdSet
import Aquadoggo.Library.Cbor

/-! The wire form of what peers send each other (`network/peers/message.rs`,
`replication/message.rs`, `replication/announcement.rs`, `replication/mode.rs`). Every message
is a CBOR array headed by its type; one hand-written visitor reads all five kinds back, checks
the target sets it reads, and refuses an array with items left over. -/
namespace Aquadoggo.Replication

open Library Cbor

/-- `ANNOUNCE_TYPE`. -/
def announceType : Nat := 0
/-- `SYNC_REQUEST_TYPE`. -/
def syncRequestType : Nat := 1
/-- `ENTRY_TYPE`. -/
def entryType : Nat := 2
/-- `SYNC_DONE_TYPE`. -/
def syncDoneType : Nat := 3
/-- `HAVE_TYPE`. -/
def haveType : Nat := 10

structure Announcement where
  supportedSchemaIds : SchemaIdSet
  timestamp : Nat
deriving DecidableEq, Repr

/-- `AnnouncementMessage(protocol_version, announcement)`. -/
structure AnnouncementMessage where
  protocolVersion : Nat
  announcement : Announcement
deriving DecidableEq, Repr

/-- `PeerMessage`; it serializes untagged, each variant as its own array. -/
inductive PeerMessage where
  | announce (message : AnnouncementMessage)
  | syncMessage (message : SyncMessage)
deriving DecidableEq, Repr

namespace Mode

/-- `as_u64`; for `Unknown` it is `unreachable!`, a panic, here none. -/
def asU64 : Mode → Option Nat
  | .logHeight => some 0
  | .setReconciliation => some 1
  | .unknown => none

/-- `From<u64> for Mode`. -/
def ofU64 : Nat → Mode
  | 0 => .logHeight
  | 1 => .setReconciliation
  | _ => .unknown

theorem ofU64_asU64 {mode : Mode} {n : Nat} (h : mode.asU64 = some n) : ofU64 n = mode := by
  cases mode <;> cases h <;> rfl

end Mode

def Message.messageType : Message → Nat
  | .syncRequest .. => syncRequestType
  | .entry .. => entryType
  | .syncDone _ => syncDoneType
  | .have _ => haveType

/-- The text a schema id is serialized as, and the parse that reads it back: p2panda's
`Display` and `FromStr` of `SchemaId`, which this repository does not define. -/
structure SchemaIdText where
  display : SchemaId → String
  parse : String → Except String SchemaId

/-! ### Serialization -/

section Serialize

variable (schemaIdText : SchemaIdText)

/-- `SchemaIdSet` derives `Serialize`: the sequence of its ids, each as its text. -/
def SchemaIdSet.serialize (set : SchemaIdSet) : Item :=
  .array (set.ids.map fun schemaId => .text (schemaIdText.display schemaId))

/-- A public key with its log heights, as the tuple `(PublicKey, Vec<(LogId, SeqNum)>)`. -/
def serializeLogHeights (logHeights : LogHeights) : Item :=
  .array [.bytes logHeights.1.hex,
    .array (logHeights.2.map fun (logId, seqNum) => .array [.unsigned logId, .unsigned seqNum])]

/-- `Serialize for SyncMessage`: message type and session id first, then the fields of the
message. An absent operation is serialized as `null`. -/
def SyncMessage.serialize (message : SyncMessage) : Option Item :=
  let header := [Item.unsigned message.message.messageType, .unsigned message.sessionId]
  match message.message with
  | .syncRequest mode targetSet => do
    let mode ← mode.asU64
    pure (.array (header ++ [.unsigned mode, targetSet.serialize schemaIdText]))
  | .entry entryBytes operationBytes =>
    let operationBytes := match operationBytes with
      | some operation => Item.bytes operation.bytes
      | none => .null
    some (.array (header ++ [.bytes entryBytes.bytes, operationBytes]))
  | .syncDone liveMode => some (.array (header ++ [.bool liveMode]))
  | .have logHeights => some (.array (header ++ [.array (logHeights.map serializeLogHeights)]))

/-- `Serialize for AnnouncementMessage`. -/
def AnnouncementMessage.serialize (message : AnnouncementMessage) : Item :=
  .array [.unsigned announceType, .unsigned message.protocolVersion,
    .unsigned message.announcement.timestamp,
    message.announcement.supportedSchemaIds.serialize schemaIdText]

/-- The untagged `Serialize` of `PeerMessage`; none where serializing panics. -/
def PeerMessage.serialize : PeerMessage → Option Item
  | .announce message => some (message.serialize schemaIdText)
  | .syncMessage message => message.serialize schemaIdText

end Serialize

/-! ### Deserialization -/

section Deserialize

variable (schemaIdText : SchemaIdText) [LinearOrder SchemaId]

def schemaId : Decoder SchemaId := parsed text schemaIdText.parse

/-- `Deserialize for SchemaIdSet`: the ids, kept only in canonical order (`from_untrusted`). -/
def schemaIdSet : Decoder SchemaIdSet := parsed (seq (schemaId schemaIdText)) SchemaIdSet.fromUntrusted

/-- `Deserialize for Mode`: any `u64`, those without a mode read as `Unknown`. -/
def mode : Decoder Mode := fun item => Mode.ofU64 <$> u64 item

def publicKey : Decoder PublicKey := fun item => PublicKey.mk <$> bytes item

def encodedEntry : Decoder EncodedEntry := fun item => EncodedEntry.mk <$> bytes item

def encodedOperation : Decoder EncodedOperation := fun item => EncodedOperation.mk <$> bytes item

/-- `Vec<(PublicKey, Vec<(LogId, SeqNum)>)>`. -/
def logHeights : Decoder (List LogHeights) := seq (pair publicKey (seq (pair u64 u64)))

/-- `set.validate().map_err(|_| Error::custom(message))?`. -/
def validateTargetSet (set : SchemaIdSet) (message : String) : SeqAccess Unit :=
  match set.validate with
  | .ok () => pure ()
  | .error _ => throw (.custom message)

def visitAnnounce : SeqAccess PeerMessage := do
  let protocolVersion ← required u64 "missing protocol version in announce message"
  let timestamp ← required u64 "missing timestamp in announce message"
  let supportedSchemaIds ←
    required (schemaIdSet schemaIdText) "missing target set in announce message"
  validateTargetSet supportedSchemaIds "invalid target set in announce message"
  pure (.announce ⟨protocolVersion, ⟨supportedSchemaIds, timestamp⟩⟩)

def visitSyncRequest : SeqAccess PeerMessage := do
  let sessionId ← required u64 "missing session id in replication message"
  let mode ← required mode "missing mode in sync request message"
  let targetSet ← required (schemaIdSet schemaIdText) "missing target set in sync request message"
  validateTargetSet targetSet "invalid target set in sync request message"
  if targetSet.isEmpty then
    throw (.custom "empty target set in sync request message")
  pure (.syncMessage ⟨sessionId, .syncRequest mode targetSet⟩)

/-- The operation is read as `next_element::<EncodedOperation>()`: a missing fourth item gives
none, and a fourth item must be bytes. -/
def visitEntry : SeqAccess PeerMessage := do
  let sessionId ← required u64 "missing session id in replication message"
  let entryBytes ← required encodedEntry "missing entry bytes in entry message"
  let operationBytes ← nextElement encodedOperation
  pure (.syncMessage ⟨sessionId, .entry entryBytes operationBytes⟩)

def visitSyncDone : SeqAccess PeerMessage := do
  let sessionId ← required u64 "missing session id in replication message"
  let liveMode ← required bool "missing live mode flag in sync done message"
  pure (.syncMessage ⟨sessionId, .syncDone liveMode⟩)

def visitHave : SeqAccess PeerMessage := do
  let sessionId ← required u64 "missing session id in replication message"
  let logHeights ← required logHeights "missing log heights in have message"
  pure (.syncMessage ⟨sessionId, .have logHeights⟩)

/-- The `match message_type` of `visit_seq`, on `ANNOUNCE_TYPE`, `SYNC_REQUEST_TYPE`,
`ENTRY_TYPE`, `SYNC_DONE_TYPE` and `HAVE_TYPE`. -/
def visitFields : Nat → SeqAccess PeerMessage
  | 0 => visitAnnounce schemaIdText
  | 1 => visitSyncRequest schemaIdText
  | 2 => visitEntry
  | 3 => visitSyncDone
  | 10 => visitHave
  | _ => throw (.custom "unknown message type")

/-- `visit_seq` of `PeerMessage::deserialize`. -/
def visitSeq : SeqAccess PeerMessage := do
  let messageType ← required u64 "invalid message type"
  let message ← visitFields schemaIdText messageType
  match ← sizeHint with
  | some itemsLeft =>
    if itemsLeft > 0 then
      throw (.custom "too many fields for p2panda message")
  | none => pure ()
  pure message

def PeerMessage.deserialize : Decoder PeerMessage := deserializeSeq (visitSeq schemaIdText)

end Deserialize

namespace PeerMessage

/-- The schema ids a message carries. -/
def schemaIds : PeerMessage → List SchemaId
  | .announce message => message.announcement.supportedSchemaIds.ids
  | .syncMessage ⟨_, .syncRequest _ targetSet⟩ => targetSet.ids
  | .syncMessage _ => []

/-- The target set of an announcement or a sync request. -/
def targetSet? : PeerMessage → Option SchemaIdSet
  | .announce message => some message.announcement.supportedSchemaIds
  | .syncMessage ⟨_, .syncRequest _ targetSet⟩ => some targetSet
  | .syncMessage _ => none

/-- How many items follow the message type in the array a message is read from. -/
def fieldCount : PeerMessage → Nat
  | .announce _ => 3
  | .syncMessage ⟨_, .syncRequest ..⟩ => 3
  | .syncMessage ⟨_, .entry _ (some _)⟩ => 3
  | .syncMessage ⟨_, .entry _ none⟩ => 2
  | .syncMessage ⟨_, .syncDone _⟩ => 2
  | .syncMessage ⟨_, .have _⟩ => 2

/-- p2panda's `FromStr` reads back the `Display` of every schema id the message carries. -/
def TextRoundTrips (schemaIdText : SchemaIdText) (message : PeerMessage) : Prop :=
  ∀ schemaId ∈ message.schemaIds, schemaIdText.parse (schemaIdText.display schemaId) = .ok schemaId

def CarriesOperation : PeerMessage → Prop
  | .syncMessage ⟨_, .entry _ none⟩ => False
  | _ => True

variable [LinearOrder SchemaId]

/-- A message as aquadoggo builds one: its target sets canonical (`SchemaIdSet::new`), and a
sync request for a non-empty set in a mode that serializes. -/
def Sendable : PeerMessage → Prop
  | .announce message => message.announcement.supportedSchemaIds.Canonical
  | .syncMessage ⟨_, .syncRequest mode targetSet⟩ =>
    mode ≠ .unknown ∧ targetSet.Canonical ∧ targetSet.ids ≠ []
  | .syncMessage _ => True

def TargetSetCanonical (message : PeerMessage) : Prop :=
  ∀ set, message.targetSet? = some set → set.Canonical

end PeerMessage

/-! ### Reading back what was written -/

section RoundTrip

variable {schemaIdText : SchemaIdText}

theorem logHeights_serialize (heights : List LogHeights) :
    logHeights (.array (heights.map serializeLogHeights)) = .ok heights := by
  apply seq_array_map
  rintro ⟨key, logs⟩ -
  refine pair_array (rfl : publicKey (.bytes key.hex) = .ok key) ?_
  apply seq_array_map
  rintro ⟨logId, seqNum⟩ -
  exact pair_array rfl rfl

theorem visitEntry_run (sessionId : SessionId) (entry : EncodedEntry)
    (operation : EncodedOperation) (rest : List Item) :
    visitEntry.run (.unsigned sessionId :: .bytes entry.bytes :: .bytes operation.bytes :: rest) =
      .ok (.syncMessage ⟨sessionId, .entry entry (some operation)⟩, rest) := by
  simp [visitEntry, required_cons]
  rfl

/-- The `null` written for an absent operation is not bytes, so the read fails. -/
theorem visitEntry_null (sessionId : SessionId) (entry : EncodedEntry) (rest : List Item) :
    visitEntry.run (.unsigned sessionId :: .bytes entry.bytes :: .null :: rest) =
      .error (.invalidType .bytes) := by
  simp [visitEntry, required_cons]
  rfl

theorem visitSyncDone_run (sessionId : SessionId) (liveMode : Bool) (rest : List Item) :
    visitSyncDone.run (.unsigned sessionId :: .bool liveMode :: rest) =
      .ok (.syncMessage ⟨sessionId, .syncDone liveMode⟩, rest) := by
  simp [visitSyncDone, required_cons]

theorem visitHave_run (sessionId : SessionId) (heights : List LogHeights) (rest : List Item) :
    visitHave.run (.unsigned sessionId :: .array (heights.map serializeLogHeights) :: rest) =
      .ok (.syncMessage ⟨sessionId, .have heights⟩, rest) := by
  simp [visitHave, required_cons, logHeights_serialize]

variable [LinearOrder SchemaId]

theorem SchemaIdSet.validate_of_canonical {set : SchemaIdSet} (h : set.Canonical) :
    set.validate = .ok () :=
  (SchemaIdSet.validate_eq_ok_iff set).mpr ((SchemaIdSet.canonical_iff_pairwise set).mp h)

theorem schemaIdSet_serialize {set : SchemaIdSet} (hcanonical : set.Canonical)
    (htext : ∀ schemaId ∈ set.ids,
      schemaIdText.parse (schemaIdText.display schemaId) = .ok schemaId) :
    schemaIdSet schemaIdText (set.serialize schemaIdText) = .ok set := by
  refine parsed_of_eq_ok (seq_array_map _ _ set.ids fun x hx => ?_) ?_
  · exact parsed_of_eq_ok (text_text _) (htext x hx)
  · simp [SchemaIdSet.fromUntrusted, SchemaIdSet.validate_of_canonical hcanonical]

/-- A target set is read only in canonical form. -/
theorem canonical_of_schemaIdSet {item : Item} {set : SchemaIdSet}
    (h : schemaIdSet schemaIdText item = .ok set) : set.Canonical := by
  obtain ⟨ids, -, hfrom⟩ := parsed_eq_ok h
  obtain ⟨⟨⟩, hvalid, hset⟩ := bind_eq_ok hfrom
  cases hset
  exact (SchemaIdSet.canonical_iff_pairwise _).mpr ((SchemaIdSet.validate_eq_ok_iff _).mp hvalid)

theorem visitAnnounce_run {protocolVersion timestamp : Nat} {set : SchemaIdSet} {rest : List Item}
    (hcanonical : set.Canonical)
    (htext : ∀ schemaId ∈ set.ids,
      schemaIdText.parse (schemaIdText.display schemaId) = .ok schemaId) :
    (visitAnnounce schemaIdText).run
        (.unsigned protocolVersion :: .unsigned timestamp :: set.serialize schemaIdText :: rest) =
      .ok (.announce ⟨protocolVersion, ⟨set, timestamp⟩⟩, rest) := by
  simp [visitAnnounce, required_cons, schemaIdSet_serialize hcanonical htext, validateTargetSet,
    SchemaIdSet.validate_of_canonical hcanonical]
  rfl

theorem visitSyncRequest_run {sessionId n : Nat} {mode : Mode} {set : SchemaIdSet} {rest : List Item}
    (hmode : mode.asU64 = some n) (hcanonical : set.Canonical) (hne : set.ids ≠ [])
    (htext : ∀ schemaId ∈ set.ids,
      schemaIdText.parse (schemaIdText.display schemaId) = .ok schemaId) :
    (visitSyncRequest schemaIdText).run
        (.unsigned sessionId :: .unsigned n :: set.serialize schemaIdText :: rest) =
      .ok (.syncMessage ⟨sessionId, .syncRequest mode set⟩, rest) := by
  have hread : Replication.mode (.unsigned n) = .ok mode := by
    show Except.ok (Mode.ofU64 n) = _
    rw [Mode.ofU64_asU64 hmode]
  have hempty : set.isEmpty = false := by simpa [SchemaIdSet.isEmpty] using hne
  simp [visitSyncRequest, required_cons, hread, schemaIdSet_serialize hcanonical htext,
    validateTargetSet, SchemaIdSet.validate_of_canonical hcanonical, hempty]
  rfl

theorem deserialize_array {messageType : Nat} {rest : List Item} {message : PeerMessage}
    (h : (visitFields schemaIdText messageType).run rest = .ok (message, [])) :
    PeerMessage.deserialize schemaIdText (.array (.unsigned messageType :: rest)) =
      .ok message := by
  simp [PeerMessage.deserialize, deserializeSeq, visitSeq, required_cons, h, sizeHint_run]
  rfl

theorem deserialize_array_trailing {messageType : Nat} {rest extra : List Item}
    {message : PeerMessage}
    (h : (visitFields schemaIdText messageType).run rest = .ok (message, extra))
    (hextra : extra ≠ []) :
    PeerMessage.deserialize schemaIdText (.array (.unsigned messageType :: rest)) =
      .error (.custom "too many fields for p2panda message") := by
  have hleft : extra.length > 0 := List.length_pos_iff.mpr hextra
  simp [PeerMessage.deserialize, deserializeSeq, visitSeq, required_cons, h, sizeHint_run, hleft]
  rfl

example : PeerMessage.deserialize schemaIdText
    (.array [.unsigned 3, .unsigned 7, .bool true, .text "too much"]) =
      .error (.custom "too many fields for p2panda message") := by
  rfl

example : PeerMessage.deserialize schemaIdText (.array [.unsigned 1, .unsigned 0, .unsigned 0, .array []]) =
    .error (.custom "empty target set in sync request message") := by
  rfl

/-- A message aquadoggo sends is its type followed by fields that its arm of the visitor reads
back, whatever follows them. -/
theorem serialize_reads_back {message : PeerMessage} (hsendable : message.Sendable)
    (htext : message.TextRoundTrips schemaIdText) (hoperation : message.CarriesOperation) :
    ∃ messageType fields,
      message.serialize schemaIdText = some (.array (.unsigned messageType :: fields)) ∧
      ∀ rest, (visitFields schemaIdText messageType).run (fields ++ rest) = .ok (message, rest) := by
  rcases message with ⟨protocolVersion, set, timestamp⟩ | ⟨sessionId, message⟩
  · exact ⟨_, _, rfl, fun rest => visitAnnounce_run hsendable htext⟩
  rcases message with ⟨mode, set⟩ | ⟨entry, _ | operation⟩ | liveMode | heights
  · obtain ⟨hmode, hcanonical, hne⟩ := hsendable
    obtain ⟨n, hn⟩ : ∃ n, mode.asU64 = some n := by
      cases mode
      case unknown => exact absurd rfl hmode
      all_goals exact ⟨_, rfl⟩
    refine ⟨syncRequestType, [.unsigned sessionId, .unsigned n, set.serialize schemaIdText], ?_,
      fun rest => visitSyncRequest_run hn hcanonical hne htext⟩
    simp [PeerMessage.serialize, SyncMessage.serialize, Message.messageType, hn]
  · exact hoperation.elim
  · exact ⟨_, _, rfl, fun rest => visitEntry_run sessionId entry operation rest⟩
  · exact ⟨_, _, rfl, fun rest => visitSyncDone_run sessionId liveMode rest⟩
  · exact ⟨_, _, rfl, fun rest => visitHave_run sessionId heights rest⟩

theorem deserialize_serialize {message : PeerMessage} (hsendable : message.Sendable)
    (htext : message.TextRoundTrips schemaIdText) (hoperation : message.CarriesOperation) :
    ∃ item, message.serialize schemaIdText = some item ∧
      PeerMessage.deserialize schemaIdText item = .ok message := by
  obtain ⟨messageType, fields, hitem, hread⟩ := serialize_reads_back hsendable htext hoperation
  refine ⟨_, hitem, deserialize_array ?_⟩
  simpa using hread []

/-- Items appended to what aquadoggo sends make the array too long to read. -/
theorem deserialize_serialize_append {message : PeerMessage} (hsendable : message.Sendable)
    (htext : message.TextRoundTrips schemaIdText) (hoperation : message.CarriesOperation)
    {extra : List Item} (hextra : extra ≠ []) :
    ∃ items, message.serialize schemaIdText = some (.array items) ∧
      PeerMessage.deserialize schemaIdText (.array (items ++ extra)) =
        .error (.custom "too many fields for p2panda message") := by
  obtain ⟨messageType, fields, hitem, hread⟩ := serialize_reads_back hsendable htext hoperation
  exact ⟨_, hitem, deserialize_array_trailing (hread extra) hextra⟩

/-- An entry without its operation is serialized with `null` where the operation goes, and the
visitor reads a fourth item only as bytes: the message does not read back. -/
theorem deserialize_serialize_entry_without_operation (sessionId : SessionId)
    (entry : EncodedEntry) :
    ∃ item, (PeerMessage.syncMessage ⟨sessionId, .entry entry none⟩).serialize schemaIdText =
        some item ∧ PeerMessage.deserialize schemaIdText item = .error (.invalidType .bytes) := by
  refine ⟨_, rfl, ?_⟩
  simp [PeerMessage.deserialize, deserializeSeq, visitSeq, required_cons, Message.messageType,
    entryType, visitFields, visitEntry_null]

end RoundTrip

/-! ### What a read guarantees -/

section Decoded

variable {schemaIdText : SchemaIdText} [LinearOrder SchemaId]

/-- What reading a message's fields guarantees: they were the next `fieldCount` items, and a
target set read among them is canonical. -/
def ReadsFields (visitor : SeqAccess PeerMessage) : Prop :=
  ∀ rest message rest', visitor.run rest = .ok (message, rest') →
    rest.length = rest'.length + message.fieldCount ∧ message.TargetSetCanonical

theorem validateTargetSet_eq_ok {set : SchemaIdSet} {message : String} {rest rest' : List Item}
    {u : Unit} (h : (validateTargetSet set message).run rest = .ok (u, rest')) : rest' = rest := by
  unfold validateTargetSet at h
  split at h
  · cases h
    rfl
  · cases h

theorem readsFields_visitSyncDone : ReadsFields visitSyncDone := by
  intro rest message rest' h
  obtain ⟨_, _, sessionId, rfl, -, h⟩ := required_bind_eq_ok h
  obtain ⟨_, _, liveMode, rfl, -, h⟩ := required_bind_eq_ok h
  obtain ⟨rfl, rfl⟩ := run_pure_eq_ok h
  exact ⟨rfl, fun _ h => by cases h⟩

theorem readsFields_visitSyncRequest : ReadsFields (visitSyncRequest schemaIdText) := by
  intro rest message rest' h
  obtain ⟨_, _, sessionId, rfl, -, h⟩ := required_bind_eq_ok h
  obtain ⟨_, _, mode, rfl, -, h⟩ := required_bind_eq_ok h
  obtain ⟨_, _, set, rfl, hset, h⟩ := required_bind_eq_ok h
  obtain ⟨⟨⟩, rest₄, h₄, h⟩ := run_bind_eq_ok h
  rw [validateTargetSet_eq_ok h₄] at h
  dsimp only at h
  split at h
  · cases h
  obtain ⟨rfl, rfl⟩ := run_pure_eq_ok h
  refine ⟨rfl, fun set' hset' => ?_⟩
  cases hset'
  exact canonical_of_schemaIdSet hset

theorem readsFields_visitAnnounce : ReadsFields (visitAnnounce schemaIdText) := by
  intro rest message rest' h
  obtain ⟨_, _, protocolVersion, rfl, -, h⟩ := required_bind_eq_ok h
  obtain ⟨_, _, timestamp, rfl, -, h⟩ := required_bind_eq_ok h
  obtain ⟨_, _, set, rfl, hset, h⟩ := required_bind_eq_ok h
  obtain ⟨⟨⟩, rest₄, h₄, h⟩ := run_bind_eq_ok h
  rw [validateTargetSet_eq_ok h₄] at h
  obtain ⟨rfl, rfl⟩ := run_pure_eq_ok h
  refine ⟨rfl, fun set' hset' => ?_⟩
  cases hset'
  exact canonical_of_schemaIdSet hset

theorem readsFields_visitEntry : ReadsFields visitEntry := by
  intro rest message rest' h
  obtain ⟨_, _, sessionId, rfl, -, h⟩ := required_bind_eq_ok h
  obtain ⟨_, _, entry, rfl, -, h⟩ := required_bind_eq_ok h
  obtain ⟨operation, rest₃, h₃, h⟩ := run_bind_eq_ok h
  obtain ⟨rfl, rfl⟩ := run_pure_eq_ok h
  -- The operation is optional: the array may end before it.
  rcases nextElement_eq_ok h₃ with ⟨rfl, rfl, rfl⟩ | ⟨_, _, rfl, rfl, -⟩
  · exact ⟨rfl, fun _ h => by cases h⟩
  · exact ⟨rfl, fun _ h => by cases h⟩

theorem readsFields_visitHave : ReadsFields visitHave := by
  intro rest message rest' h
  obtain ⟨_, _, sessionId, rfl, -, h⟩ := required_bind_eq_ok h
  obtain ⟨_, _, heights, rfl, -, h⟩ := required_bind_eq_ok h
  obtain ⟨rfl, rfl⟩ := run_pure_eq_ok h
  exact ⟨rfl, fun _ h => by cases h⟩

theorem readsFields_visitFields (messageType : Nat) :
    ReadsFields (visitFields schemaIdText messageType) := by
  unfold visitFields
  split
  next => exact readsFields_visitAnnounce
  next => exact readsFields_visitSyncRequest
  next => exact readsFields_visitEntry
  next => exact readsFields_visitSyncDone
  next => exact readsFields_visitHave
  next =>
    intro _ _ _ h
    cases h

theorem deserialize_eq_ok {items : List Item} {message : PeerMessage}
    (h : PeerMessage.deserialize schemaIdText (.array items) = .ok message) :
    items.length = message.fieldCount + 1 ∧ message.TargetSetCanonical := by
  obtain ⟨items', rest, hitems, h⟩ := deserializeSeq_eq_ok h
  cases hitems
  obtain ⟨_, rest₁, messageType, rfl, -, h⟩ := required_bind_eq_ok h
  obtain ⟨message', rest₂, h₂, h⟩ := run_bind_eq_ok h
  obtain ⟨hint, rest₃, h₃, h⟩ := run_bind_eq_ok h
  cases h₃
  dsimp only at h
  -- The size hint of a definite-length array: the read succeeds only with no item left.
  split at h
  · cases h
  rename_i hleft
  obtain ⟨rfl, rfl⟩ := run_pure_eq_ok h
  obtain ⟨hcount, hcanonical⟩ := readsFields_visitFields messageType rest₁ message' rest₂ h₂
  refine ⟨?_, hcanonical⟩
  simp only [List.length_cons, hcount]
  omega

theorem targetSetCanonical_of_deserialize {item : Item} {message : PeerMessage}
    (h : PeerMessage.deserialize schemaIdText item = .ok message) : message.TargetSetCanonical := by
  obtain ⟨items, -, rfl, -⟩ := deserializeSeq_eq_ok h
  exact (deserialize_eq_ok h).2

/-- `visit_entry` reads the operation with `next_element`, so an entry of three items, the
operation left out, is accepted as an entry without operation. -/
theorem deserialize_entry_without_operation (sessionId : SessionId) (hex : String) :
    PeerMessage.deserialize schemaIdText (.array [.unsigned entryType, .unsigned sessionId, .bytes hex]) =
      .ok (.syncMessage ⟨sessionId, .entry ⟨hex⟩ none⟩) := rfl

end Decoded

variable [LinearOrder SchemaId]

theorem entry_without_operation_breaks_wire_round_trip :
    (∀ (schemaIdText : SchemaIdText) (message : PeerMessage), message.Sendable →
      message.TextRoundTrips schemaIdText → message.CarriesOperation →
      ∃ item, message.serialize schemaIdText = some item ∧
        PeerMessage.deserialize schemaIdText item = .ok message) ∧
    (∀ (schemaIdText : SchemaIdText) (sessionId : SessionId) (entry : EncodedEntry),
      (PeerMessage.syncMessage ⟨sessionId, .entry entry none⟩).Sendable ∧
      ∃ item, (PeerMessage.syncMessage ⟨sessionId, .entry entry none⟩).serialize schemaIdText =
          some item ∧ PeerMessage.deserialize schemaIdText item = .error (.invalidType .bytes)) ∧
    (∀ (schemaIdText : SchemaIdText) (item : Item) (message : PeerMessage),
      PeerMessage.deserialize schemaIdText item = .ok message → message.TargetSetCanonical) ∧
    (∀ (schemaIdText : SchemaIdText) (message : PeerMessage), message.Sendable →
      message.TextRoundTrips schemaIdText → message.CarriesOperation →
      ∀ extra : List Item, extra ≠ [] →
      ∃ items, message.serialize schemaIdText = some (.array items) ∧
        PeerMessage.deserialize schemaIdText (.array (items ++ extra)) =
          .error (.custom "too many fields for p2panda message")) ∧
    (∀ (schemaIdText : SchemaIdText) (items : List Item) (message : PeerMessage),
      PeerMessage.deserialize schemaIdText (.array items) = .ok message →
        items.length = message.fieldCount + 1) := by
  refine ⟨fun _ _ hsendable htext hoperation => deserialize_serialize hsendable htext hoperation,
    fun _ sessionId entry => ⟨trivial, deserialize_serialize_entry_without_operation sessionId entry⟩,
    fun _ _ _ h => targetSetCanonical_of_deserialize h,
    fun _ _ hsendable htext hoperation _ hextra =>
      deserialize_serialize_append hsendable htext hoperation hextra,
    fun _ _ _ h => (deserialize_eq_ok h).1⟩

end Aquadoggo.Replication
