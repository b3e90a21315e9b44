import Mathlib.Data.List.Basic
import Aquadoggo.Library.Text
import Aquadoggo.Library.Blake3

/-! The p2panda data types aquadoggo stores and sends. Hashes, keys and ids are
their canonical text, since that is what the database compares; sequence
numbers and log ids are their `u64` values. -/
namespace Aquadoggo

/-- Hex encoding of an author's ed25519 public key. -/
structure PublicKey where
  hex : String
deriving DecidableEq, Repr

abbrev LogId := Nat
abbrev SeqNum := Nat

/-- Hash of the entry that carries an operation. -/
structure OperationId where
  hash : String
deriving DecidableEq, Repr

/-- A document is named by the id of its `create` operation. -/
structure DocumentId where
  hash : String
deriving DecidableEq, Repr

/-- The graph tips a document view is reduced to. -/
structure DocumentViewId where
  operations : List OperationId
deriving DecidableEq, Repr

/-- `Display` of a view id: the operation ids joined by underscores. -/
def DocumentViewId.toString (viewId : DocumentViewId) : String :=
  "_".intercalate (viewId.operations.map OperationId.hash)

/-- The text of a p2panda hash: the hex of a 34-byte YASMF blake3 hash, whose first two bytes
are `0020`. -/
def HashHex (text : String) : Prop :=
  text.length = 68 ∧ text.toList.take 4 = "0020".toList ∧ ∀ c ∈ text.toList, c.isHexDigit

/-- p2panda's `Hash::new_from_bytes(..).as_str()`: the hex of the YASMF encoding of the BLAKE3
digest, the type byte `00` and the length byte `20` before the 32 bytes. -/
def Hash.newFromBytes (bytes : List UInt8) : String :=
  "0020" ++ Library.hex (Library.Blake3.hash bytes)

/-- `DocumentViewId::from_str`: the operation ids between the underscores. -/
def DocumentViewId.fromStr (text : String) : DocumentViewId :=
  ⟨(text.toList.splitOn '_').map fun hash => ⟨String.ofList hash⟩⟩

/-- What p2panda guarantees of a view id: some operation ids, none with an underscore (they
are hex hashes). -/
def DocumentViewId.Valid (viewId : DocumentViewId) : Prop :=
  viewId.operations ≠ [] ∧ ∀ operationId ∈ viewId.operations, '_' ∉ operationId.hash.toList

instance (viewId : DocumentViewId) : Decidable viewId.Valid :=
  inferInstanceAs (Decidable (_ ∧ _))

theorem DocumentViewId.fromStr_toString {viewId : DocumentViewId} (h : viewId.Valid) :
    DocumentViewId.fromStr viewId.toString = viewId := by
  obtain ⟨operations⟩ := viewId
  obtain ⟨hne, hhashes⟩ := h
  have hsep : ∀ hash ∈ operations.map OperationId.hash, '_' ∉ hash.toList := by
    intro hash hmem
    obtain ⟨operationId, hop, rfl⟩ := List.mem_map.mp hmem
    exact hhashes operationId hop
  have hsplit := Library.Text.splitOn_intercalate '_' _ hsep (by simpa using hne)
  unfold fromStr DocumentViewId.toString
  rw [show "_" = String.singleton '_' from rfl]
  congr 1
  calc ((String.intercalate (String.singleton '_') (operations.map OperationId.hash)).toList.splitOn
          '_').map (fun hash => (⟨String.ofList hash⟩ : OperationId))
      = (((String.intercalate (String.singleton '_') (operations.map OperationId.hash)).toList.splitOn
          '_').map String.ofList).map OperationId.mk := by simp
    _ = operations := by
      rw [hsplit, List.map_map]
      exact List.map_id'' (fun _ => rfl) operations

/-- What p2panda-rs guarantees of every `DocumentViewId`: at least one operation id, each a
hash, sorted and without duplicates. -/
structure DocumentViewId.Canonical (viewId : DocumentViewId) : Prop where
  nonempty : viewId.operations ≠ []
  hashes : ∀ operation ∈ viewId.operations, HashHex operation.hash
  sorted : (viewId.operations.map (·.hash)).Pairwise (· < ·)

/-- A canonical view id is valid: hex hashes hold no underscore. -/
theorem DocumentViewId.Canonical.valid {viewId : DocumentViewId} (h : viewId.Canonical) :
    viewId.Valid := by
  refine ⟨h.nonempty, fun operationId hop hunderscore => ?_⟩
  exact absurd ((h.hashes operationId hop).2.2 _ hunderscore) (by decide)

/-- Parsing a stored document id as a view id of that single operation. -/
def DocumentId.asViewId (documentId : DocumentId) : DocumentViewId :=
  ⟨[⟨documentId.hash⟩]⟩

inductive SchemaId where
  | application (name : String) (viewId : DocumentViewId)
  | schemaDefinition (version : Nat)
  | schemaFieldDefinition (version : Nat)
  | blob (version : Nat)
  | blobPiece (version : Nat)
deriving DecidableEq, Repr

inductive FieldType where
  | boolean
  | integer
  | float
  | string
  | bytes
  | relation (schema : SchemaId)
  | relationList (schema : SchemaId)
  | pinnedRelation (schema : SchemaId)
  | pinnedRelationList (schema : SchemaId)
deriving DecidableEq, Repr

/-- The `field_type` column: a field type without its target schema. -/
inductive StoredFieldType where
  | bool | int | float | str | bytes
  | relation | relationList | pinnedRelation | pinnedRelationList
deriving DecidableEq, Repr

def FieldType.stored : FieldType → StoredFieldType
  | .boolean => .bool
  | .integer => .int
  | .float => .float
  | .string => .str
  | .bytes => .bytes
  | .relation _ => .relation
  | .relationList _ => .relationList
  | .pinnedRelation _ => .pinnedRelation
  | .pinnedRelationList _ => .pinnedRelationList

/-- The four relation kinds, the `IN (...)` list several queries test against. -/
def StoredFieldType.isRelation : StoredFieldType → Bool
  | .relation | .relationList | .pinnedRelation | .pinnedRelationList => true
  | _ => false

def StoredFieldType.isPinned : StoredFieldType → Bool
  | .pinnedRelation | .pinnedRelationList => true
  | _ => false

structure Schema where
  id : SchemaId
  fields : List (String × FieldType)
deriving DecidableEq, Repr

inductive OperationAction where
  | create | update | delete
deriving DecidableEq, Repr

end Aquadoggo
