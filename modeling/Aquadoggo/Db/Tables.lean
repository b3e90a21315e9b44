import Aquadoggo.Data.Types

/-! The SQL tables of the migrations, one row structure each. A table is the list
of its rows; an SQL query without `ORDER BY` may return them in any order, and
the theorems quantify over every list. Cascading deletes are spelled out by the
store functions that rely on them. -/
namespace Aquadoggo

structure EntryRow where
  publicKey : PublicKey
  entryBytes : String
  entryHash : String
  logId : LogId
  payloadBytes : Option String
  seqNum : SeqNum
deriving DecidableEq, Repr

structure LogRow where
  publicKey : PublicKey
  document : DocumentId
  logId : LogId
  schema : SchemaId
deriving DecidableEq, Repr

structure OperationRow where
  publicKey : PublicKey
  documentId : DocumentId
  operationId : OperationId
  action : OperationAction
  schemaId : SchemaId
  previous : Option DocumentViewId
  sortedIndex : Option Nat
deriving DecidableEq, Repr

/-- One row per field, and per item of a list field; an empty list is one row with
a `NULL` value. -/
structure OperationFieldRow where
  operationId : OperationId
  name : String
  fieldType : StoredFieldType
  value : Option String
  listIndex : Nat
  cursor : String
deriving DecidableEq, Repr

structure DocumentRow where
  documentId : DocumentId
  documentViewId : DocumentViewId
  schemaId : SchemaId
  isDeleted : Bool
deriving DecidableEq, Repr

structure DocumentViewRow where
  documentViewId : DocumentViewId
  schemaId : SchemaId
  documentId : DocumentId
deriving DecidableEq, Repr

structure DocumentViewFieldRow where
  documentViewId : DocumentViewId
  operationId : OperationId
  name : String
deriving DecidableEq, Repr

/-- The whole database of one node. -/
structure Db where
  entries : List EntryRow
  logs : List LogRow
  operations : List OperationRow
  operationFields : List OperationFieldRow
  documents : List DocumentRow
  documentViews : List DocumentViewRow
  documentViewFields : List DocumentViewFieldRow
deriving DecidableEq, Repr

def Db.empty : Db := ⟨[], [], [], [], [], [], []⟩

end Aquadoggo
