import Aquadoggo.Db.Stores
import Aquadoggo.Query.Cursor

/-! The write statements of `db/stores` that publishing, reducing and garbage collection
run, and the reads garbage collection guards them with. An `INSERT` appends its rows, an
`UPDATE` maps over its table and a `DELETE` filters it. The `ON DELETE CASCADE` of the
foreign keys is spelled out, since SQLite runs it inside the statement. -/
namespace Aquadoggo

/-- `OperationValue`, its scalars as the text the database keeps of them. -/
inductive OperationValue where
  | boolean (value : Bool)
  | integer (value : Int)
  | float (text : String)
  | string (value : String)
  | relation (document : DocumentId)
  | relationList (documents : List DocumentId)
  | pinnedRelation (view : DocumentViewId)
  | pinnedRelationList (views : List DocumentViewId)
  | bytes (hex : String)
deriving DecidableEq, Repr

def OperationValue.fieldType : OperationValue → StoredFieldType
  | .boolean _ => .bool
  | .integer _ => .int
  | .float _ => .float
  | .string _ => .str
  | .relation _ => .relation
  | .relationList _ => .relationList
  | .pinnedRelation _ => .pinnedRelation
  | .pinnedRelationList _ => .pinnedRelationList
  | .bytes _ => .bytes

/-- `parse_value_to_string_vec`: the text of each row of a field. A list has a row per item,
and an empty list one `NULL` row. -/
def OperationValue.toStrings : OperationValue → List (Option String)
  | .boolean value => [some (toString value)]
  | .integer value => [some (toString value)]
  | .float text => [some text]
  | .string value => [some value]
  | .relation document => [some document.hash]
  | .relationList [] => [none]
  | .relationList documents => documents.map fun document => some document.hash
  | .pinnedRelation view => [some view.toString]
  | .pinnedRelationList [] => [none]
  | .pinnedRelationList views => views.map fun view => some view.toString
  | .bytes hex => [some hex]

/-- What aquadoggo stores of a p2panda `Operation`. -/
structure Operation where
  action : OperationAction
  schemaId : SchemaId
  previous : Option DocumentViewId
  fields : List (String × OperationValue)
deriving DecidableEq, Repr

/-- The `cursor.to_string()` of `OperationCursor::new(index, name, id)`: p2panda hashes the
bytes of the text the three are formatted to. -/
def rowCursor (index : Nat) (name : String) (operationId : OperationId) : String :=
  (OperationCursor.new (fun text => Hash.newFromBytes text.toUTF8.toList) index name
    operationId).value

/-- The `operation_fields_v1` rows of an operation. -/
def fieldRows (operationId : OperationId) (fields : List (String × OperationValue)) :
    List OperationFieldRow :=
  fields.flatMap fun (name, value) =>
    value.toStrings.zipIdx.map fun (text, index) =>
      ⟨operationId, name, value.fieldType, text, index, rowCursor index name operationId⟩

/-- `insert_entry`. -/
def Db.insertEntry (db : Db) (entry : EntryRow) : Db :=
  { db with entries := db.entries ++ [entry] }

/-- `insert_log`: `ON CONFLICT DO NOTHING` on the unique `(public_key, log_id)`. -/
def Db.insertLog (db : Db) (log : LogRow) : Db :=
  if db.logs.any fun row => row.publicKey == log.publicKey && row.logId == log.logId then db
  else { db with logs := db.logs ++ [log] }

/-- `insert_operation`: the row, with no sorted index before materialization, and its
field rows. -/
def Db.insertOperation (db : Db) (operationId : OperationId) (publicKey : PublicKey)
    (operation : Operation) (documentId : DocumentId) : Db :=
  { db with
    operations := db.operations ++
      [⟨publicKey, documentId, operationId, operation.action, operation.schemaId,
        operation.previous, none⟩]
    operationFields := db.operationFields ++ fieldRows operationId operation.fields }

/-- `update_operation_index`. -/
def Db.updateOperationIndex (db : Db) (operationId : OperationId) (index : Nat) : Db :=
  { db with
    operations := db.operations.map fun op =>
      if op.operationId = operationId then { op with sortedIndex := some index } else op }

/-- The loop of `reduce_document` over the operations in the order `DocumentBuilder` sorted
them. -/
def Db.indexOperations (db : Db) (sorted : List OperationId) : Db :=
  sorted.zipIdx.foldl (fun db (operationId, index) => db.updateOperationIndex operationId index) db

/-- What `insert_document` reads of the document `DocumentBuilder` built: its current view,
and the operation that last set each field of it. -/
structure Document where
  id : DocumentId
  viewId : DocumentViewId
  schemaId : SchemaId
  isDeleted : Bool
  fields : List (String × OperationId)
deriving DecidableEq, Repr

/-- `get_document_by_view_id(..).is_some()`: the view row is stored. -/
def Db.documentViewExists (db : Db) (viewId : DocumentViewId) : Bool :=
  db.documentViews.any fun view => view.documentViewId == viewId

/-- `insert_document_view`: the view row, `ON CONFLICT DO NOTHING`, and a field row per
field, inserted either way. -/
def Db.insertDocumentView (db : Db) (viewId : DocumentViewId) (documentId : DocumentId)
    (schemaId : SchemaId) (fields : List (String × OperationId)) : Db :=
  { db with
    documentViews :=
      if db.documentViewExists viewId then db.documentViews
      else db.documentViews ++ [⟨viewId, schemaId, documentId⟩]
    documentViewFields := db.documentViewFields ++
      fields.map fun (name, operationId) => ⟨viewId, operationId, name⟩ }

/-- `insert_document`: the upsert of the document row, then the view unless the document is
deleted. -/
def Db.insertDocument (db : Db) (document : Document) : Db :=
  let documents :=
    if db.documents.any fun row => row.documentId == document.id then
      db.documents.map fun row =>
        if row.documentId = document.id then
          { row with documentViewId := document.viewId, isDeleted := document.isDeleted }
        else row
    else db.documents ++ [⟨document.id, document.viewId, document.schemaId, document.isDeleted⟩]
  let db := { db with documents }
  if document.isDeleted then db
  else db.insertDocumentView document.viewId document.id document.schemaId document.fields

/-- `is_current_view`: some document has the view as its current view. -/
def Db.isCurrentView (db : Db) (viewId : DocumentViewId) : Bool :=
  db.documents.any fun document => document.documentViewId == viewId

/-- Some field of a stored view pins the view: the first `NOT EXISTS` of
`prune_document_view`. -/
def Db.isPinned (db : Db) (viewId : DocumentViewId) : Bool :=
  db.viewFieldRows.any fun (_, field) =>
    field.fieldType.isPinned && field.value == some viewId.toString

/-- `prune_document_view`: one `DELETE` of the view row, cascading to its field rows, that
goes ahead only when no field pins the view and it is no document's current view. It says
whether a row went. -/
def Db.pruneDocumentView (db : Db) (viewId : DocumentViewId) : Db × Bool :=
  if db.documentViewExists viewId && !db.isPinned viewId && !db.isCurrentView viewId then
    ({ db with
      documentViews := db.documentViews.filter fun view => view.documentViewId != viewId
      documentViewFields := db.documentViewFields.filter fun field =>
        field.documentViewId != viewId }, true)
  else (db, false)

/-- `purge_document`: one transaction deleting the document row (cascading to its views and
their fields), the entries of its operations, and its operations (cascading to their
fields). The logs stay. -/
def Db.purgeDocument (db : Db) (documentId : DocumentId) : Db :=
  let operationIds := (db.operations.filter fun op => op.documentId == documentId).map
    (·.operationId)
  let viewIds := db.getAllDocumentViewIds documentId
  { db with
    documents := db.documents.filter fun document => document.documentId != documentId
    documentViews := db.documentViews.filter fun view => view.documentId != documentId
    documentViewFields := db.documentViewFields.filter fun field =>
      !viewIds.contains field.documentViewId
    entries := db.entries.filter fun entry => !operationIds.contains ⟨entry.entryHash⟩
    operations := db.operations.filter fun op => op.documentId != documentId
    operationFields := db.operationFields.filter fun field =>
      !operationIds.contains field.operationId }

/-- `reverse_relations`: views with a relation field whose value is a stored view of the
document (of views of `schemaId`, when one is given), or with any field whose value is the
document id. The `OR` binds weaker than the `AND`s before it. -/
def Db.reverseRelations (db : Db) (documentId : DocumentId) (schemaId : Option SchemaId) :
    List DocumentViewId :=
  let viewIds := db.getAllDocumentViewIds documentId
  (db.viewFieldRows.filter fun (viewField, field) =>
    (field.fieldType.isRelation &&
        schemaId.all (fun schemaId => db.documentViews.any fun view =>
          view.documentViewId == viewField.documentViewId && view.schemaId == schemaId) &&
        viewIds.any fun viewId => field.value == some viewId.toString) ||
      field.value == some documentId.hash).map (·.1.documentViewId)

/-- The `pieces` values of the operations of a blob, as `purge_blob` selects them. -/
def Db.blobPieceIds (db : Db) (documentId : DocumentId) : List String :=
  (db.operationFields.filter fun field => field.name == "pieces" &&
    db.operations.any fun op =>
      op.operationId == field.operationId && op.documentId == documentId).filterMap (·.value)

@[simp] theorem Db.insertEntry_operations (db : Db) (entry : EntryRow) :
    (db.insertEntry entry).operations = db.operations := rfl

@[simp] theorem Db.insertLog_operations (db : Db) (log : LogRow) :
    (db.insertLog log).operations = db.operations := by
  unfold Db.insertLog
  split <;> rfl

@[simp] theorem Db.insertLog_entries (db : Db) (log : LogRow) :
    (db.insertLog log).entries = db.entries := by
  unfold Db.insertLog
  split <;> rfl

@[simp] theorem Db.insertEntry_entries (db : Db) (entry : EntryRow) :
    (db.insertEntry entry).entries = db.entries ++ [entry] := rfl

@[simp] theorem Db.insertOperation_entries (db : Db) (operationId : OperationId)
    (publicKey : PublicKey) (operation : Operation) (documentId : DocumentId) :
    (db.insertOperation operationId publicKey operation documentId).entries = db.entries := rfl

@[simp] theorem Db.insertOperation_operations (db : Db) (operationId : OperationId)
    (publicKey : PublicKey) (operation : Operation) (documentId : DocumentId) :
    (db.insertOperation operationId publicKey operation documentId).operations =
      db.operations ++ [⟨publicKey, documentId, operationId, operation.action, operation.schemaId,
        operation.previous, none⟩] := rfl

@[simp] theorem Db.insertDocumentView_operations (db : Db) (viewId : DocumentViewId)
    (documentId : DocumentId) (schemaId : SchemaId) (fields : List (String × OperationId)) :
    (db.insertDocumentView viewId documentId schemaId fields).operations = db.operations := rfl

@[simp] theorem Db.insertDocument_operations (db : Db) (document : Document) :
    (db.insertDocument document).operations = db.operations := by
  cases h : document.isDeleted <;> simp [Db.insertDocument, h]

@[simp] theorem Db.insertDocument_entries (db : Db) (document : Document) :
    (db.insertDocument document).entries = db.entries := by
  cases h : document.isDeleted <;> simp [Db.insertDocument, Db.insertDocumentView, h]

/-- The loop of `reduce_document` over any positions writes sorted indexes only. -/
theorem Db.foldl_updateOperationIndex (positions : List (OperationId × Nat)) (db : Db) :
    let next := positions.foldl (fun db (operationId, index) => db.updateOperationIndex
      operationId index) db
    next.entries = db.entries ∧
      next.operations.map (·.operationId) = db.operations.map (·.operationId) := by
  induction positions generalizing db with
  | nil => exact ⟨rfl, rfl⟩
  | cons position rest ih =>
    obtain ⟨hentries, hids⟩ := ih (db.updateOperationIndex position.1 position.2)
    refine ⟨hentries, hids.trans ?_⟩
    simp only [Db.updateOperationIndex, List.map_map]
    refine List.map_congr_left fun op _ => ?_
    simp only [Function.comp_apply]
    split <;> rfl

end Aquadoggo
