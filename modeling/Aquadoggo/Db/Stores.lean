import Aquadoggo.Db.Tables
import Aquadoggo.Library.AssocList

/-! The read queries of `db/stores` that replication runs, each the meaning of its
SQL text: joins are list comprehensions, `WHERE` is a filter, `ORDER BY` a stable
merge sort and `DISTINCT` a deduplication. -/
namespace Aquadoggo

/-- `document_view_fields JOIN operation_fields_v1` on operation id and field name. -/
def Db.viewFieldRows (db : Db) : List (DocumentViewFieldRow × OperationFieldRow) :=
  db.documentViewFields.flatMap fun viewField =>
    (db.operationFields.filter fun field =>
      field.operationId == viewField.operationId && field.name == viewField.name).map
        fun field => (viewField, field)

/-- `get_entries_from`: the entries of one log from `seq_num` on, by sequence number. -/
def Db.getEntriesFrom (db : Db) (publicKey : PublicKey) (logId : LogId) (seqNum : SeqNum) :
    List EntryRow :=
  (db.entries.filter fun entry =>
    entry.publicKey == publicKey && entry.logId == logId && seqNum ≤ entry.seqNum).mergeSort
      fun a b => a.seqNum ≤ b.seqNum

/-- `get_entry_at_seq_num`: the entry of one log at a sequence number, as `fetch_optional`
returns the first row. -/
def Db.getEntryAtSeqNum (db : Db) (publicKey : PublicKey) (logId : LogId) (seqNum : SeqNum) :
    Option EntryRow :=
  db.entries.find? fun entry =>
    entry.publicKey == publicKey && entry.logId == logId && entry.seqNum == seqNum

/-- An entry found stays found when rows are appended. -/
theorem Db.getEntryAtSeqNum_append {db next : Db} {rows : List EntryRow}
    (hentries : next.entries = db.entries ++ rows) {publicKey : PublicKey} {logId : LogId}
    {seqNum : SeqNum} {row : EntryRow} (h : db.getEntryAtSeqNum publicKey logId seqNum = some row) :
    next.getEntryAtSeqNum publicKey logId seqNum = some row := by
  simp only [Db.getEntryAtSeqNum, hentries, List.find?_append] at h ⊢
  rw [h, Option.some_or]

/-- A row appended at a position where no entry was is the entry found there. -/
theorem Db.getEntryAtSeqNum_append_self {db next : Db} {row : EntryRow}
    (hentries : next.entries = db.entries ++ [row])
    (h : db.getEntryAtSeqNum row.publicKey row.logId row.seqNum = none) :
    next.getEntryAtSeqNum row.publicKey row.logId row.seqNum = some row := by
  simp only [Db.getEntryAtSeqNum, hentries, List.find?_append] at h ⊢
  simp [h]

/-- `get_operation`, reduced to the row of `operations_v1` it reads `document_id` and
`sorted_index` from. -/
def Db.getOperation (db : Db) (operationId : OperationId) : Option OperationRow :=
  db.operations.find? fun operation => operation.operationId == operationId

/-- Every stored entry has its operation stored: `insert_entry` and `insert_operation` run in
one transaction of `publish`. -/
def Db.OperationsStored (db : Db) : Prop :=
  ∀ row ∈ db.entries, (db.getOperation ⟨row.entryHash⟩).isSome

/-- Which rows a store holds decides it: its entries, and the ids of its operations. -/
theorem Db.operationsStored_iff {db : Db} : db.OperationsStored ↔
    ∀ row ∈ db.entries, (⟨row.entryHash⟩ : OperationId) ∈ db.operations.map (·.operationId) := by
  simp [Db.OperationsStored, Db.getOperation, List.find?_isSome]

/-- The rows of the `GROUP BY entries.public_key, entries.log_id` query with the
maximal sequence number of each log that holds operations of `documentIds`. -/
def Db.logHeightRows (db : Db) (documentIds : List DocumentId) : List (PublicKey × LogId × SeqNum) :=
  let joined := db.entries.filter fun entry =>
    db.logs.any fun log => log.logId == entry.logId && log.publicKey == entry.publicKey &&
      documentIds.contains log.document
  let logs := (joined.map fun entry => (entry.publicKey, entry.logId)).dedup
  let rows := logs.map fun (publicKey, logId) =>
    (publicKey, logId, (joined.filter fun entry =>
      entry.publicKey == publicKey && entry.logId == logId).foldl (fun m e => max m e.seqNum) 0)
  rows.mergeSort fun a b => decide (a.1.hex < b.1.hex) || (a.1 == b.1 && a.2.1 ≤ b.2.1)

/-- `get_document_log_heights`: the heights of all logs contributing to the documents. -/
def Db.getDocumentLogHeights (db : Db) (documentIds : List DocumentId) :
    List (PublicKey × List (LogId × SeqNum)) :=
  if documentIds.isEmpty then []
  else Library.groupByKey ((db.logHeightRows documentIds).map fun (publicKey, logId, seqNum) =>
    (publicKey, (logId, seqNum)))

/-- `get_all_document_ids_for_schema`; its `LEFT JOIN` filters nothing. -/
def Db.getAllDocumentIdsForSchema (db : Db) (schemaId : SchemaId) : List DocumentId :=
  (db.documents.filter fun document => document.schemaId == schemaId).map (·.documentId)

/-- `get_all_document_view_ids`: the materialized views of a document. -/
def Db.getAllDocumentViewIds (db : Db) (documentId : DocumentId) : List DocumentViewId :=
  (db.documentViews.filter fun view => view.documentId == documentId).map (·.documentViewId)

/-- `get_child_document_ids`: documents named by a relation value of the view, either by
one of their view ids or by their document id. -/
def Db.getChildDocumentIds (db : Db) (viewId : DocumentViewId) : List DocumentId :=
  let children := (db.viewFieldRows.filter fun (viewField, field) =>
    field.fieldType.isRelation && viewField.documentViewId == viewId).filterMap (·.2.value)
  if children.isEmpty then []
  else
    ((db.documentViews.filter fun view =>
      children.contains view.documentViewId.toString || children.contains view.documentId.hash).map
        (·.documentId)).dedup.mergeSort fun a b => decide (a.hash ≤ b.hash)

/-- `get_blob_child_relations`: blob documents with a view named by a relation value of
any view of the document. -/
def Db.getBlobChildRelations (db : Db) (documentId : DocumentId) : List DocumentId :=
  let values := (db.viewFieldRows.filter fun (viewField, field) =>
    field.fieldType.isRelation && db.documentViews.any fun view =>
      view.documentViewId == viewField.documentViewId && view.documentId == documentId).map
        (·.2.value)
  ((db.documentViews.filter fun view =>
    view.schemaId == .blob 1 && values.contains (some view.documentViewId.toString)).map
      (·.documentId)).dedup

end Aquadoggo
