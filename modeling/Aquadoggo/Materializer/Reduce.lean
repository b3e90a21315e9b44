import Mathlib.Data.List.Nodup
import Mathlib.Data.List.Perm.Basic
import Aquadoggo.Db.Writes
import Aquadoggo.Library.Transition

/-! Publishing and reducing, the two ways a store's operations change. `publish` (of
p2panda, on aquadoggo's stores) adds an operation that names stored operations of its
document in its `previous`; `reduce_document` writes the position of each operation in the
order `DocumentBuilder` sorts the document's operations. What the store then keeps: unique
operation ids, `previous` closed within a document, and sorted indexes that follow the
operation graph. -/
namespace Aquadoggo

open Library

/-- The operations named in the `previous` of an operation. -/
def Operation.previousIds (operation : Operation) : List OperationId :=
  (operation.previous.map (·.operations)).getD []

def OperationRow.previousIds (op : OperationRow) : List OperationId :=
  (op.previous.map (·.operations)).getD []

/-- `get_operations_by_document_id`. -/
def Db.getOperationsByDocumentId (db : Db) (documentId : DocumentId) : List OperationRow :=
  db.operations.filter fun op => op.documentId == documentId

/-- What `DocumentBuilder` promises of its order: every operation of the document once, each
after the operations in its `previous`. -/
def TopologicalOrder (ops : List OperationRow) (sorted : List OperationId) : Prop :=
  sorted.Perm (ops.map (·.operationId)) ∧
    ∀ op ∈ ops, ∀ previous ∈ op.previousIds, sorted.idxOf previous < sorted.idxOf op.operationId

instance (ops : List OperationRow) (sorted : List OperationId) :
    Decidable (TopologicalOrder ops sorted) :=
  inferInstanceAs (Decidable (_ ∧ _))

/-- The checks of p2panda's `publish` that the store relies on: a fresh operation id, the
next sequence number of the log, a log of one document, and a `previous` of stored
operations of the document, given exactly when the operation is no `create`. A `create`
names its document. -/
@[mk_iff]
structure Publishable (db : Db) (entry : EntryRow) (operation : Operation)
    (documentId : DocumentId) : Prop where
  payload : entry.payloadBytes.isSome
  fresh : ∀ op ∈ db.operations, op.operationId ≠ ⟨entry.entryHash⟩
  seqNum : entry.seqNum = (db.entries.filter fun e =>
    e.publicKey == entry.publicKey && e.logId == entry.logId).length + 1
  log : ∀ log ∈ db.logs, log.publicKey = entry.publicKey → log.logId = entry.logId →
    log.document = documentId
  create : operation.action = .create ↔ operation.previous = none
  createId : operation.action = .create → documentId = ⟨entry.entryHash⟩
  previous : ∀ previousId ∈ operation.previousIds,
    ∃ op ∈ db.operations, op.operationId = previousId ∧ op.documentId = documentId

/-- What the store relies on of `DocumentBuilder::build`: the document's operations in an
order that follows the graph, and a view, fields, schema and deletion read off them. -/
@[mk_iff]
structure Built (db : Db) (document : Document) (sorted : List OperationId) : Prop where
  order : TopologicalOrder (db.getOperationsByDocumentId document.id) sorted
  view : ∀ operationId ∈ document.viewId.operations, operationId ∈ sorted
  fields : ∀ field ∈ document.fields, field.2 ∈ sorted
  schema : ∀ op ∈ db.getOperationsByDocumentId document.id, op.schemaId = document.schemaId
  deleted : document.isDeleted = (db.getOperationsByDocumentId document.id).any
    (·.action == .delete)

instance (db : Db) (entry : EntryRow) (operation : Operation) (documentId : DocumentId) :
    Decidable (Publishable db entry operation documentId) :=
  decidable_of_iff _ (publishable_iff db entry operation documentId).symm

instance (db : Db) (document : Document) (sorted : List OperationId) :
    Decidable (Built db document sorted) :=
  decidable_of_iff _ (built_iff db document sorted).symm

/-- `publish`: the log of the entry (kept when it exists), the entry and the operation. -/
def Db.publish (db : Db) (entry : EntryRow) (operation : Operation) (documentId : DocumentId) :
    Db :=
  ((db.insertLog ⟨entry.publicKey, documentId, entry.logId, operation.schemaId⟩).insertEntry
    entry).insertOperation ⟨entry.entryHash⟩ entry.publicKey operation documentId

/-- `reduce_document`, given what `DocumentBuilder` built: nothing when its view is already
stored, otherwise the sorted indexes and then the document. -/
def Db.reduceDocument (db : Db) (document : Document) (sorted : List OperationId) : Db :=
  if db.documentViewExists document.viewId then db
  else (db.indexOperations sorted).insertDocument document

inductive StoreEvent where
  | publish (entry : EntryRow) (operation : Operation) (documentId : DocumentId)
  | reduce (document : Document) (sorted : List OperationId)
deriving DecidableEq, Repr

/-- What an event writes, its checks apart. -/
def Db.apply (db : Db) : StoreEvent → Db
  | .publish entry operation documentId => db.publish entry operation documentId
  | .reduce document sorted => db.reduceDocument document sorted

namespace Db

inductive Step : Db → StoreEvent → Db → Prop where
  | publish {db : Db} {entry : EntryRow} {operation : Operation} {documentId : DocumentId}
      (h : Publishable db entry operation documentId) :
      Step db (.publish entry operation documentId) (db.publish entry operation documentId)
  | reduce {db : Db} {document : Document} {sorted : List OperationId}
      (h : Built db document sorted) :
      Step db (.reduce document sorted) (db.reduceDocument document sorted)

/-- What publishing and reducing keep of the operations table. -/
structure Consistent (ops : List OperationRow) : Prop where
  ids_nodup : (ops.map (·.operationId)).Nodup
  previous_stored : ∀ op ∈ ops, ∀ previousId ∈ op.previousIds,
    ∃ previous ∈ ops, previous.operationId = previousId ∧ previous.documentId = op.documentId
  previous_indexed : ∀ op ∈ ops, ∀ previous ∈ ops,
    previous.operationId ∈ op.previousIds → ∀ index, op.sortedIndex = some index →
      ∃ previousIndex, previous.sortedIndex = some previousIndex ∧ previousIndex < index

theorem consistent_empty : Consistent empty.operations :=
  ⟨List.nodup_nil, by simp [empty], by simp [empty]⟩

section Consistent

variable {db : Db} (h : Consistent db.operations)
include h

theorem Consistent.eq_of_operationId_eq {a b : OperationRow} (ha : a ∈ db.operations)
    (hb : b ∈ db.operations) (hid : a.operationId = b.operationId) : a = b :=
  List.inj_on_of_nodup_map h.ids_nodup ha hb hid

/-- An operation named in a `previous` belongs to the same document. -/
theorem Consistent.previous_documentId {op previous : OperationRow} (hop : op ∈ db.operations)
    (hprevious : previous ∈ db.operations) (hmem : previous.operationId ∈ op.previousIds) :
    previous.documentId = op.documentId := by
  obtain ⟨stored, hstored, hid, hdoc⟩ := h.previous_stored op hop _ hmem
  rw [← h.eq_of_operationId_eq hstored hprevious hid, hdoc]

/-- The order of a document names exactly the stored operations of that document. -/
theorem Consistent.mem_sorted_iff {documentId : DocumentId} {sorted : List OperationId}
    (hsorted : TopologicalOrder (db.getOperationsByDocumentId documentId) sorted)
    {op : OperationRow} (hop : op ∈ db.operations) :
    op.operationId ∈ sorted ↔ op.documentId = documentId := by
  rw [hsorted.1.mem_iff, List.mem_map]
  constructor
  · rintro ⟨other, hother, hid⟩
    have hother' := List.mem_filter.mp hother
    rw [← h.eq_of_operationId_eq hother'.1 hop hid]
    simpa using hother'.2
  · intro hdoc
    exact ⟨op, List.mem_filter.mpr ⟨hop, by simpa using hdoc⟩, rfl⟩

end Consistent

/-- The row of an operation after the loop of `reduce_document`. -/
def indexOperation (sorted : List OperationId) (op : OperationRow) : OperationRow :=
  if op.operationId ∈ sorted then { op with sortedIndex := some (sorted.idxOf op.operationId) }
  else op

@[simp] theorem indexOperation_operationId (sorted : List OperationId) (op : OperationRow) :
    (indexOperation sorted op).operationId = op.operationId := by
  unfold indexOperation
  split <;> rfl

@[simp] theorem indexOperation_documentId (sorted : List OperationId) (op : OperationRow) :
    (indexOperation sorted op).documentId = op.documentId := by
  unfold indexOperation
  split <;> rfl

@[simp] theorem indexOperation_previousIds (sorted : List OperationId) (op : OperationRow) :
    (indexOperation sorted op).previousIds = op.previousIds := by
  unfold indexOperation
  split <;> rfl

/-- The loop from position `n` on writes each operation's position plus `n`. -/
theorem foldl_updateOperationIndex_operations {sorted : List OperationId} (hnodup : sorted.Nodup)
    (db : Db) (n : Nat) :
    ((sorted.zipIdx n).foldl (fun db (operationId, index) => db.updateOperationIndex operationId
      index) db).operations = db.operations.map fun op =>
        if op.operationId ∈ sorted then
          { op with sortedIndex := some (sorted.idxOf op.operationId + n) }
        else op := by
  induction sorted generalizing db n with
  | nil => simp
  | cons first rest ih =>
    obtain ⟨hfirst, hrest⟩ := List.nodup_cons.mp hnodup
    rw [List.zipIdx_cons, List.foldl_cons, ih hrest]
    simp only [updateOperationIndex, List.map_map]
    apply List.map_congr_left
    intro op _
    by_cases hop : op.operationId = first
    · simp [hop, hfirst]
    · have hne : (first == op.operationId) = false := beq_false_of_ne (Ne.symm hop)
      simp only [Function.comp, hop, if_false, List.mem_cons, false_or, List.idxOf_cons, hne,
        cond_false]
      split <;> simp only [Nat.add_right_comm, Nat.add_assoc]

theorem indexOperations_operations {sorted : List OperationId} (hnodup : sorted.Nodup) (db : Db) :
    (db.indexOperations sorted).operations = db.operations.map (indexOperation sorted) := by
  have hloop := foldl_updateOperationIndex_operations hnodup db 0
  simp only [Nat.add_zero] at hloop
  exact hloop

theorem consistent_publish {db : Db} {entry : EntryRow} {operation : Operation}
    {documentId : DocumentId} (hpublish : Publishable db entry operation documentId)
    (h : Consistent db.operations) : Consistent (db.publish entry operation documentId).operations := by
  have hops : (db.publish entry operation documentId).operations = db.operations ++
      [⟨entry.publicKey, documentId, ⟨entry.entryHash⟩, operation.action, operation.schemaId,
        operation.previous, none⟩] := by
    simp [publish]
  refine ⟨?_, ?_, ?_⟩
  · rw [hops, List.map_append, List.nodup_append]
    refine ⟨h.ids_nodup, List.nodup_singleton _, ?_⟩
    rintro _ hmem _ hnew rfl
    obtain ⟨op, hop, hid⟩ := List.mem_map.mp hmem
    exact hpublish.fresh op hop (by simpa [hid] using hnew)
  · rw [hops]
    intro op hop previousId hprevious
    rcases List.mem_append.mp hop with hold | hnew
    · obtain ⟨previous, hmem, hid, hdoc⟩ := h.previous_stored op hold previousId hprevious
      exact ⟨previous, List.mem_append_left _ hmem, hid, hdoc⟩
    · obtain rfl := List.mem_singleton.mp hnew
      obtain ⟨previous, hmem, hid, hdoc⟩ := hpublish.previous previousId hprevious
      exact ⟨previous, List.mem_append_left _ hmem, hid, hdoc⟩
  · rw [hops]
    intro op hop previous hprevious hmem index hindex
    rcases List.mem_append.mp hop with hold | hnew
    · rcases List.mem_append.mp hprevious with hprevious | hnew
      · exact h.previous_indexed op hold previous hprevious hmem index hindex
      -- The new operation is named by no stored operation: its id is fresh.
      · obtain rfl := List.mem_singleton.mp hnew
        obtain ⟨stored, hstored, hid, -⟩ := h.previous_stored op hold _ hmem
        exact absurd hid (hpublish.fresh stored hstored)
    · obtain rfl := List.mem_singleton.mp hnew
      simp at hindex

theorem consistent_reduceDocument {db : Db} {document : Document} {sorted : List OperationId}
    (hbuilt : Built db document sorted) (h : Consistent db.operations) :
    Consistent (db.reduceDocument document sorted).operations := by
  unfold reduceDocument
  split
  · exact h
  have hnodup : sorted.Nodup := hbuilt.order.1.nodup_iff.mpr
    (h.ids_nodup.sublist ((List.filter_sublist).map _))
  have hops := indexOperations_operations hnodup db
  rw [insertDocument_operations, hops]
  refine ⟨?_, ?_, ?_⟩
  · simpa [List.map_map, Function.comp_def] using h.ids_nodup
  · simp only [List.mem_map, forall_exists_index, and_imp, forall_apply_eq_imp_iff₂,
      indexOperation_previousIds, indexOperation_documentId]
    intro op hop previousId hprevious
    obtain ⟨previous, hmem, hid, hdoc⟩ := h.previous_stored op hop previousId hprevious
    exact ⟨_, ⟨previous, hmem, rfl⟩, by simpa using hid, by simpa using hdoc⟩
  · simp only [List.mem_map, forall_exists_index, and_imp, forall_apply_eq_imp_iff₂,
      indexOperation_previousIds, indexOperation_operationId]
    intro op hop previous hprevious hmem index hindex
    have hdoc := h.previous_documentId hop hprevious hmem
    by_cases hsorted : op.operationId ∈ sorted
    -- Both operations belong to the reduced document and take their positions in the order.
    · have hopDoc := (h.mem_sorted_iff hbuilt.order hop).mp hsorted
      have hpreviousSorted := (h.mem_sorted_iff hbuilt.order hprevious).mpr (hdoc.trans hopDoc)
      simp only [indexOperation, hsorted, hpreviousSorted, if_true, Option.some.injEq,
        exists_eq_left'] at hindex ⊢
      rw [← hindex]
      exact hbuilt.order.2 op (List.mem_filter.mpr ⟨hop, by simpa using hopDoc⟩) _ hmem
    -- Neither belongs to it, and both keep their indexes.
    · have hpreviousSorted : previous.operationId ∉ sorted := by
        rw [h.mem_sorted_iff hbuilt.order hprevious, hdoc,
          ← h.mem_sorted_iff hbuilt.order hop]
        exact hsorted
      simp only [indexOperation, hsorted, hpreviousSorted, if_false] at hindex ⊢
      exact h.previous_indexed op hop previous hprevious hmem index hindex

theorem consistent_step {db next : Db} {event : StoreEvent} (hstep : Step db event next)
    (h : Consistent db.operations) : Consistent next.operations := by
  cases hstep with
  | publish hpublish => exact consistent_publish hpublish h
  | reduce hbuilt => exact consistent_reduceDocument hbuilt h

theorem consistent_of_run {events : List StoreEvent} {db : Db} (run : Run Step empty events db) :
    Consistent db.operations :=
  run.invariant (fun db => Consistent db.operations) (fun _ _ _ h hstep => consistent_step hstep h)
    consistent_empty

/-- `publish` stores the entry with its operation, and `reduce_document` only writes sorted
indexes and documents: every stored entry keeps its operation. -/
theorem operationsStored_step {db next : Db} {event : StoreEvent} (hstep : Step db event next)
    (h : db.OperationsStored) : next.OperationsStored := by
  rw [operationsStored_iff] at h ⊢
  cases hstep with
  | @publish entry operation documentId =>
    intro row hrow
    simp only [publish, insertOperation_entries, insertEntry_entries, insertLog_entries] at hrow
    simp only [publish, insertOperation_operations, insertEntry_operations, insertLog_operations,
      List.map_append, List.map_cons, List.map_nil]
    rcases List.mem_append.mp hrow with hold | hnew
    · exact List.mem_append_left _ (h row hold)
    · rw [List.mem_singleton.mp hnew]
      exact List.mem_append_right _ (List.mem_singleton_self _)
  | @reduce document sorted =>
    unfold reduceDocument
    split
    · exact h
    · obtain ⟨hentries, hids⟩ := foldl_updateOperationIndex sorted.zipIdx db
      simp only [insertDocument_entries, insertDocument_operations, indexOperations]
      rw [hentries, hids]
      exact h

theorem operationsStored_of_run {events : List StoreEvent} {db : Db} (run : Run Step empty events db) :
    db.OperationsStored :=
  run.invariant (fun db => db.OperationsStored) (fun _ _ _ h hstep => operationsStored_step hstep h)
    (fun _ h => absurd h List.not_mem_nil)

end Db

end Aquadoggo
