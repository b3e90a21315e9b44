import Aquadoggo.Materializer.Reduce

/-! `garbage_collection_task`, one SQL statement or transaction a step, with the publish and
reduce steps of the other pools in between. Each step is atomic; nothing holds between two
steps of one task. `prune_document_view` checks what it needs in its own `DELETE`, while
`purge_blob` checks with `reverse_relations` and deletes in a later transaction. -/
namespace Aquadoggo.Materializer

open Library

/-- Some stored view holds a relation value naming the document or a stored view of it. -/
def Referenced (db : Db) (documentId : DocumentId) : Prop :=
  ∃ row ∈ db.viewFieldRows, row.2.fieldType.isRelation = true ∧
    (row.2.value = some documentId.hash ∨
      ∃ viewId ∈ db.getAllDocumentViewIds documentId, row.2.value = some viewId.toString)

instance (db : Db) (documentId : DocumentId) : Decidable (Referenced db documentId) :=
  inferInstanceAs (Decidable (∃ row ∈ _, _))

/-- `DocumentId::from_str` on a stored view id: it parses when the view is one operation. -/
def parseDocumentId (text : String) : Option DocumentId :=
  if '_' ∈ text.toList then none else some ⟨text⟩

/-- Where a garbage collection task stands between two of its statements. -/
inductive GcTask where
  /-- Before `get_all_document_view_ids`. -/
  | start (documentId : DocumentId)
  /-- In the loop over the views, before `is_current_view` of the next one; after the loop,
  before `get_operation` of the document. -/
  | views (documentId : DocumentId) (pending remaining : List DocumentViewId)
      (effected : List DocumentId)
  /-- Before `get_child_document_ids` of a view that is not current. -/
  | children (documentId : DocumentId) (viewId : DocumentViewId)
      (pending remaining : List DocumentViewId) (effected : List DocumentId)
  /-- Before `prune_document_view`. -/
  | pruning (documentId : DocumentId) (viewId : DocumentViewId)
      (pending remaining : List DocumentViewId) (effected childIds : List DocumentId)
  /-- Before the `reverse_relations` of `purge_blob`. -/
  | purgeBlob (documentId : DocumentId) (effected : List DocumentId)
  /-- The blob is unreferenced: before the query of its `pieces`. -/
  | blobPieces (documentId : DocumentId) (effected : List DocumentId)
  /-- Before `purge_document` of the blob. -/
  | purgeDocument (documentId : DocumentId) (pieceIds : List String)
      (effected : List DocumentId)
  /-- In the loop over the pieces, before `reverse_relations` of one. -/
  | piece (pieceId : DocumentId) (pieceIds : List String) (effected : List DocumentId)
  /-- Before `purge_document` of an unreferenced piece. -/
  | purgePiece (pieceId : DocumentId) (pieceIds : List String) (effected : List DocumentId)
  /-- Returned a garbage collection task for each effected document. -/
  | done (effected : List DocumentId)
  /-- Stopped at an `expect`: the document has no operation, or a piece id is no document id. -/
  | failed
deriving DecidableEq, Repr

/-- The loop of `purge_blob` over the piece ids, from the next one on. -/
def nextPiece (pieceIds : List String) (effected : List DocumentId) : GcTask :=
  match pieceIds with
  | [] => .done effected
  | pieceId :: rest =>
    match parseDocumentId pieceId with
    | some pieceId => .piece pieceId rest effected
    | none => .failed

/-- The next statement of a task, and where it leaves the task; `none` once it returned. -/
def GcTask.step (db : Db) : GcTask → Option (Db × GcTask)
  | .start documentId => some (db, .views documentId (db.getAllDocumentViewIds documentId) [] [])
  | .views documentId (viewId :: pending) remaining effected =>
    -- The current view is kept in any case; blobs are purged with it below.
    if db.isCurrentView viewId then
      some (db, .views documentId pending (remaining ++ [viewId]) effected)
    else some (db, .children documentId viewId pending remaining effected)
  | .children documentId viewId pending remaining effected =>
    some (db, .pruning documentId viewId pending remaining effected (db.getChildDocumentIds viewId))
  | .pruning documentId viewId pending remaining effected childIds =>
    let (db, deleted) := db.pruneDocumentView viewId
    if deleted then some (db, .views documentId pending remaining (effected ++ childIds))
    else some (db, .views documentId pending (remaining ++ [viewId]) effected)
  | .views documentId [] remaining effected =>
    match db.getOperation ⟨documentId.hash⟩ with
    | none => some (db, .failed)
    | some operation =>
      if remaining.length == 1 && operation.schemaId == .blob 1 then
        some (db, .purgeBlob documentId effected)
      else some (db, .done effected)
  | .purgeBlob documentId effected =>
    if (db.reverseRelations documentId none).isEmpty then some (db, .blobPieces documentId effected)
    else some (db, .done effected)
  | .blobPieces documentId effected =>
    some (db, .purgeDocument documentId (db.blobPieceIds documentId) effected)
  | .purgeDocument documentId pieceIds effected =>
    some (db.purgeDocument documentId, nextPiece pieceIds effected)
  | .piece pieceId pieceIds effected =>
    if (db.reverseRelations pieceId (some (.blob 1))).isEmpty then
      some (db, .purgePiece pieceId pieceIds effected)
    else some (db, nextPiece pieceIds effected)
  | .purgePiece pieceId pieceIds effected =>
    some (db.purgeDocument pieceId, nextPiece pieceIds effected)
  | .done _ | .failed => none

/-- A node: its store, and the garbage collection tasks that have started. -/
structure Node where
  db : Db
  tasks : List GcTask
deriving DecidableEq, Repr

inductive NodeEvent where
  /-- A publish or a reduce in another pool. -/
  | store (event : StoreEvent)
  /-- A garbage collection task for the document starts. -/
  | collect (documentId : DocumentId)
  /-- The task at the index runs its next statement. -/
  | gc (index : Nat)
deriving DecidableEq, Repr

namespace Node

def empty : Node := ⟨Db.empty, []⟩

/-- The next statement of the task at `index`. -/
def runTask (node : Node) (index : Nat) : Option Node :=
  match node.tasks[index]? with
  | none => none
  | some task => (task.step node.db).map fun (db, task) => ⟨db, node.tasks.set index task⟩

inductive Step : Node → NodeEvent → Node → Prop where
  | store {node : Node} {event : StoreEvent} {db : Db} (h : Db.Step node.db event db) :
      Step node (.store event) { node with db }
  | collect {node : Node} {documentId : DocumentId} :
      Step node (.collect documentId) { node with tasks := node.tasks ++ [.start documentId] }
  | gc {node next : Node} {index : Nat} (h : node.runTask index = some next) :
      Step node (.gc index) next

theorem runTask_eq_some {node next : Node} {index : Nat} (h : node.runTask index = some next) :
    ∃ task result, node.tasks[index]? = some task ∧ task.step node.db = some result ∧
      next = ⟨result.1, node.tasks.set index result.2⟩ := by
  unfold runTask at h
  split at h
  · contradiction
  · next task htask =>
    obtain ⟨result, hresult, rfl⟩ := Option.map_eq_some_iff.mp h
    exact ⟨task, result, htask, hresult, rfl⟩

end Node

/-- A pruned view is no document's current view and pinned by no field. -/
theorem pruneDocumentView_keeps {db : Db} (viewId : DocumentViewId) {view : DocumentViewRow}
    (hview : view ∈ db.documentViews)
    (hkept : db.isCurrentView view.documentViewId = true ∨ db.isPinned view.documentViewId = true) :
    view ∈ (db.pruneDocumentView viewId).1.documentViews := by
  unfold Db.pruneDocumentView
  split
  · next hguard =>
    simp only [Bool.and_eq_true, Bool.not_eq_true'] at hguard
    have hne : view.documentViewId ≠ viewId := by
      rintro rfl
      rcases hkept with hcurrent | hpinned
      · exact absurd hcurrent (by simp [hguard.2])
      · exact absurd hpinned (by simp [hguard.1.2])
    exact List.mem_filter.mpr ⟨hview, by simpa using hne⟩
  · exact hview

theorem step_pruning_db {db : Db} {documentId : DocumentId} {viewId : DocumentViewId}
    {pending remaining : List DocumentViewId} {effected childIds : List DocumentId}
    {result : Db × GcTask}
    (h : (GcTask.pruning documentId viewId pending remaining effected childIds).step db =
      some result) :
    result.1 = (db.pruneDocumentView viewId).1 := by
  simp only [GcTask.step] at h
  split at h <;> cases h <;> rfl

/-- A task's `prune_document_view` never removes a view that is, at that moment, the current
view of a document or the value of a pinned relation field of a stored view. -/
theorem prune_keeps_current_and_pinned_views {node next : Node} {index : Nat}
    {documentId : DocumentId} {viewId : DocumentViewId} {pending remaining : List DocumentViewId}
    {effected childIds : List DocumentId}
    (htask : node.tasks[index]? = some (.pruning documentId viewId pending remaining effected
      childIds))
    (hstep : Node.Step node (.gc index) next) {view : DocumentViewRow}
    (hview : view ∈ node.db.documentViews)
    (hkept : node.db.isCurrentView view.documentViewId = true ∨
      node.db.isPinned view.documentViewId = true) :
    view ∈ next.db.documentViews := by
  cases hstep with
  | gc h =>
    obtain ⟨task, result, htask', hresult, rfl⟩ := Node.runTask_eq_some h
    rw [htask, Option.some.injEq] at htask'
    subst htask'
    rw [step_pruning_db hresult]
    exact pruneDocumentView_keeps viewId hview hkept

/-- At the moment it runs, the check of `purge_blob` finds every view that references the
blob. -/
theorem not_referenced_of_reverseRelations_nil {db : Db} {documentId : DocumentId}
    (h : db.reverseRelations documentId none = []) : ¬ Referenced db documentId := by
  rintro ⟨row, hrow, hrelation, hvalue⟩
  have hfound : row.1.documentViewId ∈ db.reverseRelations documentId none := by
    refine List.mem_map.mpr ⟨row, List.mem_filter.mpr ⟨hrow, ?_⟩, rfl⟩
    rcases hvalue with hdocument | ⟨viewId, hviewId, hview⟩
    · simp [hdocument]
    · simp only [Option.all_none, Bool.and_true, hrelation, Bool.true_and, Bool.or_eq_true,
        List.any_eq_true, beq_iff_eq]
      exact .inl ⟨viewId, hviewId, hview⟩
  simp [h] at hfound

def post : SchemaId := .application "post" ⟨[⟨"S"⟩]⟩

/-- A blob `B` of one piece `P`, both materialized, and a published post `D` whose `image`
relation names `B`. A garbage collection task for `B` checks it and reads its pieces; then
the reduce task of `D` stores the post's view. -/
def blobRaceEvents : List NodeEvent :=
  [.store (.publish ⟨⟨"a"⟩, "p", "P", 0, some "piece", 1⟩
      ⟨.create, .blobPiece 1, none, [("data", .bytes "68656c6c6f")]⟩ ⟨"P"⟩),
    .store (.reduce ⟨⟨"P"⟩, ⟨[⟨"P"⟩]⟩, .blobPiece 1, false, [("data", ⟨"P"⟩)]⟩ [⟨"P"⟩]),
    .store (.publish ⟨⟨"a"⟩, "b", "B", 1, some "blob", 1⟩
      ⟨.create, .blob 1, none, [("length", .integer 5), ("mime_type", .string "text/plain"),
        ("pieces", .pinnedRelationList [⟨[⟨"P"⟩]⟩])]⟩ ⟨"B"⟩),
    .store (.reduce ⟨⟨"B"⟩, ⟨[⟨"B"⟩]⟩, .blob 1, false,
      [("length", ⟨"B"⟩), ("mime_type", ⟨"B"⟩), ("pieces", ⟨"B"⟩)]⟩ [⟨"B"⟩]),
    .store (.publish ⟨⟨"a"⟩, "d", "D", 2, some "post", 1⟩
      ⟨.create, post, none, [("image", .relation ⟨"B"⟩)]⟩ ⟨"D"⟩),
    .collect ⟨"B"⟩, .gc 0, .gc 0, .gc 0, .gc 0, .gc 0,
    .store (.reduce ⟨⟨"D"⟩, ⟨[⟨"D"⟩]⟩, post, false, [("image", ⟨"D"⟩)]⟩ [⟨"D"⟩])]

/-- The `purge_document` of the task then deletes the operations, entries and view of `B`
while the post's view names it. -/
theorem purge_blob_deletes_referenced_blob :
    ∃ node next, Run Node.Step Node.empty blobRaceEvents node ∧ Node.Step node (.gc 0) next ∧
      Referenced node.db ⟨"B"⟩ ∧ node.db.getOperationsByDocumentId ⟨"B"⟩ ≠ [] ∧
      Referenced next.db ⟨"B"⟩ ∧ next.db.getOperationsByDocumentId ⟨"B"⟩ = [] ∧
      next.db.getAllDocumentViewIds ⟨"B"⟩ = [] ∧ ∀ entry ∈ next.db.entries, entry.entryHash ≠ "B" := by
  have run : Run Node.Step Node.empty blobRaceEvents _ :=
    Run.cons (.store (.publish (by decide))) (Run.cons (.store (.reduce (by decide)))
    (Run.cons (.store (.publish (by decide))) (Run.cons (.store (.reduce (by decide)))
    (Run.cons (.store (.publish (by decide)))
    -- The task: its views, the one current view, the schema, the check, the pieces.
    (Run.cons .collect (Run.cons (.gc rfl) (Run.cons (.gc rfl) (Run.cons (.gc rfl)
    (Run.cons (.gc rfl) (Run.cons (.gc rfl)
    (Run.single (.store (.reduce (by decide))))))))))))))
  exact ⟨_, _, run, .gc rfl, by decide, by decide, by decide, by decide, by decide, by decide⟩

end Aquadoggo.Materializer
