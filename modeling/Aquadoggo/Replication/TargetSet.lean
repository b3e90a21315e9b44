import Aquadoggo.Replication.Manager
import Aquadoggo.Materializer.Reduce
import Mathlib.Data.List.Dedup

/-! Which documents a log-height session sends, against what the receiving session accepts.
The sender collects the documents of each schema of the target set, the blobs they relate
to and the documents those blobs relate to; the receiver checks the schema of each operation
it is sent against the same target set. The third list is not checked for its schema. -/
namespace Aquadoggo.Replication

open Library

namespace LogHeightStrategy

/-- Where the documents of each list `included_document_ids` collects come from. -/
structure Included.Sound (strategy : LogHeightStrategy) (db : Db) (acc : Included) : Prop where
  target : ∀ d ∈ acc.targetDocuments,
    ∃ schemaId ∈ strategy.targetSet.ids, d ∈ db.getAllDocumentIdsForSchema schemaId
  blob : ∀ d ∈ acc.blobDocuments, strategy.targetSet.contains (.blob 1) ∧
    ∃ view ∈ db.documentViews, view.documentId = d ∧ view.schemaId = .blob 1
  pieces : ∀ d ∈ acc.blobPieceDocuments, strategy.targetSet.contains (.blobPiece 1) ∧
    ∃ blobView ∈ db.documentViews, blobView.schemaId = .blob 1 ∧
      ∃ viewId ∈ db.getAllDocumentViewIds blobView.documentId, d ∈ db.getChildDocumentIds viewId

theorem mem_getBlobChildRelations {db : Db} {documentId d : DocumentId}
    (h : d ∈ db.getBlobChildRelations documentId) :
    ∃ view ∈ db.documentViews, view.documentId = d ∧ view.schemaId = .blob 1 := by
  unfold Db.getBlobChildRelations at h
  obtain ⟨view, hview, rfl⟩ := List.mem_map.mp (List.mem_dedup.mp h)
  obtain ⟨hmem, hcond⟩ := List.mem_filter.mp hview
  simp only [Bool.and_eq_true, beq_iff_eq] at hcond
  exact ⟨view, hmem, rfl, hcond.1⟩

section Sound

variable {strategy : LogHeightStrategy} {provider : SchemaProvider} {db : Db}

/-- One round of the loop keeps every list sound. -/
theorem sound_includeSchema {acc : Included} (h : Included.Sound strategy db acc)
    {schemaId : SchemaId} (hmem : schemaId ∈ strategy.targetSet.ids) :
    Included.Sound strategy db (strategy.includeSchema provider db acc schemaId) := by
  unfold includeSchema
  split
  · exact h
  · constructor
    · intro d hd
      rcases List.mem_append.mp hd with hold | hnew
      · exact h.target d hold
      · exact ⟨schemaId, hmem, hnew⟩
    · intro d hd
      rcases List.mem_append.mp hd with hold | hnew
      · exact h.blob d hold
      · split at hnew
        · rename_i hwants
          obtain ⟨parent, -, hchild⟩ := List.mem_flatMap.mp hnew
          exact ⟨((Bool.and_eq_true _ _).mp hwants).1, mem_getBlobChildRelations hchild⟩
        · cases hnew
    · intro d hd
      rcases List.mem_append.mp hd with hold | hnew
      · exact h.pieces d hold
      · split at hnew
        · -- A piece is whatever a view of a related blob relates to.
          rename_i hwants
          obtain ⟨blobId, hblob, hpiece⟩ := List.mem_flatMap.mp hnew
          obtain ⟨viewId, hviewId, hchild⟩ := List.mem_flatMap.mp hpiece
          split at hblob
          · obtain ⟨parent, -, hrelation⟩ := List.mem_flatMap.mp hblob
            obtain ⟨blobView, hview, rfl, hschema⟩ := mem_getBlobChildRelations hrelation
            exact ⟨((Bool.and_eq_true _ _).mp hwants).1, blobView, hview, hschema, viewId,
              hviewId, hchild⟩
          · cases hblob
        · cases hnew

theorem sound_foldl (schemaIds : List SchemaId)
    (hsub : ∀ schemaId ∈ schemaIds, schemaId ∈ strategy.targetSet.ids) {acc : Included}
    (h : Included.Sound strategy db acc) :
    Included.Sound strategy db (schemaIds.foldl (strategy.includeSchema provider db) acc) := by
  induction schemaIds generalizing acc with
  | nil => exact h
  | cons schemaId rest ih =>
    apply ih fun schemaId' hmem => hsub schemaId' (.tail _ hmem)
    exact sound_includeSchema h (hsub schemaId (.head _))

/-- Every document a session on the target set sends: a document of a schema of the set, a
blob a sent document relates to (when blobs are in the set), or any document a view of such
a blob relates to (when pieces are in the set), of whatever schema. -/
theorem mem_includedDocumentIds {d : DocumentId} (h : d ∈ strategy.includedDocumentIds provider db) :
    (∃ schemaId ∈ strategy.targetSet.ids, d ∈ db.getAllDocumentIdsForSchema schemaId) ∨
    (strategy.targetSet.contains (.blob 1) ∧
      ∃ view ∈ db.documentViews, view.documentId = d ∧ view.schemaId = .blob 1) ∨
    (strategy.targetSet.contains (.blobPiece 1) ∧
      ∃ blobView ∈ db.documentViews, blobView.schemaId = .blob 1 ∧
        ∃ viewId ∈ db.getAllDocumentViewIds blobView.documentId, d ∈ db.getChildDocumentIds viewId) := by
  have hsound : Included.Sound strategy db
      (strategy.targetSet.ids.foldl (strategy.includeSchema provider db) ⟨[], [], []⟩) :=
    sound_foldl _ (fun _ hmem => hmem) ⟨nofun, nofun, nofun⟩
  unfold includedDocumentIds at h
  rcases List.mem_append.mp h with h | hpiece
  · rcases List.mem_append.mp h with htarget | hblob
    · exact .inl (hsound.target d htarget)
    · exact .inr (.inl (hsound.blob d hblob))
  · exact .inr (.inr (hsound.pieces d hpiece))

end Sound

end LogHeightStrategy

def noteSchema : SchemaId := .application "note" ⟨[⟨"N"⟩]⟩

def imageSchema : SchemaId := .application "image" ⟨[⟨"I"⟩]⟩

/-- A note, a blob whose `pieces` list names the note, and an image relating to the blob, each
published and reduced. -/
def pieceEvents : List StoreEvent :=
  [.publish ⟨⟨"a"⟩, "p", "1P", 0, some "po", 1⟩ ⟨.create, noteSchema, none, [("text", .string "hi")]⟩
      ⟨"1P"⟩,
    .publish ⟨⟨"b"⟩, "b", "2B", 0, some "bo", 1⟩
      ⟨.create, .blob 1, none, [("length", .integer 2), ("mime_type", .string "text/plain"),
        ("pieces", .pinnedRelationList [⟨[⟨"1P"⟩]⟩])]⟩ ⟨"2B"⟩,
    .publish ⟨⟨"c"⟩, "d", "3D", 0, some "do", 1⟩
      ⟨.create, imageSchema, none, [("blob", .relation ⟨"2B"⟩)]⟩ ⟨"3D"⟩,
    .reduce ⟨⟨"1P"⟩, ⟨[⟨"1P"⟩]⟩, noteSchema, false, [("text", ⟨"1P"⟩)]⟩ [⟨"1P"⟩],
    .reduce ⟨⟨"2B"⟩, ⟨[⟨"2B"⟩]⟩, .blob 1, false,
      [("length", ⟨"2B"⟩), ("mime_type", ⟨"2B"⟩), ("pieces", ⟨"2B"⟩)]⟩ [⟨"2B"⟩],
    .reduce ⟨⟨"3D"⟩, ⟨[⟨"3D"⟩]⟩, imageSchema, false, [("blob", ⟨"3D"⟩)]⟩ [⟨"3D"⟩]]

def pieceStore : Db := pieceEvents.foldl Db.apply Db.empty

def pieceProvider : SchemaProvider := ⟨[⟨imageSchema, [("blob", .relation (.blob 1))]⟩]⟩

def pieceTargetSet : SchemaIdSet := ⟨[.blob 1, .blobPiece 1, imageSchema]⟩

/-- The schema id p2panda decodes from an operation a store holds: that operation's own. -/
def storedSchemaId (db : Db) (operation : EncodedOperation) : Option SchemaId :=
  ((db.entries.find? (·.payloadBytes == some operation.bytes)).bind fun entry =>
    db.getOperation ⟨entry.entryHash⟩).map (·.schemaId)

/-- A peer that ingests as the store `db` decodes. -/
def storeIngest (db : Db) : SyncIngest :=
  ⟨pieceProvider, false, [], ⟨EncodedEntry.bytes, storedSchemaId db, fun db _ _ _ => .ok db⟩⟩

/-- A session on images, blobs and pieces sends the entry of a note that a blob names as a
piece, and a receiving session on the same target set rejects it. -/
theorem blob_piece_outside_target_set_rejected :
    Run Db.Step Db.empty pieceEvents pieceStore ∧
      (LogHeightStrategy.new pieceTargetSet).entryResponses pieceProvider pieceStore [] =
        some [.entry ⟨"p"⟩ (some ⟨"po"⟩), .entry ⟨"b"⟩ (some ⟨"bo"⟩), .entry ⟨"d"⟩ (some ⟨"do"⟩)] ∧
      storedSchemaId pieceStore ⟨"po"⟩ = some noteSchema ∧
      pieceTargetSet.contains noteSchema = false ∧
      SyncManager.validateEntry (storeIngest pieceStore) (Session.new 0 pieceTargetSet false false)
        (some ⟨"po"⟩) = .error .unmatchedTargetSet := by
  have run : Run Db.Step Db.empty pieceEvents pieceStore :=
    Run.cons (.publish (by decide)) (Run.cons (.publish (by decide))
      (Run.cons (.publish (by decide)) (Run.cons (.reduce (by decide))
      (Run.cons (.reduce (by decide)) (Run.single (.reduce (by decide)))))))
  have hincluded : (LogHeightStrategy.new pieceTargetSet).includedDocumentIds pieceProvider
      pieceStore = [⟨"3D"⟩, ⟨"2B"⟩, ⟨"1P"⟩] := by
    decide +kernel
  -- The sorts of the store's queries are stuck in the kernel: rewrite them away first.
  have hheights : LogHeightStrategy.localLogHeights pieceStore [⟨"3D"⟩, ⟨"2B"⟩, ⟨"1P"⟩] =
      [(⟨"a"⟩, [(0, 1)]), (⟨"b"⟩, [(0, 1)]), (⟨"c"⟩, [(0, 1)])] := by
    unfold LogHeightStrategy.localLogHeights Db.getDocumentLogHeights Db.logHeightRows
    rw [List.mergeSort_of_pairwise]
    · decide +kernel
    · decide +kernel
  have hneeds : diffLogHeights [(⟨"a"⟩, [(0, 1)]), (⟨"b"⟩, [(0, 1)]), (⟨"c"⟩, [(0, 1)])]
      (collectMap []) = [(⟨"a"⟩, [(0, 1)]), (⟨"b"⟩, [(0, 1)]), (⟨"c"⟩, [(0, 1)])] := by
    decide +kernel
  -- The kernel reads each log, of one entry; the sort of the three is rewritten away.
  have hlogs : (([(⟨"a"⟩, [(0, 1)]), (⟨"b"⟩, [(0, 1)]), (⟨"c"⟩, [(0, 1)])] : List LogHeights).flatMapM
      fun needs => needs.2.flatMapM fun log => logEntries pieceStore needs.1 log.1 log.2) =
      some [(⟨⟨"a"⟩, "p", "1P", 0, some "po", 1⟩, ⟨"1P"⟩, 0),
        (⟨⟨"b"⟩, "b", "2B", 0, some "bo", 1⟩, ⟨"2B"⟩, 0),
        (⟨⟨"c"⟩, "d", "3D", 0, some "do", 1⟩, ⟨"3D"⟩, 0)] := by
    decide +kernel
  have hretrieve := retrieveEntries_of_logs hlogs
  rw [List.mergeSort_of_pairwise (by decide +kernel)] at hretrieve
  have hdecoded : storedSchemaId pieceStore ⟨"po"⟩ = some noteSchema := by decide +kernel
  refine ⟨run, ?_, hdecoded, by decide, ?_⟩
  · unfold LogHeightStrategy.entryResponses
    dsimp only
    rw [hincluded, hheights, hneeds, hretrieve]
    rfl
  · simp only [SyncManager.validateEntry, storeIngest, hdecoded]
    decide

end Aquadoggo.Replication
