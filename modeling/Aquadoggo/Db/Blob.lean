import Aquadoggo.Query.Paginate
import Aquadoggo.Db.OperationRows
import Aquadoggo.Library.Except

/-! Reading a blob (`db/stores/blob.rs`). `BlobStream` pages through the `pieces` list of a
blob view with the query engine, ten pieces at a time, and appends their `data`. The stream
ends at the first page whose pieces hold no data; only then are the pieces counted and the
length compared with what the blob claims. Byte strings are their hex text, two digits a
byte. -/
namespace Aquadoggo

open Library

/-- `BLOB_QUERY_PAGE_SIZE`. -/
def blobQueryPageSize : Nat := 10

theorem blobQueryPageSize_pos : 0 < blobQueryPageSize := by decide

/-- `Schema::get_system(SchemaId::BlobPiece(1))`. -/
def blobPieceSchema : Schema := ⟨.blobPiece 1, [("data", .bytes)]⟩

inductive BlobStoreError where
  | notBlobDocument
  | missingPieces
  | incorrectLength
  | documentStorageError (error : QueryError)
  /-- The task panics at an `unwrap`, `expect` or `unreachable!`. -/
  | panicked (message : String)
deriving DecidableEq, Repr

/-- What `BlobStream::new` and `validate_blob_pieces` read of a document through `AsDocument`:
its schema, its view and the value of each field. -/
structure DocumentFields where
  schemaId : SchemaId
  viewId : DocumentViewId
  fields : List (String × OperationValue)
deriving DecidableEq, Repr

def DocumentFields.get (document : DocumentFields) (name : String) : Option OperationValue :=
  document.fields.lookup name

/-- The number of bytes of a hex text. -/
def hexByteLength (hex : String) : Nat := hex.length / 2

/-- `RelationList::new_pinned(view_id, "pieces")`. -/
def piecesList (viewId : DocumentViewId) : RelationList := ⟨viewId, "pieces", .pinned⟩

/-- The `pieces` of a blob document: the length of its pinned relation list. -/
def listedPieces (document : DocumentFields) : Except BlobStoreError Nat :=
  match document.get "pieces" with
  | some (.pinnedRelationList list) => pure list.length
  | _ => throw (.panicked "unreachable")

structure BlobStream where
  paginationCursor : Option PaginationCursor
  documentViewId : DocumentViewId
  numPieces : Nat
  length : Nat
  expectedNumPieces : Nat
  expectedLength : Nat
deriving DecidableEq, Repr

namespace BlobStream

/-- `BlobStream::new`. The claimed length is an `i64` cast `as usize`. -/
def new (document : DocumentFields) : Except BlobStoreError BlobStream := do
  if document.schemaId ≠ .blob 1 then
    throw .notBlobDocument
  let expectedLength ← match document.get "length" with
    | some (.integer length) => pure (length % 2 ^ 64).toNat
    | _ => throw (.panicked "unreachable")
  let expectedNumPieces ← listedPieces document
  pure ⟨none, document.viewId, 0, 0, expectedNumPieces, expectedLength⟩

/-- The `data` of a blob piece document of a query result. -/
def pieceData (document : QueryDocument) : Except BlobStoreError String :=
  match document.fields.find? (·.1 == "data") with
  | some (_, .bytes, some hex) => pure hex
  | some _ => throw (.panicked "unreachable")
  | none => throw (.panicked "Blob piece document without \"data\" field")

/-- The query of `next_chunk`: the `data` of the next ten pieces after the cursor. -/
def chunkQuery (cursor : Option PaginationCursor) : Query :=
  ⟨⟨blobQueryPageSize, blobQueryPageSize_pos, cursor, [.endCursor, .hasNextPage]⟩,
    ⟨[.field "data"], List.nodup_singleton _⟩, Filter.default, Order.default⟩

/-- `next_chunk`: the data of the next page of pieces, with the cursor moved past them and
the pieces and bytes counted. -/
def nextChunk (db : Db) (self : BlobStream) : Except BlobStoreError (BlobStream × String) := do
  let (paginationData, documents) ←
    match db.query blobPieceSchema (chunkQuery self.paginationCursor)
        (some (piecesList self.documentViewId)) with
    | .ok result => pure result
    | .error error => throw (.documentStorageError error)
  let data ← documents.mapM fun (_, document) => pieceData document
  let buf := String.join data
  pure ({ self with
    paginationCursor := paginationData.endCursor
    numPieces := self.numPieces + documents.length
    length := self.length + hexByteLength buf }, buf)

/-- `validate`, after the stream has ended. -/
def validate (self : BlobStream) : Except BlobStoreError Unit := do
  if self.expectedNumPieces ≠ self.numPieces then
    throw .missingPieces
  if self.expectedLength ≠ self.length then
    throw .incorrectLength

/-- `read_all`, with fuel for the number of chunks: the chunks the stream yields and how it
ends, `none` when the fuel runs out first. -/
def readAll (db : Db) : Nat → BlobStream → Option (List String × Except BlobStoreError Unit)
  | 0, _ => none
  | fuel + 1, self =>
    match self.nextChunk db with
    | .error error => some ([], .error error)
    | .ok (self, blobData) =>
      if blobData.isEmpty then some ([], self.validate)
      else (readAll db fuel self).map fun (chunks, result) => (blobData :: chunks, result)

variable {db : Db}

theorem validate_eq_ok_iff (self : BlobStream) :
    self.validate = .ok () ↔
      self.expectedNumPieces = self.numPieces ∧ self.expectedLength = self.length := by
  unfold validate
  by_cases hpieces : self.expectedNumPieces = self.numPieces
  · rw [if_neg (not_not.mpr hpieces)]
    by_cases hlength : self.expectedLength = self.length
    · rw [if_neg (not_not.mpr hlength)]
      exact iff_of_true rfl ⟨hpieces, hlength⟩
    · rw [if_pos hlength]
      exact iff_of_false (fun h => by cases h) fun h => hlength h.2
  · rw [if_pos hpieces]
    exact iff_of_false (fun h => by cases h) fun h => hpieces h.1

/-- What reading a chunk changes: the cursor, and the counts of pieces and bytes. -/
theorem nextChunk_eq_ok {self next : BlobStream} {buf : String}
    (h : self.nextChunk db = .ok (next, buf)) :
    next.documentViewId = self.documentViewId ∧
      next.expectedNumPieces = self.expectedNumPieces ∧
      next.expectedLength = self.expectedLength ∧ self.numPieces ≤ next.numPieces ∧
      next.length = self.length + hexByteLength buf := by
  unfold nextChunk at h
  dsimp only at h
  split at h
  · obtain ⟨⟨paginationData, documents⟩, -, h⟩ := bind_eq_ok h
    obtain ⟨data, -, h⟩ := bind_eq_ok h
    cases h
    exact ⟨rfl, rfl, rfl, Nat.le_add_right _ _, rfl⟩
  · cases h

/-- A new stream starts before the first piece with nothing counted. -/
theorem new_eq_ok {document : DocumentFields} {stream : BlobStream} (h : new document = .ok stream) :
    stream.paginationCursor = none ∧ stream.length = 0 ∧ stream.numPieces = 0 ∧
      stream.documentViewId = document.viewId := by
  unfold new at h
  dsimp only at h
  split at h
  · cases h
  -- The claimed length is read first; any other value panics.
  split at h
  · obtain ⟨expectedLength, -, h⟩ := bind_eq_ok h
    obtain ⟨expectedNumPieces, -, h⟩ := bind_eq_ok h
    cases h
    exact ⟨rfl, rfl, rfl, rfl⟩
  · cases h

theorem readAll_succ_of_empty {self next : BlobStream} (h : self.nextChunk db = .ok (next, ""))
    (fuel : Nat) : self.readAll db (fuel + 1) = some ([], next.validate) := by
  simp [readAll, h]

/-- A read that ends `Ok` ends with a stream that has counted, as its bytes, those of the chunks
it yielded, against what the blob claims: the induction is on the fuel, one chunk a step. -/
theorem readAll_eq_ok : ∀ {fuel : Nat} {self : BlobStream} {chunks : List String},
    self.readAll db fuel = some (chunks, .ok ()) →
    ∃ last : BlobStream, last.validate = .ok () ∧
      last.expectedNumPieces = self.expectedNumPieces ∧
      last.expectedLength = self.expectedLength ∧
      last.length = self.length + (chunks.map hexByteLength).sum
  | 0, _, _, h => by cases h
  | fuel + 1, self, chunks, h => by
    unfold readAll at h
    split at h
    · cases h
    rename_i next buf hchunk
    obtain ⟨-, hpieces, hclaimed, -, hlength⟩ := nextChunk_eq_ok hchunk
    split at h
    · -- The empty chunk ends the stream, and is the last one counted.
      rename_i hempty
      obtain ⟨rfl, hvalid⟩ := Prod.mk.inj (Option.some.inj h)
      have hbuf : buf = "" := String.isEmpty_iff.mp hempty
      subst hbuf
      exact ⟨next, hvalid, hpieces, hclaimed, by simpa [hexByteLength] using hlength⟩
    · obtain ⟨⟨rest, result⟩, hrest, heq⟩ := Option.map_eq_some_iff.mp h
      cases heq
      obtain ⟨last, hvalid, hlastPieces, hlastClaimed, hlastLength⟩ := readAll_eq_ok hrest
      refine ⟨last, hvalid, hlastPieces.trans hpieces, hlastClaimed.trans hclaimed, ?_⟩
      rw [hlastLength, hlength, List.map_cons, List.sum_cons]
      omega

/-- A read of a new stream that ends `Ok` has yielded as many bytes as the blob claims. -/
theorem readAll_ok_length {document : DocumentFields} {stream : BlobStream}
    (hnew : BlobStream.new document = .ok stream) {fuel : Nat} {chunks : List String}
    (h : stream.readAll db fuel = some (chunks, .ok ())) :
    (chunks.map hexByteLength).sum = stream.expectedLength := by
  obtain ⟨last, hvalid, -, hclaimed, hlength⟩ := readAll_eq_ok h
  rw [← hclaimed, ((validate_eq_ok_iff last).mp hvalid).2, hlength, (new_eq_ok hnew).2.1,
    Nat.zero_add]

end BlobStream

/-- `validate_blob_pieces`: the pieces the query finds in the list are as many as it names. -/
def validateBlobPieces (db : Db) (document : DocumentFields) :
    Except BlobStoreError DocumentFields := do
  let args : Query := ⟨⟨blobQueryPageSize, blobQueryPageSize_pos, none, [.totalCount]⟩,
    ⟨[], List.nodup_nil⟩, Filter.default, Order.default⟩
  let (paginationData, _) ←
    match db.query blobPieceSchema args (some (piecesList document.viewId)) with
    | .ok result => pure result
    | .error error => throw (.documentStorageError error)
  let totalCount ← match paginationData.totalCount with
    | some totalCount => pure totalCount
    | none => throw (.panicked "total count is selected")
  let expectedNumPieces ← listedPieces document
  if totalCount = expectedNumPieces then pure document else throw .missingPieces

def emptyPieceView : DocumentViewId := ⟨[⟨"1E"⟩]⟩

def dataPieceView : DocumentViewId := ⟨[⟨"2D"⟩]⟩

def blobViewId : DocumentViewId := ⟨[⟨"3B"⟩]⟩

/-- Ten times a piece without data, then a piece of one byte. -/
def blobPieces : List DocumentViewId := List.replicate 10 emptyPieceView ++ [dataPieceView]

def blobFields : List (String × OperationValue) :=
  [("length", .integer 1), ("mime_type", .string "text/plain"),
    ("pieces", .pinnedRelationList blobPieces)]

/-- The two pieces and the blob, each published and reduced. -/
def blobEvents : List StoreEvent :=
  [.publish ⟨⟨"a"⟩, "e", "1E", 0, some "eo", 1⟩
      ⟨.create, .blobPiece 1, none, [("data", .bytes "")]⟩ ⟨"1E"⟩,
    .publish ⟨⟨"b"⟩, "d", "2D", 0, some "do", 1⟩
      ⟨.create, .blobPiece 1, none, [("data", .bytes "ab")]⟩ ⟨"2D"⟩,
    .publish ⟨⟨"c"⟩, "b", "3B", 0, some "bo", 1⟩ ⟨.create, .blob 1, none, blobFields⟩ ⟨"3B"⟩,
    .reduce ⟨⟨"1E"⟩, emptyPieceView, .blobPiece 1, false, [("data", ⟨"1E"⟩)]⟩ [⟨"1E"⟩],
    .reduce ⟨⟨"2D"⟩, dataPieceView, .blobPiece 1, false, [("data", ⟨"2D"⟩)]⟩ [⟨"2D"⟩],
    .reduce ⟨⟨"3B"⟩, blobViewId, .blob 1, false,
      [("length", ⟨"3B"⟩), ("mime_type", ⟨"3B"⟩), ("pieces", ⟨"3B"⟩)]⟩ [⟨"3B"⟩]]

def blobStore : Db := blobEvents.foldl Db.apply Db.empty

def blobDocument : DocumentFields := ⟨.blob 1, blobViewId, blobFields⟩

/-- The first page holds the ten pieces without data. Its chunk is empty, so the stream ends
there and counts ten of the eleven pieces: it yields nothing, and fails with `MissingPieces`
although every piece is materialized and the one byte is what the blob claims. -/
theorem empty_page_ends_blob_stream :
    Run Db.Step Db.empty blobEvents blobStore ∧
      (∀ view ∈ blobPieces, blobStore.documentViewExists view) ∧
      validateBlobPieces blobStore blobDocument = .ok blobDocument ∧
      ∃ stream, BlobStream.new blobDocument = .ok stream ∧
        ∀ fuel, stream.readAll blobStore (fuel + 1) = some ([], .error .missingPieces) := by
  have run : Run Db.Step Db.empty blobEvents blobStore :=
    Run.cons (.publish (by decide)) (Run.cons (.publish (by decide))
      (Run.cons (.publish (by decide)) (Run.cons (.reduce (by decide))
      (Run.cons (.reduce (by decide)) (Run.single (.reduce (by decide)))))))
  have hnew : BlobStream.new blobDocument = .ok ⟨none, blobViewId, 0, 0, 11, 1⟩ := rfl
  have hchunk : (BlobStream.mk none blobViewId 0 0 11 1).nextChunk blobStore =
      .ok (⟨some ⟨⟨rowCursor 0 "data" ⟨"1E"⟩⟩, some ⟨rowCursor 9 "pieces" ⟨"3B"⟩⟩, some blobViewId⟩,
        blobViewId, 10, 0, 11, 1⟩,
        "") := by
    decide +kernel
  refine ⟨run, by decide +kernel, by decide +kernel, _, hnew, fun fuel => ?_⟩
  rw [BlobStream.readAll_succ_of_empty hchunk]
  rfl

end Aquadoggo
