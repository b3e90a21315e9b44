import Aquadoggo.Db.Stores
import Aquadoggo.Replication.Message
import Aquadoggo.Library.OptionList

/-! The log-height strategy of `replication/strategies`: what a node announces in
its `Have`, how it diffs a remote `Have` against its own logs, and the entries it
answers with. -/
namespace Aquadoggo.Replication

open Library

/-- The schemas a node has materialized, as the `SchemaProvider` hands them out. -/
structure SchemaProvider where
  schemas : List Schema
deriving DecidableEq, Repr

def SchemaProvider.get (provider : SchemaProvider) (schemaId : SchemaId) : Option Schema :=
  provider.schemas.find? fun schema => schema.id == schemaId

/-- `has_blob_relation`: some relation field of the schema points at `blob_v1`. -/
def hasBlobRelation (schema : Schema) : Bool :=
  schema.fields.any fun (_, fieldType) =>
    match fieldType with
    | .relation schemaId | .relationList schemaId
    | .pinnedRelation schemaId | .pinnedRelationList schemaId => schemaId == .blob 1
    | _ => false

/-- `remote_requires_entries`: the first sequence number of a local log the remote lacks. -/
def remoteRequiresEntries (logId : LogId) (localSeqNum : SeqNum)
    (remoteLogHeights : List (LogId × SeqNum)) : Option (LogId × SeqNum) :=
  match remoteLogHeights.lookup logId with
  | some remoteSeqNum => if localSeqNum > remoteSeqNum then some (logId, remoteSeqNum + 1) else none
  -- `SeqNum::default()` is the first sequence number.
  | none => some (logId, 1)

/-- The order `Vec<(LogId, SeqNum)>::sort` uses. -/
def logHeightLe (a b : LogId × SeqNum) : Bool := a.1 < b.1 || (a.1 == b.1 && a.2 ≤ b.2)

/-- `diff_log_heights`, both maps already collected from their pair lists. -/
def diffLogHeights (localLogHeights remoteLogHeights : List (PublicKey × List (LogId × SeqNum))) :
    List (PublicKey × List (LogId × SeqNum)) :=
  localLogHeights.foldl (fun remoteNeeds (localAuthor, localAuthorLogs) =>
    let localAuthorLogs := collectMap localAuthorLogs
    match remoteLogHeights.lookup localAuthor with
    | some remoteAuthorLogs =>
      let remoteAuthorLogs := collectMap remoteAuthorLogs
      let remoteNeedsLogs := (localAuthorLogs.filterMap fun (logId, seqNum) =>
        remoteRequiresEntries logId seqNum remoteAuthorLogs).mergeSort logHeightLe
      if remoteNeedsLogs.isEmpty then remoteNeeds else remoteNeeds ++ [(localAuthor, remoteNeedsLogs)]
    | none =>
      remoteNeeds ++ [(localAuthor, (localAuthorLogs.map fun (logId, _) => (logId, 1)).mergeSort
        logHeightLe)]) []

/-- The `(document_id, sorted_index)` order `retrieve_entries` sorts by. -/
def entryOrderLe (a b : EntryRow × DocumentId × Nat) : Bool :=
  decide (a.2.1.hash < b.2.1.hash) || (a.2.1 == b.2.1 && a.2.2 ≤ b.2.2)

/-- The materialized entries of one log from a sequence number on, with the document and
sorted index of their operations; `none` is the `expect("Operation should be in store")` panic
on an entry whose operation is not stored. -/
def logEntries (db : Db) (publicKey : PublicKey) (logId : LogId) (seqNum : SeqNum) :
    Option (List (EntryRow × DocumentId × Nat)) :=
  (db.getEntriesFrom publicKey logId seqNum).filterMapM fun entry => do
    let operation ← db.getOperation ⟨entry.entryHash⟩
    -- Entries whose operation is not materialized yet have no sorted index and are skipped.
    pure (operation.sortedIndex.map fun sortedIndex => (entry, operation.documentId, sortedIndex))

/-- `retrieve_entries`: every entry the remote needs, sorted by document and sorted index. -/
def retrieveEntries (db : Db) (remoteNeeds : List LogHeights) :
    Option (List (EntryRow × DocumentId × Nat)) := do
  let entries ← remoteNeeds.flatMapM fun needs =>
    needs.2.flatMapM fun log => logEntries db needs.1 log.1 log.2
  pure (entries.mergeSort entryOrderLe)

theorem mem_logEntries {db : Db} {publicKey : PublicKey} {logId : LogId} {seqNum : SeqNum}
    {entries : List (EntryRow × DocumentId × Nat)} (h : logEntries db publicKey logId seqNum = some entries)
    {x : EntryRow × DocumentId × Nat} :
    x ∈ entries ↔ ∃ entry ∈ db.getEntriesFrom publicKey logId seqNum, ∃ op,
      db.getOperation ⟨entry.entryHash⟩ = some op ∧ ∃ index, op.sortedIndex = some index ∧
        x = (entry, op.documentId, index) := by
  rw [mem_of_filterMapM_eq_some h]
  refine exists_congr fun entry => and_congr_right fun _ => ?_
  cases db.getOperation ⟨entry.entryHash⟩ with
  | none => simp
  | some op => cases op.sortedIndex <;> simp [eq_comm]

/-- The entries of the logs the remote needs, all of them retrieved. -/
theorem retrieveEntries_eq_some {db : Db} {remoteNeeds : List LogHeights}
    {entries : List (EntryRow × DocumentId × Nat)} (h : retrieveEntries db remoteNeeds = some entries) :
    ∃ all, (remoteNeeds.flatMapM fun needs =>
        needs.2.flatMapM fun log => logEntries db needs.1 log.1 log.2) = some all ∧
      entries = all.mergeSort entryOrderLe := by
  obtain ⟨all, hall, hsorted⟩ := Option.bind_eq_some_iff.mp h
  exact ⟨all, hall, (Option.some.inj hsorted).symm⟩

theorem retrieveEntries_of_logs {db : Db} {remoteNeeds : List LogHeights}
    {all : List (EntryRow × DocumentId × Nat)}
    (h : (remoteNeeds.flatMapM fun needs =>
      needs.2.flatMapM fun log => logEntries db needs.1 log.1 log.2) = some all) :
    retrieveEntries db remoteNeeds = some (all.mergeSort entryOrderLe) := by
  simp [retrieveEntries, h]

theorem mem_retrieveEntries_iff {db : Db} {remoteNeeds : List LogHeights}
    {entries : List (EntryRow × DocumentId × Nat)} (h : retrieveEntries db remoteNeeds = some entries)
    {x : EntryRow × DocumentId × Nat} :
    x ∈ entries ↔ ∃ needs ∈ remoteNeeds, ∃ log ∈ needs.2, ∃ logEntriesOf,
      logEntries db needs.1 log.1 log.2 = some logEntriesOf ∧ x ∈ logEntriesOf := by
  obtain ⟨all, hall, rfl⟩ := retrieveEntries_eq_some h
  rw [List.mem_mergeSort, mem_of_flatMapM_eq_some hall]
  refine exists_congr fun needs => and_congr_right fun hneeds => ?_
  obtain ⟨found, hfound⟩ := exists_of_flatMapM_eq_some hall hneeds
  constructor
  · rintro ⟨logs, hlogs, hmem⟩
    rw [hfound, Option.some.injEq] at hlogs
    subst hlogs
    exact (mem_of_flatMapM_eq_some hfound).mp hmem
  · intro hx
    exact ⟨found, hfound, (mem_of_flatMapM_eq_some hfound).mpr hx⟩

theorem logEntries_isSome {db : Db} (h : db.OperationsStored) (publicKey : PublicKey) (logId : LogId)
    (seqNum : SeqNum) : (logEntries db publicKey logId seqNum).isSome := by
  rw [Option.isSome_iff_ne_none, Ne, logEntries, filterMapM_eq_none_iff]
  rintro ⟨entry, hentry, hnone⟩
  have hstored : entry ∈ db.entries := by
    rw [Db.getEntriesFrom, List.mem_mergeSort] at hentry
    exact (List.mem_filter.mp hentry).1
  obtain ⟨op, hop⟩ := Option.isSome_iff_exists.mp (h entry hstored)
  rw [hop] at hnone
  cases hnone

/-- On a store whose entries have their operations, `retrieve_entries` does not panic. -/
theorem retrieveEntries_isSome {db : Db} (h : db.OperationsStored) (remoteNeeds : List LogHeights) :
    (retrieveEntries db remoteNeeds).isSome := by
  have hall : (remoteNeeds.flatMapM fun needs =>
      needs.2.flatMapM fun log => logEntries db needs.1 log.1 log.2) ≠ none := by
    rw [Ne, flatMapM_eq_none_iff]
    rintro ⟨needs, -, hneeds⟩
    obtain ⟨log, -, hlog⟩ := flatMapM_eq_none_iff.mp hneeds
    rw [← Option.not_isSome_iff_eq_none, logEntries_isSome h] at hlog
    exact hlog rfl
  obtain ⟨all, hsome⟩ := Option.ne_none_iff_exists'.mp hall
  simp [retrieveEntries, hsome]

structure LogHeightStrategy where
  targetSet : SchemaIdSet
  receivedRemoteHave : Bool
  sentHave : Bool
deriving DecidableEq, Repr

/-- What the strategy returns to its session: messages and whether it is done locally. -/
structure StrategyResult where
  messages : List Message
  isLocalDone : Bool
deriving DecidableEq, Repr

def StrategyResult.merge (self result : StrategyResult) : StrategyResult :=
  ⟨self.messages ++ result.messages, self.isLocalDone || result.isLocalDone⟩

namespace LogHeightStrategy

def new (targetSet : SchemaIdSet) : LogHeightStrategy := ⟨targetSet, false, false⟩

/-- The three lists `included_document_ids` collects: target, blob and blob piece documents. -/
structure Included where
  targetDocuments : List DocumentId
  blobDocuments : List DocumentId
  blobPieceDocuments : List DocumentId

/-- One round of the loop of `included_document_ids`, for one schema of the target set. -/
def includeSchema (self : LogHeightStrategy) (provider : SchemaProvider) (db : Db)
    (acc : Included) (schemaId : SchemaId) : Included :=
  let wantsBlobs := self.targetSet.contains (.blob 1)
  let wantsBlobPieces := self.targetSet.contains (.blobPiece 1)
  -- Blobs and pieces are only replicated as dependencies of other documents.
  if schemaId == .blob 1 || schemaId == .blobPiece 1 then acc
  else
    let hasBlob := (provider.get schemaId).elim false hasBlobRelation
    let schemaDocumentIds := db.getAllDocumentIdsForSchema schemaId
    let schemaBlobDocuments :=
      if wantsBlobs && hasBlob then schemaDocumentIds.flatMap db.getBlobChildRelations else []
    let pieces :=
      if wantsBlobPieces && hasBlob then
        schemaBlobDocuments.flatMap fun blobId =>
          (db.getAllDocumentViewIds blobId).flatMap db.getChildDocumentIds
      else []
    ⟨acc.targetDocuments ++ schemaDocumentIds, acc.blobDocuments ++ schemaBlobDocuments,
      acc.blobPieceDocuments ++ pieces⟩

/-- `included_document_ids`: the documents this session replicates. -/
def includedDocumentIds (self : LogHeightStrategy) (provider : SchemaProvider) (db : Db) :
    List DocumentId :=
  let acc := self.targetSet.ids.foldl (includeSchema self provider db) ⟨[], [], []⟩
  acc.targetDocuments ++ acc.blobDocuments ++ acc.blobPieceDocuments

/-- `local_log_heights`, collected into a map. -/
def localLogHeights (db : Db) (includedDocuments : List DocumentId) :
    List (PublicKey × List (LogId × SeqNum)) :=
  collectMap (db.getDocumentLogHeights includedDocuments)

/-- `entry_responses`: one `Entry` message per entry the remote lacks. -/
def entryResponses (self : LogHeightStrategy) (provider : SchemaProvider) (db : Db)
    (remoteLogHeights : List LogHeights) : Option (List Message) :=
  let includedDocumentIds := self.includedDocumentIds provider db
  let localHeights := localLogHeights db includedDocumentIds
  let remoteNeeds := diffLogHeights localHeights (collectMap remoteLogHeights)
  (retrieveEntries db remoteNeeds).map fun entries => entries.map fun (entry, _, _) =>
    .entry ⟨entry.entryBytes⟩ (entry.payloadBytes.map EncodedOperation.mk)

/-- `Strategy::initial_messages`: our `Have`, done at once when we hold nothing. -/
def initialMessages (self : LogHeightStrategy) (provider : SchemaProvider) (db : Db) :
    LogHeightStrategy × StrategyResult :=
  let logHeights := localLogHeights db (self.includedDocumentIds provider db)
  ({ self with sentHave := true }, ⟨[.have logHeights], logHeights.isEmpty⟩)

/-- `Strategy::handle_message`. The strategy keeps what it changed before an error; `none` is
the panic of `retrieve_entries`. -/
def handleMessage (self : LogHeightStrategy) (provider : SchemaProvider) (db : Db)
    (message : Message) : Option (LogHeightStrategy × Except ReplicationError StrategyResult) :=
  let (self, result) :=
    if !self.sentHave then
      let (self, initial) := self.initialMessages provider db
      (self, StrategyResult.merge ⟨[], false⟩ initial)
    else (self, ⟨[], false⟩)
  match message with
  | .have remoteLogHeights =>
    if self.receivedRemoteHave then
      some (self, .error (.strategyFailed "Received Have from remote message twice"))
    else
      (self.entryResponses provider db remoteLogHeights).map fun response =>
        ({ self with receivedRemoteHave := true }, .ok ⟨result.messages ++ response, true⟩)
  | _ => some (self, .error (.strategyFailed "Received unknown message type"))

/-- The `Have` a strategy announces: its local log heights. -/
def localHave (self : LogHeightStrategy) (provider : SchemaProvider) (db : Db) : Message :=
  .have (localLogHeights db (self.includedDocumentIds provider db))

@[simp] theorem initialMessages_sentHave (self : LogHeightStrategy) (provider : SchemaProvider)
    (db : Db) : (self.initialMessages provider db).1.sentHave = true := rfl

@[simp] theorem initialMessages_targetSet (self : LogHeightStrategy) (provider : SchemaProvider)
    (db : Db) : (self.initialMessages provider db).1.targetSet = self.targetSet := rfl

theorem initialMessages_fst (self : LogHeightStrategy) (provider : SchemaProvider) (db : Db) :
    (self.initialMessages provider db).1 = { self with sentHave := true } := rfl

theorem initialMessages_messages (self : LogHeightStrategy) (provider : SchemaProvider) (db : Db) :
    (self.initialMessages provider db).2.messages = [self.localHave provider db] := rfl

theorem initialMessages_isLocalDone (self : LogHeightStrategy) (provider : SchemaProvider)
    (db : Db) : (self.initialMessages provider db).2.isLocalDone =
      (localLogHeights db (self.includedDocumentIds provider db)).isEmpty := rfl

/-- Without local log heights there is nothing to diff, so no entry is sent. -/
theorem entryResponses_of_localLogHeights_nil {self : LogHeightStrategy} {provider : SchemaProvider}
    {db : Db} (h : localLogHeights db (self.includedDocumentIds provider db) = [])
    (remoteLogHeights : List LogHeights) :
    self.entryResponses provider db remoteLogHeights = some [] := by
  simp [entryResponses, h, diffLogHeights, retrieveEntries]

theorem includeSchema_congr {self other : LogHeightStrategy} (h : self.targetSet = other.targetSet) :
    self.includeSchema = other.includeSchema := by
  funext provider db acc schemaId
  simp only [includeSchema, h]

theorem includedDocumentIds_congr {self other : LogHeightStrategy}
    (h : self.targetSet = other.targetSet) : self.includedDocumentIds = other.includedDocumentIds := by
  funext provider db
  simp only [includedDocumentIds, includeSchema_congr h, h]

@[simp] theorem includedDocumentIds_flags (self : LogHeightStrategy) (receivedRemoteHave sentHave : Bool) :
    ({ targetSet := self.targetSet, receivedRemoteHave, sentHave } : LogHeightStrategy).includedDocumentIds =
      self.includedDocumentIds :=
  includedDocumentIds_congr rfl

/-- What a strategy answers depends on its target set only, not on its flags. -/
theorem entryResponses_congr {self other : LogHeightStrategy} (h : self.targetSet = other.targetSet)
    (provider : SchemaProvider) (db : Db) (remoteLogHeights : List LogHeights) :
    self.entryResponses provider db remoteLogHeights =
      other.entryResponses provider db remoteLogHeights := by
  simp only [entryResponses, includedDocumentIds_congr h]

@[simp] theorem entryResponses_mk (targetSet : SchemaIdSet) (receivedRemoteHave sentHave : Bool) :
    (⟨targetSet, receivedRemoteHave, sentHave⟩ : LogHeightStrategy).entryResponses =
      (new targetSet).entryResponses := by
  funext provider db remoteLogHeights
  exact entryResponses_congr rfl provider db remoteLogHeights

theorem mem_entryResponses {self : LogHeightStrategy} {provider : SchemaProvider} {db : Db}
    {remoteLogHeights : List LogHeights} {responses : List Message}
    (h : self.entryResponses provider db remoteLogHeights = some responses) {message : Message}
    (hmem : message ∈ responses) : ∃ entry operation, message = .entry entry operation := by
  unfold entryResponses at h
  obtain ⟨entries, -, rfl⟩ := Option.map_eq_some_iff.mp h
  obtain ⟨_, _, rfl⟩ := List.mem_map.mp hmem
  exact ⟨_, _, rfl⟩

theorem entryResponses_isSome {db : Db} (h : db.OperationsStored) (self : LogHeightStrategy)
    (provider : SchemaProvider) (remoteLogHeights : List LogHeights) :
    (self.entryResponses provider db remoteLogHeights).isSome := by
  rw [entryResponses, Option.isSome_map]
  exact retrieveEntries_isSome h _

/-- What `handle_message` does, its flags spelled out: it has sent its `Have` afterwards in any
case, answers the first remote `Have` with the entries the remote lacks, and fails otherwise. -/
theorem handleMessage_eq (self : LogHeightStrategy) (provider : SchemaProvider) (db : Db)
    (message : Message) :
    self.handleMessage provider db message =
      match message with
      | .have remoteLogHeights =>
        if self.receivedRemoteHave then
          some ({ self with sentHave := true },
            .error (.strategyFailed "Received Have from remote message twice"))
        else
          (self.entryResponses provider db remoteLogHeights).map fun response =>
            ({ self with sentHave := true, receivedRemoteHave := true },
              .ok ⟨(if self.sentHave then [] else [self.localHave provider db]) ++ response, true⟩)
      | _ => some ({ self with sentHave := true },
          .error (.strategyFailed "Received unknown message type")) := by
  obtain ⟨targetSet, receivedRemoteHave, sentHave⟩ := self
  cases sentHave <;> cases message <;>
    simp [handleMessage, initialMessages_fst, StrategyResult.merge, initialMessages_messages]

/-- After any message the strategy has sent its `Have`, also when it then fails. -/
theorem handleMessage_sentHave {self strategy : LogHeightStrategy} {provider : SchemaProvider}
    {db : Db} {message : Message} {out : Except ReplicationError StrategyResult}
    (h : self.handleMessage provider db message = some (strategy, out)) : strategy.sentHave = true := by
  rw [handleMessage_eq] at h
  split at h
  · split at h
    · cases h
      rfl
    · obtain ⟨_, -, h⟩ := Option.map_eq_some_iff.mp h
      cases h
      rfl
  · cases h
    rfl

theorem handleMessage_targetSet {self strategy : LogHeightStrategy} {provider : SchemaProvider}
    {db : Db} {message : Message} {out : Except ReplicationError StrategyResult}
    (h : self.handleMessage provider db message = some (strategy, out)) :
    strategy.targetSet = self.targetSet := by
  rw [handleMessage_eq] at h
  split at h
  · split at h
    · cases h
      rfl
    · obtain ⟨_, -, h⟩ := Option.map_eq_some_iff.mp h
      cases h
      rfl
  · cases h
    rfl

/-- A successful call handled the first remote `Have`: it answers with our `Have` if that was
not sent yet, then the entries the remote lacks, and the strategy is done. -/
theorem handleMessage_ok {self strategy : LogHeightStrategy} {provider : SchemaProvider} {db : Db}
    {message : Message} {result : StrategyResult}
    (h : self.handleMessage provider db message = some (strategy, .ok result)) :
    ∃ remoteLogHeights responses, message = .have remoteLogHeights ∧
      self.receivedRemoteHave = false ∧
      strategy = { self with sentHave := true, receivedRemoteHave := true } ∧
      result.isLocalDone = true ∧
      self.entryResponses provider db remoteLogHeights = some responses ∧
      result.messages = (if self.sentHave then [] else [self.localHave provider db]) ++ responses := by
  rw [handleMessage_eq] at h
  split at h
  · next remoteLogHeights =>
    split at h
    · cases h
    · next hreceived =>
      obtain ⟨responses, hresponses, h⟩ := Option.map_eq_some_iff.mp h
      cases h
      exact ⟨remoteLogHeights, responses, rfl, Bool.eq_false_iff.mpr hreceived, rfl, rfl, hresponses,
        rfl⟩
  · cases h

/-- A failed call only records that our `Have` is out. -/
theorem handleMessage_error {self strategy : LogHeightStrategy} {provider : SchemaProvider} {db : Db}
    {message : Message} {err : ReplicationError}
    (h : self.handleMessage provider db message = some (strategy, .error err)) :
    strategy = { self with sentHave := true } := by
  rw [handleMessage_eq] at h
  split at h
  · split at h
    · cases h
      rfl
    · obtain ⟨_, -, h⟩ := Option.map_eq_some_iff.mp h
      cases h
  · cases h
    rfl

/-- The call panics exactly on the first remote `Have` whose entries `retrieve_entries` panics
on. -/
theorem handleMessage_eq_none {self : LogHeightStrategy} {provider : SchemaProvider} {db : Db}
    {message : Message} :
    self.handleMessage provider db message = none ↔ ∃ remoteLogHeights,
      message = .have remoteLogHeights ∧ self.receivedRemoteHave = false ∧
      self.entryResponses provider db remoteLogHeights = none := by
  rw [handleMessage_eq]
  split
  · next remoteLogHeights =>
    split
    · next hreceived => simp [hreceived]
    · next hreceived => simp [Bool.eq_false_iff.mpr hreceived]
  · next hhave =>
    simp only [reduceCtorEq, false_iff, not_exists, not_and]
    exact fun remoteLogHeights hmessage => absurd hmessage (hhave remoteLogHeights)

end LogHeightStrategy

end Aquadoggo.Replication
