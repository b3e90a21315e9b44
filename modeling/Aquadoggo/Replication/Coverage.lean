import Mathlib.Data.List.Dedup
import Aquadoggo.Replication.Diff

/-! What a node announces in its `Have`, and what its answer to a remote `Have` covers. A
height is the largest sequence number the node holds in a log of an included document; the
answer carries every materialized entry of such a log above the height the remote announced
for it. -/
namespace Aquadoggo

open Library

/-! ### Heights -/

theorem le_foldl_max_init (entries : List EntryRow) (m : Nat) :
    m ≤ entries.foldl (fun m e => max m e.seqNum) m := by
  induction entries generalizing m with
  | nil => exact Nat.le_refl m
  | cons first rest ih => exact Nat.le_trans (Nat.le_max_left _ _) (ih _)

theorem le_foldl_max {entries : List EntryRow} {entry : EntryRow} (h : entry ∈ entries) (m : Nat) :
    entry.seqNum ≤ entries.foldl (fun m e => max m e.seqNum) m := by
  induction entries generalizing m with
  | nil => cases h
  | cons first rest ih =>
    rw [List.foldl_cons]
    rcases List.mem_cons.mp h with rfl | hrest
    · exact Nat.le_trans (Nat.le_max_right _ _) (le_foldl_max_init rest _)
    · exact ih hrest _

/-- The maximum is the start value or the sequence number of one of the entries. -/
theorem foldl_max_cases (entries : List EntryRow) (m : Nat) :
    entries.foldl (fun m e => max m e.seqNum) m = m ∨
      ∃ e ∈ entries, entries.foldl (fun m e => max m e.seqNum) m = e.seqNum := by
  induction entries generalizing m with
  | nil => exact .inl rfl
  | cons first rest ih =>
    rw [List.foldl_cons]
    rcases ih (max m first.seqNum) with hmax | ⟨e, he, hseq⟩
    · rw [hmax]
      rcases Nat.le_total m first.seqNum with hle | hge
      · exact .inr ⟨first, List.mem_cons_self, Nat.max_eq_right hle⟩
      · exact .inl (Nat.max_eq_left hge)
    · exact .inr ⟨e, List.mem_cons_of_mem _ he, hseq⟩

/-- The maximum over the entries that pass a filter, one of which is `first`, is the sequence
number of one of them. -/
theorem exists_foldl_max_filter (p : EntryRow → Bool) {entries : List EntryRow} {first : EntryRow}
    (hfirst : first ∈ entries) (hp : p first = true) :
    ∃ e ∈ entries, p e = true ∧ e.seqNum = (entries.filter p).foldl (fun m e => max m e.seqNum) 0 := by
  have hmem : first ∈ entries.filter p := List.mem_filter.mpr ⟨hfirst, hp⟩
  rcases foldl_max_cases (entries.filter p) 0 with hzero | ⟨e, he, hseq⟩
  · refine ⟨first, hfirst, hp, ?_⟩
    have hle := le_foldl_max hmem 0
    rw [hzero] at hle ⊢
    exact Nat.le_zero.mp hle
  · obtain ⟨he, hpe⟩ := List.mem_filter.mp he
    exact ⟨e, he, hpe, hseq.symm⟩

namespace Db

variable {db : Db} {documentIds : List DocumentId}

/-- Every entry of a log of one of the documents is counted in its log's row. -/
theorem logHeightRows_of_entry {entry : EntryRow} (hentry : entry ∈ db.entries) {log : LogRow}
    (hlog : log ∈ db.logs) (hkey : log.publicKey = entry.publicKey ∧ log.logId = entry.logId)
    (hdocument : log.document ∈ documentIds) :
    ∃ h, (entry.publicKey, entry.logId, h) ∈ db.logHeightRows documentIds ∧ entry.seqNum ≤ h := by
  have hjoined : entry ∈ db.entries.filter fun entry => db.logs.any fun log =>
      log.logId == entry.logId && log.publicKey == entry.publicKey &&
        documentIds.contains log.document := by
    refine List.mem_filter.mpr ⟨hentry, List.any_eq_true.mpr ⟨log, hlog, ?_⟩⟩
    simp [hkey.1, hkey.2, hdocument]
  simp only [logHeightRows, List.mem_mergeSort]
  refine ⟨_, List.mem_map.mpr ⟨(entry.publicKey, entry.logId),
    List.mem_dedup.mpr (List.mem_map.mpr ⟨entry, hjoined, rfl⟩), rfl⟩, ?_⟩
  exact le_foldl_max (List.mem_filter.mpr ⟨hjoined, by simp⟩) 0

/-- A row's height is the sequence number of an entry of its log. -/
theorem entry_of_logHeightRows {publicKey : PublicKey} {logId : LogId} {h : SeqNum}
    (hrow : (publicKey, logId, h) ∈ db.logHeightRows documentIds) :
    ∃ entry ∈ db.entries, entry.publicKey = publicKey ∧ entry.logId = logId ∧ entry.seqNum = h := by
  rw [logHeightRows, List.mem_mergeSort] at hrow
  obtain ⟨⟨publicKey', logId'⟩, hlog, hrow⟩ := List.mem_map.mp hrow
  obtain ⟨first, hfirst, hkey⟩ := List.mem_map.mp (List.mem_dedup.mp hlog)
  simp only [Prod.mk.injEq] at hrow hkey
  obtain ⟨rfl, rfl, rfl⟩ := hrow
  obtain ⟨rfl, rfl⟩ := hkey
  obtain ⟨e, hjoined, hsame, hseq⟩ := exists_foldl_max_filter
    (fun entry => entry.publicKey == first.publicKey && entry.logId == first.logId) hfirst (by simp)
  simp only [Bool.and_eq_true, beq_iff_eq] at hsame
  exact ⟨e, (List.mem_filter.mp hjoined).1, hsame.1, hsame.2, hseq⟩

/-- The query groups by `(public_key, log_id)`: one row per log. -/
theorem logHeightRows_keys_nodup (db : Db) (documentIds : List DocumentId) :
    ((db.logHeightRows documentIds).map fun row => (row.1, row.2.1)).Nodup := by
  rw [logHeightRows]
  refine ((List.mergeSort_perm _ _).map _).nodup_iff.mpr ?_
  rw [List.map_map]
  convert List.nodup_dedup _ using 1
  conv_rhs => rw [← List.map_id (List.dedup _)]
  rfl

/-! ### Stores that replicate -/

/-- What a store holds for its entries in p2panda: each under the hash of its bytes and with
its operation, at a sequence number from `1`; and a log holds every sequence number up to each
of its entries. -/
structure Replicable (db : Db) (entryHash : Replication.EncodedEntry → String) : Prop where
  hash : ∀ row ∈ db.entries, entryHash ⟨row.entryBytes⟩ = row.entryHash
  operation : ∀ row ∈ db.entries, (db.getOperation ⟨row.entryHash⟩).isSome
  seqNum_pos : ∀ row ∈ db.entries, 1 ≤ row.seqNum
  contiguous : ∀ row ∈ db.entries, ∀ seqNum, 1 ≤ seqNum → seqNum ≤ row.seqNum →
    ∃ prev ∈ db.entries, prev.publicKey = row.publicKey ∧ prev.logId = row.logId ∧
      prev.seqNum = seqNum

/-- No author holds two different entries at one sequence number of one log across the two
stores. -/
def NoFork (db other : Db) : Prop :=
  ∀ row ∈ db.entries, ∀ row' ∈ other.entries, row.publicKey = row'.publicKey →
    row.logId = row'.logId → row.seqNum = row'.seqNum → row.entryHash = row'.entryHash

theorem NoFork.symm {other : Db} (h : db.NoFork other) : other.NoFork db :=
  fun row hrow row' hrow' hkey hlog hseq =>
    (h row' hrow' row hrow hkey.symm hlog.symm hseq.symm).symm

/-- Every entry `db` holds in a log of a document it replicates for the target set is held,
by hash, in `target`. -/
def ReplicatedTo (db : Db) (provider : Replication.SchemaProvider)
    (targetSet : Replication.SchemaIdSet) (target : Db) : Prop :=
  ∀ documentId ∈ (Replication.LogHeightStrategy.new targetSet).includedDocumentIds provider db,
    ∀ log ∈ db.logs, log.document = documentId →
      ∀ entry ∈ db.entries, entry.publicKey = log.publicKey → entry.logId = log.logId →
        ∃ row ∈ target.entries, row.entryHash = entry.entryHash

end Db

namespace Replication

open LogHeightStrategy

variable {db : Db} {documentIds : List DocumentId}

/-- The `(public key, (log id, height))` pairs `get_document_log_heights` groups by author. -/
def heightPairs (db : Db) (documentIds : List DocumentId) : List (PublicKey × (LogId × SeqNum)) :=
  (db.logHeightRows documentIds).map fun row => (row.1, (row.2.1, row.2.2))

theorem getDocumentLogHeights_eq (db : Db) (documentIds : List DocumentId) :
    db.getDocumentLogHeights documentIds =
      if documentIds.isEmpty then [] else groupByKey (heightPairs db documentIds) := by
  rfl

theorem getDocumentLogHeights_keys_nodup (db : Db) (documentIds : List DocumentId) :
    ((db.getDocumentLogHeights documentIds).map (·.1)).Nodup := by
  rw [getDocumentLogHeights_eq]
  split
  · exact List.nodup_nil
  · exact keys_nodup_groupByKey _

theorem mem_localLogHeights {publicKey : PublicKey} {logs : List (LogId × SeqNum)} :
    (publicKey, logs) ∈ localLogHeights db documentIds ↔
      documentIds ≠ [] ∧ (publicKey, logs) ∈ groupByKey (heightPairs db documentIds) := by
  rw [localLogHeights, mem_collectMap (getDocumentLogHeights_keys_nodup db documentIds),
    getDocumentLogHeights_eq]
  by_cases hempty : documentIds = []
  · simp [hempty]
  · simp [hempty]

/-- Every row of the height query is announced under its author. -/
theorem localLogHeights_of_row {publicKey : PublicKey} {logId : LogId} {h : SeqNum}
    (hne : documentIds ≠ []) (hrow : (publicKey, logId, h) ∈ db.logHeightRows documentIds) :
    ∃ logs, (publicKey, logs) ∈ localLogHeights db documentIds ∧ (logId, h) ∈ logs := by
  have hpair : (publicKey, (logId, h)) ∈ heightPairs db documentIds :=
    List.mem_map.mpr ⟨_, hrow, rfl⟩
  refine ⟨_, mem_localLogHeights.mpr ⟨hne, (mem_groupByKey _ _ _).mpr ⟨?_, rfl⟩⟩, ?_⟩
  · exact List.any_eq_true.mpr ⟨_, hpair, by simp⟩
  · exact List.mem_map.mpr ⟨_, List.mem_filter.mpr ⟨hpair, by simp⟩, rfl⟩

/-- Every announced height is a row of the height query. -/
theorem row_of_localLogHeights {publicKey : PublicKey} {logs : List (LogId × SeqNum)}
    (hmem : (publicKey, logs) ∈ localLogHeights db documentIds) {logId : LogId} {h : SeqNum}
    (hlog : (logId, h) ∈ logs) : (publicKey, logId, h) ∈ db.logHeightRows documentIds := by
  obtain ⟨-, hgroup⟩ := mem_localLogHeights.mp hmem
  obtain ⟨-, rfl⟩ := (mem_groupByKey _ _ _).mp hgroup
  obtain ⟨pair, hpair, hsnd⟩ := List.mem_map.mp hlog
  obtain ⟨hpair, hkey⟩ := List.mem_filter.mp hpair
  obtain ⟨row, hrow, rfl⟩ := List.mem_map.mp hpair
  simp only [beq_iff_eq] at hkey
  subst hkey
  cases hsnd
  exact hrow

/-- An author's announced logs are distinct. -/
theorem localLogHeights_logs_nodup {publicKey : PublicKey} {logs : List (LogId × SeqNum)}
    (hmem : (publicKey, logs) ∈ localLogHeights db documentIds) : (logs.map (·.1)).Nodup := by
  obtain ⟨-, hgroup⟩ := mem_localLogHeights.mp hmem
  obtain ⟨-, rfl⟩ := (mem_groupByKey _ _ _).mp hgroup
  set group := (heightPairs db documentIds).filter (·.1 == publicKey)
  -- Within one author the `(public key, log id)` keys of the rows are the log ids.
  have hkeys : (group.map fun pair => (pair.1, pair.2.1)).Nodup := by
    refine List.Nodup.sublist (List.filter_sublist.map _) ?_
    simpa [heightPairs, List.map_map, Function.comp_def] using Db.logHeightRows_keys_nodup db
      documentIds
  have hsame : group.map (fun pair => (pair.1, pair.2.1)) =
      (group.map fun pair => pair.2.1).map (Prod.mk publicKey) := by
    rw [List.map_map]
    refine List.map_congr_left fun pair hpair => ?_
    simp only [Function.comp_apply, Prod.mk.injEq, and_true]
    simpa using (List.mem_filter.mp hpair).2
  rw [hsame] at hkeys
  simpa [List.map_map, Function.comp_def] using hkeys.of_map _

/-- An announced height is the sequence number of an entry of the log. -/
theorem entry_of_localLogHeights {publicKey : PublicKey} {logs : List (LogId × SeqNum)}
    (hmem : (publicKey, logs) ∈ localLogHeights db documentIds) {logId : LogId} {h : SeqNum}
    (hlog : (logId, h) ∈ logs) :
    ∃ entry ∈ db.entries, entry.publicKey = publicKey ∧ entry.logId = logId ∧ entry.seqNum = h :=
  Db.entry_of_logHeightRows (row_of_localLogHeights hmem hlog)

/-! ### What the answer covers -/

/-- An entry whose operation is materialized is retrieved with every log it needs to be in. -/
theorem mem_retrieveEntries_of_needs {remoteNeeds : List LogHeights} {publicKey : PublicKey}
    {logs : List (LogId × SeqNum)} (hneeds : (publicKey, logs) ∈ remoteNeeds) {logId : LogId}
    {f : SeqNum} (hlog : (logId, f) ∈ logs) {entry : EntryRow} (hentry : entry ∈ db.entries)
    (hkey : entry.publicKey = publicKey ∧ entry.logId = logId) (hf : f ≤ entry.seqNum)
    {op : OperationRow} (hop : db.getOperation ⟨entry.entryHash⟩ = some op) {index : Nat}
    (hindex : op.sortedIndex = some index) {entries : List (EntryRow × DocumentId × Nat)}
    (hretrieved : retrieveEntries db remoteNeeds = some entries) :
    (entry, op.documentId, index) ∈ entries := by
  have hfrom : entry ∈ db.getEntriesFrom publicKey logId f := by
    rw [Db.getEntriesFrom, List.mem_mergeSort]
    exact List.mem_filter.mpr ⟨hentry, by simp [hkey.1, hkey.2, hf]⟩
  -- The loops over the authors and their logs went through, so the entry's log was read.
  obtain ⟨all, hall, -⟩ := retrieveEntries_eq_some hretrieved
  obtain ⟨ofAuthor, hauthor⟩ := exists_of_flatMapM_eq_some hall hneeds
  obtain ⟨ofLog, hofLog⟩ := exists_of_flatMapM_eq_some hauthor hlog
  refine (mem_retrieveEntries_iff hretrieved).mpr ⟨_, hneeds, _, hlog, ofLog, hofLog, ?_⟩
  exact (mem_logEntries hofLog).mpr ⟨entry, hfrom, op, hop, index, hindex, rfl⟩

variable (strategy : LogHeightStrategy) (provider : SchemaProvider)

/-- What the answer to a remote `Have` covers: an entry of a log that holds an included
document, whose operation is materialized, is sent unless the remote announced the log at least
as high as the entry. -/
theorem entryResponses_covers {remoteLogHeights : List LogHeights}
    (hremote : (remoteLogHeights.map (·.1)).Nodup)
    (hremoteLogs : ∀ author ∈ remoteLogHeights, (author.2.map (·.1)).Nodup)
    {entry : EntryRow} (hentry : entry ∈ db.entries) (hseq : 1 ≤ entry.seqNum) {log : LogRow}
    (hlog : log ∈ db.logs) (hkey : log.publicKey = entry.publicKey ∧ log.logId = entry.logId)
    (hincluded : log.document ∈ strategy.includedDocumentIds provider db) {op : OperationRow}
    (hop : db.getOperation ⟨entry.entryHash⟩ = some op) (hmaterialized : op.sortedIndex.isSome)
    {responses : List Message}
    (hresponses : strategy.entryResponses provider db remoteLogHeights = some responses) :
    Message.entry ⟨entry.entryBytes⟩ (entry.payloadBytes.map EncodedOperation.mk) ∈ responses ∨
      ∃ remoteLogs r, (entry.publicKey, remoteLogs) ∈ remoteLogHeights ∧
        (entry.logId, r) ∈ remoteLogs ∧ entry.seqNum ≤ r := by
  by_cases hannounced : ∃ remoteLogs r, (entry.publicKey, remoteLogs) ∈ remoteLogHeights ∧
      (entry.logId, r) ∈ remoteLogs ∧ entry.seqNum ≤ r
  · exact .inr hannounced
  left
  have hcollect := mem_collectMap hremote
  -- Our height of the log, at least the entry's sequence number.
  obtain ⟨h, hrow, hle⟩ := Db.logHeightRows_of_entry hentry hlog hkey hincluded
  obtain ⟨localLogs, hlocal, hl⟩ := localLogHeights_of_row (List.ne_nil_of_mem hincluded) hrow
  -- The first sequence number the remote lacks is at most the entry's.
  obtain ⟨f, hlacks, hf⟩ : ∃ f, RemoteLacks (collectMap remoteLogHeights) entry.publicKey
      entry.logId h f ∧ f ≤ entry.seqNum := by
    by_cases hheld : ∃ remoteLogs r, (entry.publicKey, remoteLogs) ∈ remoteLogHeights ∧
        (entry.logId, r) ∈ remoteLogs
    · obtain ⟨remoteLogs, r, hk, hr⟩ := hheld
      have hlt : r < entry.seqNum := Nat.lt_of_not_le fun hge => hannounced ⟨remoteLogs, r, hk, hr, hge⟩
      exact ⟨r + 1, .inr ⟨remoteLogs, r, (hcollect _ _).mpr hk, hr, Nat.lt_of_lt_of_le hlt hle, rfl⟩, hlt⟩
    · exact ⟨1, .inl ⟨fun remoteLogs hk r hr => hheld ⟨remoteLogs, r, (hcollect _ _).mp hk, hr⟩,
        rfl⟩, hseq⟩
  obtain ⟨logs, hneeds, hlog'⟩ := (mem_logs_diffLogHeights_iff (keys_nodup_collectMap _)
    (fun k logs hk => hremoteLogs (k, logs) ((hcollect k logs).mp hk))
    (fun author hmem => localLogHeights_logs_nodup hmem) _ _ _).mpr ⟨localLogs, h, hlocal, hl, hlacks⟩
  obtain ⟨index, hindex⟩ := Option.isSome_iff_exists.mp hmaterialized
  rw [entryResponses] at hresponses
  obtain ⟨entries, hentries, rfl⟩ := Option.map_eq_some_iff.mp hresponses
  exact List.mem_map.mpr ⟨_, mem_retrieveEntries_of_needs hneeds hlog' hentry ⟨rfl, rfl⟩ hf hop
    hindex hentries, rfl⟩

/-- `target` holds each entry of `messages` under the hash `entryHash` gives it. -/
def HoldsEntries (target : Db) (entryHash : EncodedEntry → String) (messages : List Message) : Prop :=
  ∀ message ∈ messages, ∀ entry operation, message = .entry entry operation →
    ∃ row ∈ target.entries, row.entryHash = entryHash entry

/-- The answer to the remote's `Have` and what the remote held before together cover every log
of an included document. A height announced at least as high as an entry stands for that entry
itself: the remote's logs have no gaps, and no author forked a log across the two stores. -/
theorem replicatedTo_of_entryResponses {entryHash : EncodedEntry → String} {remote target : Db}
    {remoteProvider : SchemaProvider} {targetSet : SchemaIdSet} (hsource : db.Replicable entryHash)
    (hmaterialized : ∀ op ∈ db.operations, op.sortedIndex.isSome)
    (hremote : remote.Replicable entryHash) (hfork : db.NoFork remote)
    (hkept : remote.entries ⊆ target.entries) {responses : List Message}
    (hresponses : (LogHeightStrategy.new targetSet).entryResponses provider db (localLogHeights
      remote ((LogHeightStrategy.new targetSet).includedDocumentIds remoteProvider remote)) =
        some responses)
    (hsent : HoldsEntries target entryHash responses) :
    db.ReplicatedTo provider targetSet target := by
  intro documentId hincluded log hlog hdocument entry hentry hkey hlogId
  obtain ⟨op, hop⟩ := Option.isSome_iff_exists.mp (hsource.operation entry hentry)
  have hseq := hsource.seqNum_pos entry hentry
  rcases entryResponses_covers (LogHeightStrategy.new targetSet) provider
      (keys_nodup_collectMap _) (fun author hmem => localLogHeights_logs_nodup hmem) hentry hseq
      hlog ⟨hkey.symm, hlogId.symm⟩ (hdocument ▸ hincluded) hop
      (hmaterialized op (List.mem_of_find?_eq_some hop)) hresponses with hmessage | ⟨remoteLogs, r, hk, hr, hle⟩
  · -- Sent: the remote stores it under the hash of its bytes.
    obtain ⟨row, hrow, hhash⟩ := hsent _ hmessage _ _ rfl
    exact ⟨row, hrow, hhash.trans (hsource.hash entry hentry)⟩
  · -- Announced: the remote holds the log up to `r`, so an entry at the same position.
    obtain ⟨top, htop, htopKey, htopLog, rfl⟩ := entry_of_localLogHeights hk hr
    obtain ⟨prev, hprev, hprevKey, hprevLog, hprevSeq⟩ :=
      hremote.contiguous top htop entry.seqNum hseq hle
    refine ⟨prev, hkept hprev, (hfork entry hentry prev hprev ?_ ?_ hprevSeq.symm).symm⟩
    · rw [hprevKey, htopKey]
    · rw [hprevLog, htopLog]

end Replication

end Aquadoggo
