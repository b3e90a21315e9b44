import Aquadoggo.Replication.Manager

/-! `migrate` (`api/migration.rs`): publish the commits of a lock file the store does not hold
yet, and check those it holds against the hash the lock file gives. The loop publishes commit
after commit, so a failing commit leaves the ones before it in the store: `migrate` returns the
store next to its result. -/
namespace Aquadoggo

open Replication

/-- A `Commit` of a lock file: an entry, its operation and the hash the file states for it. -/
structure Commit where
  entryHash : String
  entry : EncodedEntry
  operation : EncodedOperation
deriving DecidableEq, Repr

structure LockFile where
  commits : Option (List Commit)
deriving DecidableEq, Repr

/-- p2panda-rs `decode_entry`, read for the log position of an entry. -/
abbrev DecodeEntry := EncodedEntry → Option (PublicKey × LogId × SeqNum)

/-- The body of the loop of `migrate` for one commit: the store after it, and the operation id
it pushes when it published the commit. -/
def migrateCommit (p : P2panda) (decodeEntry : DecodeEntry) (schemaProvider : SchemaProvider)
    (store : Db) (commit : Commit) : Except String (Db × Option OperationId) := do
  let some (publicKey, logId, seqNum) := decodeEntry commit.entry
    | throw "Invalid entry encoding encountered in lock file"
  match store.getEntryAtSeqNum publicKey logId seqNum with
  | some existingEntry =>
    -- `StorageEntry::hash` hashes the stored bytes of the entry.
    if p.entryHash ⟨existingEntry.entryBytes⟩ ≠ commit.entryHash then
      throw "Integrity check failed when comparing planned and existing commit"
    pure (store, none)
  | none =>
    let some schemaId := p.decodeOperation commit.operation
      | throw "Invalid operation encoding encountered in lock file"
    let some schema := schemaProvider.get schemaId
      | throw "Could not migrate commit with unknown schema id"
    match p.publish store schema commit.entry commit.operation with
    | .ok next => pure (next, some ⟨commit.entryHash⟩)
    | .error _ => throw "Internal database error occurred while publishing migration commit"

/-- `migrate`: the commits in order, the operation ids of the published ones collected. -/
def migrate (p : P2panda) (decodeEntry : DecodeEntry) (store : Db) (schemaProvider : SchemaProvider)
    (lockFile : LockFile) : Db × Except String (List OperationId) :=
  go store [] (lockFile.commits.getD [])
where
  go (store : Db) (committedOperations : List OperationId) :
      List Commit → Db × Except String (List OperationId)
    | [] => (store, .ok committedOperations)
    | commit :: commits =>
      match migrateCommit p decodeEntry schemaProvider store commit with
      | .error error => (store, .error error)
      | .ok (next, pushed) => go next (committedOperations ++ pushed.toList) commits

/-- What migrating a lock file twice relies on of p2panda-rs `publish`: it appends one entry row, at
the position `decode_entry` reads from the entry and with the entry's own bytes. -/
structure Replication.P2panda.PublishesAt (p : P2panda) (decodeEntry : DecodeEntry) : Prop where
  appends {store next : Db} {schema : Schema} {entry : EncodedEntry} {operation : EncodedOperation} :
    p.publish store schema entry operation = .ok next →
      ∃ row, next.entries = store.entries ++ [row] ∧
        decodeEntry entry = some (row.publicKey, row.logId, row.seqNum) ∧
        row.entryBytes = entry.bytes

/-- The store holds a commit: the entry at the position of the commit's entry has the hash the
lock file states. -/
def Db.HoldsCommit (store : Db) (p : P2panda) (decodeEntry : DecodeEntry) (commit : Commit) : Prop :=
  ∃ publicKey logId seqNum row, decodeEntry commit.entry = some (publicKey, logId, seqNum) ∧
    store.getEntryAtSeqNum publicKey logId seqNum = some row ∧
    p.entryHash ⟨row.entryBytes⟩ = commit.entryHash

section Run

variable {p : P2panda} {decodeEntry : DecodeEntry} {schemaProvider : SchemaProvider}

/-- What one commit can do: pass the integrity check of a commit the store holds, or publish
a commit whose position is empty. -/
theorem migrateCommit_eq_ok {store next : Db} {commit : Commit} {pushed : Option OperationId}
    (h : migrateCommit p decodeEntry schemaProvider store commit = .ok (next, pushed)) :
    (next = store ∧ pushed = none ∧ store.HoldsCommit p decodeEntry commit) ∨
      (pushed = some ⟨commit.entryHash⟩ ∧ ∃ publicKey logId seqNum schema,
        decodeEntry commit.entry = some (publicKey, logId, seqNum) ∧
        store.getEntryAtSeqNum publicKey logId seqNum = none ∧
        p.publish store schema commit.entry commit.operation = .ok next) := by
  unfold migrateCommit at h
  dsimp only at h
  split at h
  next publicKey logId seqNum hdecode =>
    split at h
    next row hrow =>
      split at h
      next => cases h
      next hhash =>
        cases h
        exact .inl ⟨rfl, rfl, publicKey, logId, seqNum, row, hdecode, hrow, not_not.mp hhash⟩
    next hnone =>
      split at h
      next schemaId _ =>
        split at h
        next schema _ =>
          split at h
          next hpublish =>
            cases h
            exact .inr ⟨rfl, publicKey, logId, seqNum, schema, hdecode, hnone, hpublish⟩
          next => cases h
        next => cases h
      next => cases h
  next => cases h

theorem Db.HoldsCommit.of_append {store next : Db} {rows : List EntryRow} {commit : Commit}
    (hentries : next.entries = store.entries ++ rows) (h : store.HoldsCommit p decodeEntry commit) :
    next.HoldsCommit p decodeEntry commit := by
  obtain ⟨publicKey, logId, seqNum, row, hdecode, hrow, hhash⟩ := h
  exact ⟨publicKey, logId, seqNum, row, hdecode, Db.getEntryAtSeqNum_append hentries hrow, hhash⟩

/-- A commit the store holds passes its integrity check and leaves the store as it is. -/
theorem migrateCommit_of_holds {store : Db} {commit : Commit}
    (h : store.HoldsCommit p decodeEntry commit) :
    migrateCommit p decodeEntry schemaProvider store commit = .ok (store, none) := by
  obtain ⟨publicKey, logId, seqNum, row, hdecode, hrow, hhash⟩ := h
  simp only [migrateCommit, hdecode, hrow, hhash, ne_eq, not_true_eq_false, if_false]
  rfl

/-- Publishing a commit that carries its entry's hash appends the one row that then holds it. -/
theorem publish_holdsCommit (hp : p.PublishesAt decodeEntry) {store next : Db} {commit : Commit}
    {publicKey : PublicKey} {logId : LogId} {seqNum : SeqNum} {schema : Schema}
    (hconsistent : commit.entryHash = p.entryHash commit.entry)
    (hdecode : decodeEntry commit.entry = some (publicKey, logId, seqNum))
    (hnone : store.getEntryAtSeqNum publicKey logId seqNum = none)
    (hpublish : p.publish store schema commit.entry commit.operation = .ok next) :
    ∃ row, next.entries = store.entries ++ [row] ∧ p.entryHash ⟨row.entryBytes⟩ = commit.entryHash ∧
      next.HoldsCommit p decodeEntry commit := by
  obtain ⟨row, hentries, hposition, hbytes⟩ := hp.appends hpublish
  rw [hdecode] at hposition
  cases hposition
  have hhash : p.entryHash ⟨row.entryBytes⟩ = commit.entryHash := by rw [hbytes, hconsistent]
  exact ⟨row, hentries, hhash, _, _, _, row, hdecode,
    Db.getEntryAtSeqNum_append_self hentries hnone, hhash⟩

/-- The run lemma of the loop: over commits that carry their entries' hashes, a loop that ends
`Ok` appended rows whose hashes it pushed, in order, and holds every commit it went through. -/
theorem migrate_go_eq_ok (hp : p.PublishesAt decodeEntry) {commits : List Commit}
    (hconsistent : ∀ commit ∈ commits, commit.entryHash = p.entryHash commit.entry) :
    ∀ {store next : Db} {committed ids : List OperationId},
      migrate.go p decodeEntry schemaProvider store committed commits = (next, .ok ids) →
      ∃ inserted, next.entries = store.entries ++ inserted ∧
        ids = committed ++ inserted.map (fun row => ⟨p.entryHash ⟨row.entryBytes⟩⟩) ∧
        ∀ commit ∈ commits, next.HoldsCommit p decodeEntry commit := by
  induction commits with
  | nil =>
    intro store next committed ids h
    cases h
    exact ⟨[], by simp, by simp, by simp⟩
  | cons commit commits ih =>
    intro store next committed ids h
    have hrest := @ih (List.forall_mem_cons.mp hconsistent).2
    unfold migrate.go at h
    split at h
    next => cases h
    next mid pushed hcommit =>
      rcases migrateCommit_eq_ok hcommit with
        ⟨rfl, rfl, hholds⟩ | ⟨rfl, publicKey, logId, seqNum, schema, hdecode, hnone, hpublish⟩
      · -- The commit was held: nothing is pushed and the store is the same.
        obtain ⟨inserted, hentries, hids, hheld⟩ := hrest h
        exact ⟨inserted, hentries, by simpa using hids,
          List.forall_mem_cons.mpr ⟨hholds.of_append hentries, hheld⟩⟩
      · -- The commit was published: one row is appended and its hash pushed.
        obtain ⟨row, hmid, hhash, hholds⟩ :=
          publish_holdsCommit hp (hconsistent commit (by simp)) hdecode hnone hpublish
        obtain ⟨inserted, hentries, hids, hheld⟩ := hrest h
        exact ⟨row :: inserted, by simp [hentries, hmid], by simp [hids, hhash],
          List.forall_mem_cons.mpr ⟨hholds.of_append hentries, hheld⟩⟩

/-- A loop over commits the store holds changes nothing and pushes nothing. -/
theorem migrate_go_of_holds {store : Db} {commits : List Commit}
    (hheld : ∀ commit ∈ commits, store.HoldsCommit p decodeEntry commit) (committed : List OperationId) :
    migrate.go p decodeEntry schemaProvider store committed commits = (store, .ok committed) := by
  induction commits with
  | nil => rfl
  | cons commit commits ih =>
    unfold migrate.go
    rw [migrateCommit_of_holds (hheld commit (by simp))]
    simpa using ih (List.forall_mem_cons.mp hheld).2

/-- Migrating a lock file whose commits carry their entries' hashes reports the hashes of the
entries it appended, in commit order, and migrating it again on the result changes nothing. -/
theorem migrate_consistent_idempotent (hp : p.PublishesAt decodeEntry) {store next : Db}
    {lockFile : LockFile} {ids : List OperationId}
    (hconsistent : ∀ commit ∈ lockFile.commits.getD [], commit.entryHash = p.entryHash commit.entry)
    (h : migrate p decodeEntry store schemaProvider lockFile = (next, .ok ids)) :
    ∃ inserted, next.entries = store.entries ++ inserted ∧
      ids = inserted.map (fun row => ⟨p.entryHash ⟨row.entryBytes⟩⟩) ∧
      migrate p decodeEntry next schemaProvider lockFile = (next, .ok []) := by
  obtain ⟨inserted, hentries, hids, hheld⟩ := migrate_go_eq_ok hp hconsistent h
  exact ⟨inserted, hentries, by simpa using hids, migrate_go_of_holds hheld []⟩

end Run

/-- A p2panda whose hash of an entry is its bytes, and whose `publish` appends the entry at
sequence number 1 of log 0 of one author, where `decode_entry` places every entry. -/
def oneLogP2panda : P2panda where
  entryHash entry := entry.bytes
  decodeOperation _ := some (.schemaDefinition 1)
  publish store _ entry _ :=
    .ok { store with entries := store.entries ++ [⟨⟨"author"⟩, entry.bytes, entry.bytes, 0, none, 1⟩] }

def oneLogDecodeEntry : DecodeEntry := fun _ => some (⟨"author"⟩, 0, 1)

def oneLogSchemaProvider : SchemaProvider := ⟨[⟨.schemaDefinition 1, []⟩]⟩

/-- A lock file whose one commit states a hash that is not the hash of its entry. -/
def mismatchedLockFile : LockFile := ⟨some [⟨"other", ⟨"entry"⟩, ⟨"operation"⟩⟩]⟩

/-- `migrate` pushes the hash the lock file states, never the hash of the entry it publishes:
on a lock file whose hash does not match its entry it reports an operation id that no stored
entry has, and migrating the same file again fails the integrity check. -/
theorem migrate_reports_unchecked_hash :
    oneLogP2panda.PublishesAt oneLogDecodeEntry ∧
      ∃ next, migrate oneLogP2panda oneLogDecodeEntry Db.empty oneLogSchemaProvider
          mismatchedLockFile = (next, .ok [⟨"other"⟩]) ∧
        next.entries.map (fun row => oneLogP2panda.entryHash ⟨row.entryBytes⟩) = ["entry"] ∧
        migrate oneLogP2panda oneLogDecodeEntry next oneLogSchemaProvider mismatchedLockFile =
          (next, .error "Integrity check failed when comparing planned and existing commit") := by
  refine ⟨⟨?_⟩, { Db.empty with entries := [⟨⟨"author"⟩, "entry", "entry", 0, none, 1⟩] }, ?_, rfl, ?_⟩
  · intro store next schema entry operation h
    cases h
    exact ⟨_, rfl, rfl, rfl⟩
  · decide +kernel
  · decide +kernel

theorem oneLogP2panda_publishesAt : oneLogP2panda.PublishesAt oneLogDecodeEntry where
  appends h := by
    cases h
    exact ⟨_, rfl, rfl, rfl⟩

/-- A lock file whose one commit states the hash of its entry. -/
def consistentLockFile : LockFile := ⟨some [⟨"entry", ⟨"entry"⟩, ⟨"operation"⟩⟩]⟩

/-- Migrating it reports the entry it published, and migrating it again changes nothing. -/
theorem consistent_lock_file_migrates_once :
    ∃ next, migrate oneLogP2panda oneLogDecodeEntry Db.empty oneLogSchemaProvider consistentLockFile =
        (next, .ok [⟨"entry"⟩]) ∧
      ∃ inserted, next.entries = Db.empty.entries ++ inserted ∧
        ([⟨"entry"⟩] : List OperationId) =
          inserted.map (fun row => (⟨oneLogP2panda.entryHash ⟨row.entryBytes⟩⟩ : OperationId)) ∧
        migrate oneLogP2panda oneLogDecodeEntry next oneLogSchemaProvider consistentLockFile = (next, .ok []) := by
  have hmigrate : migrate oneLogP2panda oneLogDecodeEntry Db.empty oneLogSchemaProvider consistentLockFile =
      ({ Db.empty with entries := [⟨⟨"author"⟩, "entry", "entry", 0, none, 1⟩] }, .ok [⟨"entry"⟩]) := by
    decide +kernel
  exact ⟨_, hmigrate, migrate_consistent_idempotent oneLogP2panda_publishesAt (by decide) hmigrate⟩

end Aquadoggo
