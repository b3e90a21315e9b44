import Mathlib.Data.String.Basic
import Aquadoggo.Materializer.Reduce
import Aquadoggo.Replication.LogHeight

/-! The order of the entries `entry_responses` sends. `retrieve_entries` sorts them by
document and by `sorted_index`, the position that the reduce task wrote for each operation in
the order `DocumentBuilder` gives a document's operations. That order follows the operation
graph, and nothing else: it is not the order of sequence numbers within a log. -/
namespace Aquadoggo

/-- Sorted indexes that follow the operation graph: the operations in an operation's
`previous` belong to its document and have smaller indexes. -/
def PreviousIndexed (db : Db) : Prop :=
  ∀ operationId op, db.getOperation operationId = some op → ∀ previousId ∈ op.previousIds,
    ∀ previous, db.getOperation previousId = some previous →
      previous.documentId = op.documentId ∧
        ∀ index, op.sortedIndex = some index →
          ∃ previousIndex, previous.sortedIndex = some previousIndex ∧ previousIndex < index

/-- A consistent operations table has sorted indexes that follow the graph. -/
theorem previousIndexed_of_consistent {db : Db} (h : Db.Consistent db.operations) :
    PreviousIndexed db := by
  intro operationId op hop previousId hmem previous hprevious
  have hopMem := List.mem_of_find?_eq_some hop
  have hpreviousMem := List.mem_of_find?_eq_some hprevious
  obtain rfl : previous.operationId = previousId := by simpa using List.find?_some hprevious
  exact ⟨h.previous_documentId hopMem hpreviousMem hmem,
    h.previous_indexed op hopMem previous hpreviousMem hmem⟩

namespace Replication

open Library

theorem entryOrderLe_trans (a b c : EntryRow × DocumentId × Nat) :
    entryOrderLe a b = true → entryOrderLe b c = true → entryOrderLe a c = true := by
  simp only [entryOrderLe, Bool.or_eq_true, decide_eq_true_eq, Bool.and_eq_true, beq_iff_eq]
  rintro (hab | ⟨hab, hab'⟩) (hbc | ⟨hbc, hbc'⟩)
  · exact .inl (lt_trans hab hbc)
  · exact .inl (hbc ▸ hab)
  · exact .inl (hab ▸ hbc)
  · exact .inr ⟨hab.trans hbc, Nat.le_trans hab' hbc'⟩

theorem entryOrderLe_total (a b : EntryRow × DocumentId × Nat) :
    (entryOrderLe a b || entryOrderLe b a) = true := by
  simp only [entryOrderLe, Bool.or_eq_true, decide_eq_true_eq, Bool.and_eq_true, beq_iff_eq]
  rcases lt_trichotomy a.2.1.hash b.2.1.hash with hlt | heq | hgt
  · exact .inl (.inl hlt)
  · have hdoc : a.2.1 = b.2.1 := by
      cases ha : a.2.1
      cases hb : b.2.1
      simp_all
    rcases Nat.le_total a.2.2 b.2.2 with hle | hge
    · exact .inl (.inr ⟨hdoc, hle⟩)
    · exact .inr (.inr ⟨hdoc.symm, hge⟩)
  · exact .inr (.inl hgt)

theorem retrieveEntries_sorted {db : Db} {remoteNeeds : List LogHeights}
    {entries : List (EntryRow × DocumentId × Nat)} (h : retrieveEntries db remoteNeeds = some entries) :
    entries.Pairwise (fun a b => entryOrderLe a b = true) := by
  obtain ⟨all, -, rfl⟩ := retrieveEntries_eq_some h
  exact List.pairwise_mergeSort entryOrderLe_trans entryOrderLe_total _

/-- Each retrieved entry comes with the document and the sorted index of its operation. -/
theorem mem_retrieveEntries {db : Db} {remoteNeeds : List LogHeights}
    {entries : List (EntryRow × DocumentId × Nat)} (h : retrieveEntries db remoteNeeds = some entries)
    {x : EntryRow × DocumentId × Nat} (hx : x ∈ entries) :
    ∃ op, db.getOperation ⟨x.1.entryHash⟩ = some op ∧ x.2.1 = op.documentId ∧
      op.sortedIndex = some x.2.2 := by
  obtain ⟨_, -, _, -, ofLog, hofLog, hmem⟩ := (mem_retrieveEntries_iff h).mp hx
  obtain ⟨_, -, op, hop, index, hindex, rfl⟩ := (mem_logEntries hofLog).mp hmem
  exact ⟨op, hop, rfl, hindex⟩

/-- With sorted indexes that follow the operation graph, every sent entry comes after the
entries of the operations in its `previous`. -/
theorem previous_entries_sent_first {db : Db} (hindexed : PreviousIndexed db)
    {remoteNeeds : List LogHeights} {entries : List (EntryRow × DocumentId × Nat)}
    (hretrieved : retrieveEntries db remoteNeeds = some entries) {i j : Nat} (hi : i < entries.length)
    (hj : j < entries.length) {op : OperationRow}
    (hop : db.getOperation ⟨entries[j].1.entryHash⟩ = some op)
    (hprevious : ⟨entries[i].1.entryHash⟩ ∈ op.previousIds) : i < j := by
  obtain ⟨opJ, hopJ, hdocJ, hindexJ⟩ := mem_retrieveEntries hretrieved (List.getElem_mem hj)
  obtain ⟨opI, hopI, hdocI, hindexI⟩ := mem_retrieveEntries hretrieved (List.getElem_mem hi)
  rw [hop, Option.some.injEq] at hopJ
  subst hopJ
  obtain ⟨hdoc, hbefore⟩ := hindexed _ op hop _ hprevious opI hopI
  obtain ⟨index, hindexI', hlt⟩ := hbefore _ hindexJ
  rw [hindexI, Option.some.injEq] at hindexI'
  subst hindexI'
  -- The sort puts the two entries in one document by index, so `j ≤ i` would reverse them.
  rcases Nat.lt_or_ge i j with hij | hji
  · exact hij
  · rcases Nat.eq_or_lt_of_le hji with heq | hlt'
    · subst heq
      omega
    · have hle := List.pairwise_iff_getElem.mp (retrieveEntries_sorted hretrieved) j i hj hi hlt'
      simp only [entryOrderLe, hdocI, hdocJ, hdoc, lt_irrefl, decide_false, beq_self_eq_true,
        Bool.true_and, Bool.false_or, decide_eq_true_eq] at hle
      omega

/-- In every store that publishing and reducing reach, `retrieve_entries` does not panic, and
every sent entry comes after the entries of the operations in its `previous`. -/
theorem published_stores_send_previous_first {events : List StoreEvent} {db : Db}
    (run : Run Db.Step Db.empty events db) (remoteNeeds : List LogHeights) :
    ∃ entries, retrieveEntries db remoteNeeds = some entries ∧
      ∀ i j (hi : i < entries.length) (hj : j < entries.length) (op : OperationRow),
        db.getOperation ⟨entries[j].1.entryHash⟩ = some op →
        ⟨entries[i].1.entryHash⟩ ∈ op.previousIds → i < j := by
  obtain ⟨entries, hretrieved⟩ :=
    Option.isSome_iff_exists.mp (retrieveEntries_isSome (Db.operationsStored_of_run run) remoteNeeds)
  refine ⟨entries, hretrieved, fun i j hi hj op hop hprevious => ?_⟩
  exact previous_entries_sent_first (previousIndexed_of_consistent (Db.consistent_of_run run))
    hretrieved hi hj hop hprevious

/-- A sort by a total preorder gives the one sorted permutation, where the order is
antisymmetric on the list. -/
theorem mergeSort_eq_of_sorted_perm {α : Type} {le : α → α → Bool}
    (trans : ∀ a b c, le a b = true → le b c = true → le a c = true)
    (total : ∀ a b, (le a b || le b a) = true) {l sorted : List α} (hperm : sorted.Perm l)
    (hsorted : sorted.Pairwise (fun a b => le a b = true))
    (hanti : ∀ a ∈ l, ∀ b ∈ l, le a b = true → le b a = true → a = b) : l.mergeSort le = sorted :=
  List.Perm.eq_of_pairwise
    (fun a b ha hb => hanti a (List.mem_mergeSort.mp ha) b (hperm.subset hb))
    (List.pairwise_mergeSort trans total l) hsorted ((List.mergeSort_perm l le).trans hperm.symm)

def venue : SchemaId := .application "venue" ⟨[⟨"S"⟩]⟩

/-- One author's log: a `create` at sequence number 1 and two updates that both follow it, at
2 and 3, with hashes `A`, `C` and `B`. The document is reduced in the order of the hashes. -/
def siblingEvents : List StoreEvent :=
  [.publish ⟨⟨"a"⟩, "1", "A", 0, some "create", 1⟩
      ⟨.create, venue, none, [("name", .string "doggo")]⟩ ⟨"A"⟩,
    .publish ⟨⟨"a"⟩, "2", "C", 0, some "update", 2⟩
      ⟨.update, venue, some ⟨[⟨"A"⟩]⟩, [("name", .string "puppy")]⟩ ⟨"A"⟩,
    .publish ⟨⟨"a"⟩, "3", "B", 0, some "update", 3⟩
      ⟨.update, venue, some ⟨[⟨"A"⟩]⟩, [("name", .string "hound")]⟩ ⟨"A"⟩,
    .reduce ⟨⟨"A"⟩, ⟨[⟨"B"⟩, ⟨"C"⟩]⟩, venue, false, [("name", ⟨"C"⟩)]⟩ [⟨"A"⟩, ⟨"B"⟩, ⟨"C"⟩]]

def siblingStore : Db := siblingEvents.foldl Db.apply Db.empty

/-- The sorted index of the update at 3 is below that of the update at 2, so an empty remote
is sent the log in the order 1, 3, 2 and cannot ingest the third entry before the second. -/
theorem sibling_updates_sent_out_of_seq_order :
    Run Db.Step Db.empty siblingEvents siblingStore ∧
      siblingStore.entries.map (fun entry => (entry.entryBytes, entry.seqNum)) =
        [("1", 1), ("2", 2), ("3", 3)] ∧
      (LogHeightStrategy.new ⟨[venue]⟩).entryResponses ⟨[]⟩ siblingStore [] =
        some [.entry ⟨"1"⟩ (some ⟨"create"⟩), .entry ⟨"3"⟩ (some ⟨"update"⟩),
          .entry ⟨"2"⟩ (some ⟨"update"⟩)] := by
  have run : Run Db.Step Db.empty siblingEvents siblingStore :=
    Run.cons (.publish (by decide))
      (Run.cons (.publish (by decide))
      (Run.cons (.publish (by decide))
      (Run.single (.reduce (by decide)))))
  -- The remote has nothing, so it needs the whole log from sequence number 1.
  have hneeds : diffLogHeights (LogHeightStrategy.localLogHeights siblingStore
      ((LogHeightStrategy.new ⟨[venue]⟩).includedDocumentIds ⟨[]⟩ siblingStore)) (collectMap []) =
        [(⟨"a"⟩, [(0, 1)])] := by
    decide +kernel
  -- The kernel does not unfold the merge sorts of three rows: the first gets a sorted list,
  -- the second is the one sorted permutation.
  have hfrom : siblingStore.getEntriesFrom ⟨"a"⟩ 0 1 = siblingStore.entries := by
    unfold Db.getEntriesFrom
    rw [List.mergeSort_of_pairwise (by decide)]
    decide
  have hlog : logEntries siblingStore ⟨"a"⟩ 0 1 =
      some [(⟨⟨"a"⟩, "1", "A", 0, some "create", 1⟩, ⟨"A"⟩, 0),
        (⟨⟨"a"⟩, "2", "C", 0, some "update", 2⟩, ⟨"A"⟩, 2),
        (⟨⟨"a"⟩, "3", "B", 0, some "update", 3⟩, ⟨"A"⟩, 1)] := by
    rw [logEntries, hfrom]
    decide
  have hretrieve : retrieveEntries siblingStore [(⟨"a"⟩, [(0, 1)])] =
      some [(⟨⟨"a"⟩, "1", "A", 0, some "create", 1⟩, ⟨"A"⟩, 0),
        (⟨⟨"a"⟩, "3", "B", 0, some "update", 3⟩, ⟨"A"⟩, 1),
        (⟨⟨"a"⟩, "2", "C", 0, some "update", 2⟩, ⟨"A"⟩, 2)] := by
    simp only [retrieveEntries, List.flatMapM_cons, List.flatMapM_nil, hlog]
    simp only [pure, bind, Option.bind, List.append_nil, Option.some.injEq]
    exact mergeSort_eq_of_sorted_perm entryOrderLe_trans entryOrderLe_total (by decide)
      (by decide) (by decide)
  refine ⟨run, by decide, ?_⟩
  unfold LogHeightStrategy.entryResponses
  dsimp only
  rw [hneeds, hretrieve]
  rfl

/-- One author's log: a `create` at sequence number 1 and an update of it at 2, reduced. -/
def updateEvents : List StoreEvent :=
  [.publish ⟨⟨"a"⟩, "1", "A", 0, some "create", 1⟩
      ⟨.create, venue, none, [("name", .string "doggo")]⟩ ⟨"A"⟩,
    .publish ⟨⟨"a"⟩, "2", "B", 0, some "update", 2⟩
      ⟨.update, venue, some ⟨[⟨"A"⟩]⟩, [("name", .string "puppy")]⟩ ⟨"A"⟩,
    .reduce ⟨⟨"A"⟩, ⟨[⟨"B"⟩]⟩, venue, false, [("name", ⟨"B"⟩)]⟩ [⟨"A"⟩, ⟨"B"⟩]]

def updateStore : Db := updateEvents.foldl Db.apply Db.empty

/-- The update names the create in its `previous`, and an empty remote is sent the create first. -/
theorem update_sent_after_create :
    Run Db.Step Db.empty updateEvents updateStore ∧
      (retrieveEntries updateStore [(⟨"a"⟩, [(0, 1)])]).map (·.map (·.1.entryHash)) = some ["A", "B"] ∧
      (∃ op, updateStore.getOperation ⟨"B"⟩ = some op ∧ ⟨"A"⟩ ∈ op.previousIds) ∧ 0 < 1 := by
  have run : Run Db.Step Db.empty updateEvents updateStore :=
    Run.cons (.publish (by decide)) (Run.cons (.publish (by decide)) (Run.single (.reduce (by decide))))
  -- Both rows are already in the order each merge sort asks for.
  have hfrom : updateStore.getEntriesFrom ⟨"a"⟩ 0 1 = updateStore.entries := by
    unfold Db.getEntriesFrom
    rw [List.mergeSort_of_pairwise (by decide)]
    decide
  have hlog : logEntries updateStore ⟨"a"⟩ 0 1 =
      some [(⟨⟨"a"⟩, "1", "A", 0, some "create", 1⟩, ⟨"A"⟩, 0),
        (⟨⟨"a"⟩, "2", "B", 0, some "update", 2⟩, ⟨"A"⟩, 1)] := by
    rw [logEntries, hfrom]
    decide
  have hretrieve : retrieveEntries updateStore [(⟨"a"⟩, [(0, 1)])] =
      some [(⟨⟨"a"⟩, "1", "A", 0, some "create", 1⟩, ⟨"A"⟩, 0),
        (⟨⟨"a"⟩, "2", "B", 0, some "update", 2⟩, ⟨"A"⟩, 1)] := by
    simp only [retrieveEntries, List.flatMapM_cons, List.flatMapM_nil, hlog]
    simp only [pure, bind, Option.bind, List.append_nil, Option.some.injEq]
    rw [List.mergeSort_of_pairwise (by decide)]
  have hop : updateStore.getOperation ⟨"B"⟩ =
      some ⟨⟨"a"⟩, ⟨"A"⟩, ⟨"B"⟩, .update, venue, some ⟨[⟨"A"⟩]⟩, some 1⟩ := by
    decide
  have hprevious : (⟨"A"⟩ : OperationId) ∈
      (⟨⟨"a"⟩, ⟨"A"⟩, ⟨"B"⟩, .update, venue, some ⟨[⟨"A"⟩]⟩, some 1⟩ : OperationRow).previousIds := by
    decide
  refine ⟨run, by rw [hretrieve]; rfl, ⟨_, hop, hprevious⟩, ?_⟩
  obtain ⟨entries, hentries, horder⟩ := published_stores_send_previous_first run [(⟨"a"⟩, [(0, 1)])]
  rw [hretrieve, Option.some.injEq] at hentries
  subst hentries
  exact horder 0 1 (by decide) (by decide) _ hop hprevious

end Replication

end Aquadoggo
