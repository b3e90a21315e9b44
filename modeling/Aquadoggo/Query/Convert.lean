import Aquadoggo.Query.Store

/-! How `convert_rows` groups the rows of a page into documents. The loop closes a document at
every index that is a non-zero multiple of the rows per document `k`, and it keeps one map of
rows by field name that it never clears. On rows that come in blocks of exactly `k`, every
document is made from its own block, and its cursor is read from the map under the name of
the block's last field, where the block's last row was just stored. -/
namespace Aquadoggo

open Library

/-- What `convert_rows` is meant to make of one block of rows: the document of its first row
with the block's fields, and the cursor of its last row. -/
def convertBlock (db : Db) (select : Select) (list : Option RelationList) :
    List JoinedRow → Option (PaginationCursor × QueryDocument)
  | [] => none
  | first :: rest =>
    some (rowToCursor ((first :: rest).getLast (List.cons_ne_nil _ _)) list,
      blockDocument db select first (first :: rest))

/-- The map of collected rows holds the last collected field under its name. -/
def ConvertState.Tracks (state : ConvertState) : Prop :=
  ∀ last, state.currentFields.getLast? = some last →
    state.currentRows.lookup last.field.name = some last

/-- The invariant of the loop: the current document is a block headed by the current row, and
the map tracks its last field. -/
structure ConvertState.Open (state : ConvertState) : Prop where
  tracks : state.Tracks
  head : state.currentFields.head? = some state.current

/-- What the loop has made once its current block is closed too. -/
def ConvertState.output (db : Db) (select : Select) (list : Option RelationList)
    (state : ConvertState) : List (PaginationCursor × QueryDocument) :=
  state.converted ++ (convertBlock db select list state.currentFields).toList

theorem convertBlock_eq {db : Db} {select : Select} {list : Option RelationList}
    {block : List JoinedRow} {first last : JoinedRow} (hfirst : block.head? = some first)
    (hlast : block.getLast? = some last) :
    convertBlock db select list block = some (rowToCursor last list, blockDocument db select first block) := by
  cases block with
  | nil => cases hfirst
  | cons head rest =>
    cases hfirst
    rw [List.getLast?_eq_some_getLast (List.cons_ne_nil _ _), Option.some.injEq] at hlast
    rw [convertBlock, hlast]

theorem ConvertState.Open.ne_nil {state : ConvertState} (hopen : state.Open) :
    state.currentFields ≠ [] := by
  intro hnil
  have hhead := hopen.head
  rw [hnil] at hhead
  cases hhead

/-- Blocks that are not empty each convert to one result. -/
theorem forall₂_filterMap_convertBlock {db : Db} {select : Select} {list : Option RelationList} :
    ∀ {blocks : List (List JoinedRow)}, (∀ block ∈ blocks, block ≠ []) →
      List.Forall₂ (fun block result => convertBlock db select list block = some result) blocks
        (blocks.filterMap (convertBlock db select list))
  | [], _ => .nil
  | block :: blocks, hne => by
    obtain ⟨first, rest, rfl⟩ := List.exists_cons_of_ne_nil (hne block (by simp))
    rw [List.filterMap_cons, convertBlock]
    exact .cons rfl (forall₂_filterMap_convertBlock fun other hother => hne other (by simp [hother]))

section Loop

variable {db : Db} {select : Select} {list : Option RelationList} {k : Nat}

theorem finalizeDocument_of_tracks {state : ConvertState} {last : JoinedRow}
    (htracks : state.Tracks) (hlast : state.currentFields.getLast? = some last) :
    finalizeDocument db select list state.current state.currentFields state.currentRows =
      .ok (rowToCursor last list, blockDocument db select state.current state.currentFields) := by
  simp only [finalizeDocument, hlast, htracks last hlast]
  rfl

/-- Closing an open state adds the document of its current block. -/
theorem finalizeDocument_open {state : ConvertState} (hopen : state.Open) :
    ∃ document, finalizeDocument db select list state.current state.currentFields
        state.currentRows = .ok document ∧
      state.output db select list = state.converted ++ [document] := by
  have hlast := List.getLast?_eq_some_getLast hopen.ne_nil
  refine ⟨_, finalizeDocument_of_tracks hopen.tracks hlast, ?_⟩
  rw [ConvertState.output, convertBlock_eq hopen.head hlast]
  rfl

/-- A turn inside a block collects the row. -/
theorem convertStep_inside {state : ConvertState} {row : JoinedRow} {index : Nat}
    (hinside : (index % k == 0 && index > 0) = false) :
    convertStep db select list k state (row, index) =
      .ok ⟨state.converted, state.current, state.currentFields ++ [row],
        insertMap state.currentRows row.field.name row⟩ := by
  simp only [convertStep, hinside]
  rfl

/-- The turn at the first row of a later block closes the current document and starts the
next one with the row. -/
theorem convertStep_boundary {state : ConvertState} {row last : JoinedRow} {index : Nat}
    (hboundary : (index % k == 0 && index > 0) = true) (htracks : state.Tracks)
    (hlast : state.currentFields.getLast? = some last) :
    convertStep db select list k state (row, index) =
      .ok ⟨state.converted ++ [(rowToCursor last list,
          blockDocument db select state.current state.currentFields)],
        row, [row], insertMap state.currentRows row.field.name row⟩ := by
  simp only [convertStep, hboundary, finalizeDocument_of_tracks htracks hlast]
  rfl

/-- A turn that succeeds hands its state to the turns on the rows after it. -/
theorem foldlM_zipIdx_cons {state next : ConvertState} {row : JoinedRow} {rest : List JoinedRow}
    {index : Nat} (hstep : convertStep db select list k state (row, index) = .ok next) :
    ((row :: rest).zipIdx index).foldlM (convertStep db select list k) state =
      (rest.zipIdx (index + 1)).foldlM (convertStep db select list k) next := by
  rw [List.zipIdx_cons, List.foldlM_cons, hstep]
  rfl

/-- Whatever the turn, the row it stores last is found under its name. -/
theorem tracks_collect (converted : List (PaginationCursor × QueryDocument))
    (current : JoinedRow) (fields : List JoinedRow) (rows : List (String × JoinedRow))
    (row : JoinedRow) :
    ConvertState.Tracks ⟨converted, current, fields ++ [row], insertMap rows row.field.name row⟩ := by
  intro last hlast
  rw [List.getLast?_concat, Option.some.injEq] at hlast
  subst hlast
  exact lookup_insertMap_self _ _ _

/-- The run lemma inside a block: rows at indices that close no document are collected. -/
theorem foldlM_inside :
    ∀ (rest : List JoinedRow) (index : Nat) (state : ConvertState),
      (∀ j < rest.length, ((index + j) % k == 0 && index + j > 0) = false) → state.Tracks →
      ∃ rows, (rest.zipIdx index).foldlM (convertStep db select list k) state =
          .ok ⟨state.converted, state.current, state.currentFields ++ rest, rows⟩ ∧
        ConvertState.Tracks ⟨state.converted, state.current, state.currentFields ++ rest, rows⟩
  | [], _, state, _, htracks =>
    ⟨state.currentRows, by simp only [List.zipIdx_nil, List.foldlM_nil, List.append_nil]; rfl,
      by simpa using htracks⟩
  | row :: rest, index, state, hinside, _ => by
    have hstep : convertStep db select list k state (row, index) =
        .ok ⟨state.converted, state.current, state.currentFields ++ [row],
          insertMap state.currentRows row.field.name row⟩ :=
      convertStep_inside (by simpa using hinside 0 (by simp))
    obtain ⟨rows, hfold, htracks⟩ := foldlM_inside rest (index + 1)
      ⟨state.converted, state.current, state.currentFields ++ [row],
        insertMap state.currentRows row.field.name row⟩
      (fun j hj => by simpa [Nat.add_assoc, Nat.add_comm 1 j] using hinside (j + 1) (by simp; omega))
      (tracks_collect _ _ _ _ _)
    rw [List.append_assoc, List.singleton_append] at hfold htracks
    refine ⟨rows, ?_, htracks⟩
    rw [foldlM_zipIdx_cons hstep]
    exact hfold

/-- No index after a multiple of `k` and before the next one closes a document. -/
theorem not_boundary_of_lt {index j : Nat} (hindex : index % k = 0) (hpos : 0 < j) (hlt : j < k) :
    ((index + j) % k == 0 && index + j > 0) = false := by
  have hmod : (index + j) % k = j := by
    rw [Nat.add_mod, hindex, Nat.zero_add, Nat.mod_mod, Nat.mod_eq_of_lt hlt]
  simp [hmod, hpos.ne']

/-- The rows of a block after its first one close no document. -/
theorem inside_block {rest : List JoinedRow} {index : Nat} (hlength : rest.length + 1 = k)
    (hindex : index % k = 0) :
    ∀ j < rest.length, ((index + 1 + j) % k == 0 && index + 1 + j > 0) = false := by
  intro j hj
  rw [Nat.add_assoc, Nat.add_comm 1 j]
  exact not_boundary_of_lt hindex (Nat.succ_pos j) (by omega)

/-- The first block opens the first document. -/
theorem foldlM_first_block {first : JoinedRow} {rest : List JoinedRow} (hlength : rest.length + 1 = k) :
    ∃ rows, ((first :: rest).zipIdx 0).foldlM (convertStep db select list k) ⟨[], first, [], []⟩ =
        .ok ⟨[], first, first :: rest, rows⟩ ∧ ConvertState.Open ⟨[], first, first :: rest, rows⟩ := by
  have hstep : convertStep db select list k ⟨[], first, [], []⟩ (first, 0) =
      .ok ⟨[], first, [] ++ [first], insertMap [] first.field.name first⟩ :=
    convertStep_inside (by simp)
  obtain ⟨rows, hfold, htracks⟩ := foldlM_inside rest 1
    ⟨[], first, [first], insertMap [] first.field.name first⟩
    (by simpa using inside_block hlength (Nat.zero_mod k)) (tracks_collect [] first [] [] first)
  refine ⟨rows, ?_, htracks, rfl⟩
  rw [foldlM_zipIdx_cons hstep]
  exact hfold

/-- A later block: its first row closes the document of the block before it, and the block
becomes the current document. -/
theorem foldlM_block {first : JoinedRow} {rest : List JoinedRow} {index : Nat}
    {state : ConvertState} {last : JoinedRow} (hlength : rest.length + 1 = k)
    (hindex : index % k = 0) (hpos : 0 < index) (htracks : state.Tracks)
    (hlast : state.currentFields.getLast? = some last) :
    ∃ rows, ((first :: rest).zipIdx index).foldlM (convertStep db select list k) state =
        .ok ⟨state.converted ++ [(rowToCursor last list,
            blockDocument db select state.current state.currentFields)], first, first :: rest, rows⟩ ∧
      ConvertState.Open ⟨state.converted ++ [(rowToCursor last list,
          blockDocument db select state.current state.currentFields)], first, first :: rest, rows⟩ := by
  have hstep : convertStep db select list k state (first, index) =
      .ok ⟨state.converted ++ [(rowToCursor last list,
          blockDocument db select state.current state.currentFields)],
        first, [first], insertMap state.currentRows first.field.name first⟩ :=
    convertStep_boundary (by simp [hindex, hpos]) htracks hlast
  obtain ⟨rows, hfold, htracks'⟩ := foldlM_inside rest (index + 1)
    ⟨state.converted ++ [(rowToCursor last list,
        blockDocument db select state.current state.currentFields)],
      first, [first], insertMap state.currentRows first.field.name first⟩
    (inside_block hlength hindex) (tracks_collect _ first [] _ first)
  refine ⟨rows, ?_, htracks', rfl⟩
  rw [foldlM_zipIdx_cons hstep]
  exact hfold

/-- The run lemma over blocks: from an open state, the blocks that follow leave an open state
whose output is the documents converted before, then one per block, the current one first. -/
theorem foldlM_blocks (hk : 0 < k) :
    ∀ (blocks : List (List JoinedRow)) (index : Nat) (state : ConvertState),
      (∀ block ∈ blocks, block.length = k) → index % k = 0 → 0 < index → state.Open →
      ∃ final, (blocks.flatten.zipIdx index).foldlM (convertStep db select list k) state = .ok final ∧
        final.Open ∧ final.output db select list =
          state.converted ++ (state.currentFields :: blocks).filterMap (convertBlock db select list)
  | [], _, state, _, _, _, hopen => by
    refine ⟨state, rfl, hopen, ?_⟩
    simp only [ConvertState.output, List.filterMap_cons, List.filterMap_nil]
    cases convertBlock db select list state.currentFields <;> rfl
  | block :: blocks, index, state, hblocks, hindex, hpos, hopen => by
    -- The current block is not empty: its first row is the current row.
    have hlast := List.getLast?_eq_some_getLast hopen.ne_nil
    have hlength₀ : block.length = k := hblocks block (by simp)
    obtain ⟨first, rest, rfl⟩ := List.exists_cons_of_ne_nil (List.ne_nil_of_length_pos (hlength₀ ▸ hk))
    have hlength : rest.length + 1 = k := by simpa using hlength₀
    obtain ⟨rows, hblock, hopen'⟩ :=
      @foldlM_block db select list k first rest index state _ hlength hindex hpos hopen.tracks hlast
    obtain ⟨final, hfold, hfinal, houtput⟩ := foldlM_blocks hk blocks (index + k) _
      (fun other hother => hblocks other (by simp [hother])) (by simpa using hindex) (by omega) hopen'
    refine ⟨final, ?_, hfinal, ?_⟩
    · rw [List.flatten_cons, List.zipIdx_append, List.foldlM_append, hblock, hlength₀]
      exact hfold
    · rw [houtput]
      simp only [List.filterMap_cons, convertBlock_eq hopen.head hlast, List.append_assoc,
        List.singleton_append]

end Loop

/-- On rows that come in consecutive blocks of exactly `max(fields, 1)` rows, `convert_rows`
returns one cursor and document per block, in block order: the document is made from the
block's own rows and the cursor is that of the block's last row. -/
theorem convertRows_blocks (db : Db) (select : Select) (list : Option RelationList)
    (fields : List String) (blocks : List (List JoinedRow))
    (hblocks : ∀ block ∈ blocks, block.length = max fields.length 1) :
    ∃ results, convertRows db select blocks.flatten list fields = .ok results ∧
      List.Forall₂ (fun block result => convertBlock db select list block = some result)
        blocks results := by
  have hk : 0 < max fields.length 1 := by omega
  have hne : ∀ block ∈ blocks, block ≠ [] := fun block hblock =>
    List.ne_nil_of_length_pos (by rw [hblocks block hblock]; exact hk)
  refine ⟨blocks.filterMap (convertBlock db select list), ?_, forall₂_filterMap_convertBlock hne⟩
  cases blocks with
  | nil => rfl
  | cons block blocks =>
    obtain ⟨first, rest, rfl⟩ := List.exists_cons_of_ne_nil (hne block (by simp))
    have hlength₀ : (first :: rest).length = max fields.length 1 := hblocks _ (by simp)
    have hlength : rest.length + 1 = max fields.length 1 := by simpa using hlength₀
    -- The first block opens the loop's state, the later ones each close the block before.
    obtain ⟨rows, hfirst, hopen⟩ := @foldlM_first_block db select list _ first rest hlength
    obtain ⟨final, hfold, hfinal, houtput⟩ := @foldlM_blocks db select list _ hk blocks
      (max fields.length 1) _ (fun other hother => hblocks other (by simp [hother]))
      (Nat.mod_self _) hk hopen
    obtain ⟨document, hdocument, hlast⟩ := @finalizeDocument_open db select list final hfinal
    have hloop : (((first :: rest) :: blocks).flatten.zipIdx).foldlM
        (convertStep db select list (max fields.length 1)) ⟨[], first, [], []⟩ = .ok final := by
      rw [List.flatten_cons, List.zipIdx_append, List.foldlM_append, hfirst, Nat.zero_add, hlength₀]
      exact hfold
    rw [List.flatten_cons, List.cons_append] at hloop
    rw [List.flatten_cons, List.cons_append, convertRows]
    simp only [hloop, bind, Except.bind, hdocument]
    rw [← hlast, houtput, List.nil_append]
    rfl

/-- The row of the field `name` of the document whose create operation has the hash. -/
def fieldRow (hash name value : String) : JoinedRow :=
  ⟨none, ⟨⟨hash⟩, ⟨[⟨hash⟩]⟩, .schemaDefinition 1, false⟩, ⟨⟨[⟨hash⟩]⟩, ⟨hash⟩, name⟩,
    ⟨⟨hash⟩, name, .str, some value, 0, hash ++ name⟩⟩

/-- Two documents with the fields `message` and `username`, a block of two rows each. -/
def twoDocumentBlocks : List (List JoinedRow) :=
  [[fieldRow "a" "message" "hello", fieldRow "a" "username" "panda"],
    [fieldRow "b" "message" "bye", fieldRow "b" "username" "bamboo"]]

theorem convertRows_twoDocumentBlocks :
    (∀ block ∈ twoDocumentBlocks, block.length = max ["message", "username"].length 1) ∧
      ∃ results, convertRows Db.empty ⟨[], List.nodup_nil⟩ twoDocumentBlocks.flatten none
          ["message", "username"] = .ok results ∧
        List.Forall₂ (fun block result => convertBlock Db.empty ⟨[], List.nodup_nil⟩ none block = some result)
          twoDocumentBlocks results := by
  have hblocks : ∀ block ∈ twoDocumentBlocks, block.length = max ["message", "username"].length 1 := by
    simp [twoDocumentBlocks]
  exact ⟨hblocks, convertRows_blocks _ _ _ _ _ hblocks⟩

end Aquadoggo
