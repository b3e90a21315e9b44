import Mathlib.Data.String.Basic
import Aquadoggo.Materializer.GarbageCollection
import Aquadoggo.Library.Text
import Aquadoggo.Library.SortedSet

/-! Reading operations and document views back from their rows (`db/models/utils.rs`).
`insert_operation` writes a row per field and per list item (`fieldRows`); `get_operation`
and `get_document_view_field_rows` join them back in `ORDER BY list_index`, which leaves the
order of rows with equal indices to the database, and `parse_operation_rows` and
`parse_document_view_field_rows` gather the list items again under their field names. Text
columns hold what `parse_value_to_string_vec` wrote: floats and bytes are the text the model
keeps of them, and integers, booleans and ids are parsed back. -/
namespace Aquadoggo

open Library Materializer

/-- Iteration over a `BTreeMap` keyed by field name: in name order. -/
def sortByName {β : Type} (entries : List (String × β)) : List (String × β) :=
  entries.mergeSort fun a b => decide (a.1 ≤ b.1)

/-- The state of the loop both row parsers run: the values of single-row fields in row
order, and the items of each list field gathered under its name with the `tag` of the list's
first row (the operation that set it, for a view). -/
structure FieldRowsAcc (τ : Type) where
  values : List (String × τ × OperationValue)
  relationLists : List (String × τ × List DocumentId)
  pinnedRelationLists : List (String × τ × List DocumentViewId)

namespace FieldRowsAcc

variable {τ : Type}

def empty : FieldRowsAcc τ := ⟨[], [], []⟩

/-- The two list branches of the loop: push the item onto the field's list, or start the list
at its first row, where `NULL` stands for the empty list. `none` is a panic of an `unwrap`. -/
def pushItem {α : Type} (lists : List (String × τ × List α)) (parse : String → Option α)
    (tag : τ) (name : String) (value : Option String) : Option (List (String × τ × List α)) :=
  match lists.lookup name with
  | some (listTag, list) => do
    let item ← parse (← value)
    pure (insertMap lists name (listTag, list ++ [item]))
  | none => do
    let list ← match value with
      | some text => (parse text).map ([·])
      | none => pure []
    pure (insertMap lists name (tag, list))

/-- One row of the loop, by its `field_type`. `none` is a panic of an `unwrap`. -/
def add (acc : FieldRowsAcc τ) (tag : τ) (name : String) (fieldType : StoredFieldType)
    (value : Option String) : Option (FieldRowsAcc τ) :=
  let push (parsed : OperationValue) : FieldRowsAcc τ :=
    { acc with values := acc.values ++ [(name, tag, parsed)] }
  match fieldType with
  | .bool => do pure (push (.boolean (← Text.parseBool (← value))))
  | .int => do pure (push (.integer (← Text.parseI64 (← value))))
  | .float => do pure (push (.float (← value)))
  | .str => do pure (push (.string (← value)))
  | .bytes => do pure (push (.bytes (← value)))
  | .relation => do pure (push (.relation (← parseDocumentId (← value))))
  | .pinnedRelation => do pure (push (.pinnedRelation (DocumentViewId.fromStr (← value))))
  | .relationList => do
    pure { acc with relationLists := ← pushItem acc.relationLists parseDocumentId tag name value }
  | .pinnedRelationList => do
    pure { acc with
      pinnedRelationLists :=
        ← pushItem acc.pinnedRelationLists (some ∘ DocumentViewId.fromStr) tag name value }

/-- The fields the loop gathered, as the parsers hand them on: the single-row fields in row
order, then the relation lists and the pinned relation lists, each map in name order. -/
def fields (acc : FieldRowsAcc τ) : List (String × τ × OperationValue) :=
  acc.values ++
    (sortByName acc.relationLists).map (fun (name, tag, list) => (name, tag, .relationList list)) ++
    (sortByName acc.pinnedRelationLists).map
      (fun (name, tag, list) => (name, tag, .pinnedRelationList list))

end FieldRowsAcc

/-- `OperationBuilder` as `parse_operation_rows` drives it, with the `unwrap` of `build()`:
the fields become an `OperationFields` map in name order, and a name given twice, a
`create` or `update` without fields or an `update` or `delete` without previous is an
error. -/
def buildOperation (action : OperationAction) (schemaId : SchemaId)
    (previous : Option DocumentViewId) (fields : List (String × OperationValue)) :
    Option Operation :=
  let checked : Option (List (String × OperationValue)) :=
    if fields ≠ [] ∧ (fields.map (·.1)).Nodup then some (sortByName fields) else none
  match action with
  | .create => do pure ⟨.create, schemaId, none, ← checked⟩
  | .update => do pure ⟨.update, schemaId, some (← previous), ← checked⟩
  | .delete => do pure ⟨.delete, schemaId, some (← previous), []⟩

/-- A row of the `get_operation` query: the operation's columns and one of its field rows,
`NULL` where the `LEFT JOIN` finds none. -/
structure OperationFieldsJoinedRow where
  publicKey : PublicKey
  documentId : DocumentId
  operationId : OperationId
  action : OperationAction
  schemaId : SchemaId
  previous : Option DocumentViewId
  sortedIndex : Option Nat
  name : Option String
  fieldType : Option StoredFieldType
  value : Option String
  listIndex : Option Nat
deriving DecidableEq, Repr

/-- `StorageOperation`: the operation `get_operation` returns, with where it is stored. -/
structure StorageOperation where
  documentId : DocumentId
  id : OperationId
  operation : Operation
  publicKey : PublicKey
  sortedIndex : Option Nat
deriving DecidableEq, Repr

/-- `parse_operation_rows`: the outer `none` is a panic, `some none` the empty result. -/
def parseOperationRows (rows : List OperationFieldsJoinedRow) : Option (Option StorageOperation) :=
  match rows with
  | [] => some none
  | firstRow :: _ => do
    let parsed ←
      if firstRow.action != .delete then
        rows.foldlM (fun acc row => do
          let fieldType ← row.fieldType
          let name ← row.name
          acc.add () name fieldType row.value) FieldRowsAcc.empty
      else pure FieldRowsAcc.empty
    let operation ← buildOperation firstRow.action firstRow.schemaId firstRow.previous
      (parsed.fields.map fun (name, _, value) => (name, value))
    pure (some ⟨firstRow.documentId, firstRow.operationId, operation, firstRow.publicKey,
      firstRow.sortedIndex⟩)

/-- The joined row of an operation and one of its field rows, or `NULL`s. -/
def OperationFieldsJoinedRow.ofRows (operation : OperationRow) :
    Option OperationFieldRow → OperationFieldsJoinedRow
  | some field => ⟨operation.publicKey, operation.documentId, operation.operationId,
      operation.action, operation.schemaId, operation.previous, operation.sortedIndex,
      some field.name, some field.fieldType, field.value, some field.listIndex⟩
  | none => ⟨operation.publicKey, operation.documentId, operation.operationId,
      operation.action, operation.schemaId, operation.previous, operation.sortedIndex,
      none, none, none, none⟩

/-- The rows of the `SELECT` of `get_operation`, before its `ORDER BY`: the operation's row
`LEFT JOIN` its field rows. -/
def Db.operationFieldsJoined (db : Db) (operationId : OperationId) :
    List OperationFieldsJoinedRow :=
  (db.operations.filter (·.operationId == operationId)).flatMap fun operation =>
    match db.operationFields.filter (·.operationId == operation.operationId) with
    | [] => [.ofRows operation none]
    | fields => fields.map fun field => .ofRows operation (some field)

/-- `ORDER BY list_index ASC` in SQLite: `NULL` first. -/
def nullsFirstLe : Option Nat → Option Nat → Bool
  | none, _ => true
  | some _, none => false
  | some i, some j => decide (i ≤ j)

/-- `get_operation`: the joined rows in `ORDER BY list_index`, ties in join order, parsed.
(`Db.getOperation` reads the `operations_v1` row alone.) -/
def Db.getOperationWithFields (db : Db) (operationId : OperationId) :
    Option (Option StorageOperation) :=
  parseOperationRows ((db.operationFieldsJoined operationId).mergeSort fun a b =>
    nullsFirstLe a.listIndex b.listIndex)

/-- A row of `get_document_view_field_rows` (the source's `DocumentViewFieldRow`). -/
structure DocumentViewFieldJoinedRow where
  documentId : DocumentId
  documentViewId : DocumentViewId
  operationId : OperationId
  name : String
  listIndex : Nat
  fieldType : StoredFieldType
  value : Option String
deriving DecidableEq, Repr

/-- `parse_document_view_field_rows`: `DocumentViewFields`, the operation that set each field
and its value, in name order; inserting a name again replaces its value. -/
def parseDocumentViewFieldRows (rows : List DocumentViewFieldJoinedRow) :
    Option (List (String × OperationId × OperationValue)) := do
  let parsed ← rows.foldlM (fun acc row =>
    acc.add row.operationId row.name row.fieldType row.value) FieldRowsAcc.empty
  pure (sortByName (collectMap parsed.fields))

/-- The rows of `get_document_view_field_rows` before its `ORDER BY`: each field row of the view
`LEFT JOIN` the operation's rows of that field and the view's row. `none` is the error of
decoding the `NULL` a missing row leaves in a non-null column. -/
def Db.documentViewFieldsJoined (db : Db) (viewId : DocumentViewId) :
    Option (List DocumentViewFieldJoinedRow) := do
  let groups ← (db.documentViewFields.filter (·.documentViewId == viewId)).mapM fun field => do
    let view ← db.documentViews.find? (·.documentViewId == viewId)
    match db.operationFields.filter fun row =>
        row.operationId == field.operationId && row.name == field.name with
    | [] => none
    | rows => pure (rows.map fun row => ⟨view.documentId, viewId, field.operationId, field.name,
        row.listIndex, row.fieldType, row.value⟩)
  pure groups.flatten

/-- `get_document_by_view_id`'s fields: the joined rows in `ORDER BY list_index`, parsed. -/
def Db.getDocumentViewFields (db : Db) (viewId : DocumentViewId) :
    Option (List (String × OperationId × OperationValue)) := do
  let rows ← db.documentViewFieldsJoined viewId
  parseDocumentViewFieldRows (rows.mergeSort fun a b => decide (a.listIndex ≤ b.listIndex))

/-! ## What the text columns read back -/

/-- What p2panda guarantees of a value: an integer is an `i64`, and ids are hashes. -/
def OperationValue.Valid : OperationValue → Prop
  | .integer value => -2 ^ 63 ≤ value ∧ value < 2 ^ 63
  | .relation document => '_' ∉ document.hash.toList
  | .relationList documents => ∀ document ∈ documents, '_' ∉ document.hash.toList
  | .pinnedRelation view => view.Valid
  | .pinnedRelationList views => ∀ view ∈ views, view.Valid
  | _ => True

instance OperationValue.decidableValid : (value : OperationValue) → Decidable value.Valid
  | .boolean _ | .float _ | .string _ | .bytes _ => isTrue trivial
  | .integer _ => inferInstanceAs (Decidable (_ ∧ _))
  | .relation _ => inferInstanceAs (Decidable (¬ _))
  | .relationList _ | .pinnedRelationList _ => inferInstanceAs (Decidable (∀ _ ∈ _, _))
  | .pinnedRelation view => inferInstanceAs (Decidable view.Valid)

theorem parseDocumentId_hash {document : DocumentId} (h : '_' ∉ document.hash.toList) :
    parseDocumentId document.hash = some document := by
  simp [parseDocumentId, h]

namespace FieldRowsAcc

variable {τ : Type}

/-! ### One row touches one field

The loop reads and writes only the entries of the row's field name: at that name it does what
it would do with nothing else gathered, and at every other name it changes nothing. -/

/-- The entries of one field name. -/
def restrict (acc : FieldRowsAcc τ) (name : String) : FieldRowsAcc τ :=
  ⟨acc.values.filter (·.1 == name), acc.relationLists.filter (·.1 == name),
    acc.pinnedRelationLists.filter (·.1 == name)⟩

theorem pushItem_filter {α : Type} (lists : List (String × τ × List α))
    (parse : String → Option α) (tag : τ) (name : String) (value : Option String) :
    pushItem (lists.filter (·.1 == name)) parse tag name value =
      (pushItem lists parse tag name value).map (·.filter (·.1 == name)) := by
  unfold pushItem
  rw [lookup_filter_self]
  cases lists.lookup name <;> cases value <;> simp [filter_insertMap_self]

theorem pushItem_filter_ne {α : Type} {lists lists' : List (String × τ × List α)}
    {parse : String → Option α} {tag : τ} {name : String} {value : Option String}
    (h : pushItem lists parse tag name value = some lists') {k : String} (hk : k ≠ name) :
    lists'.filter (·.1 == k) = lists.filter (·.1 == k) := by
  unfold pushItem at h
  -- Every branch that succeeds inserts at `name`.
  cases hlookup : lists.lookup name with
  | some entry =>
    simp only [hlookup] at h
    obtain ⟨text, -, h⟩ := Option.bind_eq_some_iff.mp h
    obtain ⟨item, -, h⟩ := Option.bind_eq_some_iff.mp h
    cases h
    exact filter_insertMap_ne _ _ hk
  | none =>
    simp only [hlookup] at h
    cases value with
    | some text =>
      obtain ⟨list, -, h⟩ := Option.bind_eq_some_iff.mp h
      cases h
      exact filter_insertMap_ne _ _ hk
    | none =>
      cases h
      exact filter_insertMap_ne _ _ hk

theorem add_restrict (acc : FieldRowsAcc τ) (tag : τ) (name : String)
    (fieldType : StoredFieldType) (value : Option String) :
    (acc.restrict name).add tag name fieldType value =
      (acc.add tag name fieldType value).map (·.restrict name) := by
  cases fieldType
  case relationList =>
    simp only [add, restrict, pushItem_filter]
    cases pushItem acc.relationLists parseDocumentId tag name value <;> rfl
  case pinnedRelationList =>
    simp only [add, restrict, pushItem_filter]
    cases pushItem acc.pinnedRelationLists (some ∘ DocumentViewId.fromStr) tag name value <;> rfl
  all_goals simp [add, restrict, List.filter_append]

/-- What one row can do: push a value under its name, or update one of the two maps of lists
at its name. -/
theorem add_cases {acc acc' : FieldRowsAcc τ} {tag : τ} {name : String}
    {fieldType : StoredFieldType} {value : Option String}
    (h : acc.add tag name fieldType value = some acc') :
    (∃ parsed, acc' = { acc with values := acc.values ++ [(name, tag, parsed)] }) ∨
    (∃ lists, pushItem acc.relationLists parseDocumentId tag name value = some lists ∧
      acc' = { acc with relationLists := lists }) ∨
    (∃ lists, pushItem acc.pinnedRelationLists (some ∘ DocumentViewId.fromStr) tag name value =
      some lists ∧ acc' = { acc with pinnedRelationLists := lists }) := by
  cases fieldType
  case relationList =>
    obtain ⟨lists, hlists, h⟩ := Option.bind_eq_some_iff.mp h
    exact .inr (.inl ⟨lists, hlists, (Option.some.inj h).symm⟩)
  case pinnedRelationList =>
    obtain ⟨lists, hlists, h⟩ := Option.bind_eq_some_iff.mp h
    exact .inr (.inr ⟨lists, hlists, (Option.some.inj h).symm⟩)
  -- A scalar: the text, and for some types its parse, are bound, then the value is pushed.
  case bool | int | relation =>
    obtain ⟨_, -, h⟩ := Option.bind_eq_some_iff.mp h
    obtain ⟨_, -, h⟩ := Option.bind_eq_some_iff.mp h
    exact .inl ⟨_, (Option.some.inj h).symm⟩
  case float | str | bytes | pinnedRelation =>
    obtain ⟨_, -, h⟩ := Option.bind_eq_some_iff.mp h
    exact .inl ⟨_, (Option.some.inj h).symm⟩

theorem restrict_add_ne {acc acc' : FieldRowsAcc τ} {tag : τ} {name : String}
    {fieldType : StoredFieldType} {value : Option String}
    (h : acc.add tag name fieldType value = some acc') {k : String} (hk : k ≠ name) :
    acc'.restrict k = acc.restrict k := by
  rcases add_cases h with ⟨parsed, rfl⟩ | ⟨lists, hlists, rfl⟩ | ⟨lists, hlists, rfl⟩
  · simp [restrict, List.filter_append, Ne.symm hk]
  · simp [restrict, pushItem_filter_ne hlists hk]
  · simp [restrict, pushItem_filter_ne hlists hk]

/-- The loop at one row, seen at the row's name alone. -/
theorem add_keyed {acc t : FieldRowsAcc τ} {tag : τ} {name : String}
    {fieldType : StoredFieldType} {value : Option String}
    (h : (acc.restrict name).add tag name fieldType value = some t) :
    ∃ acc', acc.add tag name fieldType value = some acc' ∧ acc'.restrict name = t ∧
      ∀ k, k ≠ name → acc'.restrict k = acc.restrict k := by
  rw [add_restrict] at h
  obtain ⟨acc', hacc', rfl⟩ := Option.map_eq_some_iff.mp h
  exact ⟨acc', hacc', rfl, fun k hk => restrict_add_ne hacc' hk⟩

/-! ### The rows of one field -/

/-- One row of the loop, tagged by the operation the row belongs to. -/
def addRow (tag : OperationId → τ) (acc : FieldRowsAcc τ) (row : OperationFieldRow) :
    Option (FieldRowsAcc τ) :=
  acc.add (tag row.operationId) row.name row.fieldType row.value

/-- The entries of one field, as the loop gathers them from its rows. -/
def single (tag : τ) (name : String) : OperationValue → FieldRowsAcc τ
  | .relationList documents => ⟨[], [(name, tag, documents)], []⟩
  | .pinnedRelationList views => ⟨[], [], [(name, tag, views)]⟩
  | value => ⟨[(name, tag, value)], [], []⟩

/-- The rows `insert_operation` writes for the texts of one field, from list index `n` on. -/
def itemRows (operationId : OperationId) (name : String) (fieldType : StoredFieldType)
    (texts : List (Option String)) (n : Nat) : List OperationFieldRow :=
  (texts.zipIdx n).map fun (text, index) =>
    ⟨operationId, name, fieldType, text, index, rowCursor index name operationId⟩

theorem fieldRows_single (operationId : OperationId) (name : String) (value : OperationValue) :
    fieldRows operationId [(name, value)] =
      itemRows operationId name value.fieldType value.toStrings 0 := by
  simp [fieldRows, itemRows]

theorem foldlM_relationItems (tag : OperationId → τ) (operationId : OperationId) (name : String)
    (t : τ) (pre documents : List DocumentId) (n : Nat)
    (hdocuments : ∀ document ∈ documents, '_' ∉ document.hash.toList) :
    (itemRows operationId name .relationList (documents.map fun d => some d.hash) n).foldlM
      (addRow tag) ⟨[], [(name, t, pre)], []⟩ = some ⟨[], [(name, t, pre ++ documents)], []⟩ := by
  induction documents generalizing pre n with
  | nil => simp [itemRows]
  | cons document rest ih =>
    have hstep : addRow tag ⟨[], [(name, t, pre)], []⟩
        ⟨operationId, name, .relationList, some document.hash, n,
          rowCursor n name operationId⟩ = some ⟨[], [(name, t, pre ++ [document])], []⟩ := by
      simp [addRow, add, pushItem, insertMap, parseDocumentId_hash (hdocuments document (.head _))]
    simp only [itemRows, List.map_cons, List.zipIdx_cons, List.foldlM_cons] at ih ⊢
    rw [hstep]
    simpa using ih (pre ++ [document]) (n + 1) fun d hd => hdocuments d (.tail _ hd)

theorem foldlM_pinnedRelationItems (tag : OperationId → τ) (operationId : OperationId)
    (name : String) (t : τ) (pre views : List DocumentViewId) (n : Nat)
    (hviews : ∀ view ∈ views, view.Valid) :
    (itemRows operationId name .pinnedRelationList (views.map fun v => some v.toString) n).foldlM
      (addRow tag) ⟨[], [], [(name, t, pre)]⟩ = some ⟨[], [], [(name, t, pre ++ views)]⟩ := by
  induction views generalizing pre n with
  | nil => simp [itemRows]
  | cons view rest ih =>
    have hstep : addRow tag ⟨[], [], [(name, t, pre)]⟩
        ⟨operationId, name, .pinnedRelationList, some view.toString, n,
          rowCursor n name operationId⟩ = some ⟨[], [], [(name, t, pre ++ [view])]⟩ := by
      simp [addRow, add, pushItem, insertMap, DocumentViewId.fromStr_toString (hviews view (.head _))]
    simp only [itemRows, List.map_cons, List.zipIdx_cons, List.foldlM_cons] at ih ⊢
    rw [hstep]
    simpa using ih (pre ++ [view]) (n + 1) fun v hv => hviews v (.tail _ hv)

/-- The rows `insert_operation` writes for one field read back as that field. -/
theorem foldlM_addRow_fieldRows (tag : OperationId → τ) (operationId : OperationId)
    (name : String) {value : OperationValue} (hvalid : value.Valid) :
    (fieldRows operationId [(name, value)]).foldlM (addRow tag) empty =
      some (single (tag operationId) name value) := by
  rw [fieldRows_single]
  cases value with
  | boolean b => simp [itemRows, addRow, add, single, empty, OperationValue.toStrings,
      OperationValue.fieldType, Text.parseBool_toString]
  | integer i =>
    have hparse : Text.parseI64 i.repr = some i := by
      simpa using Text.parseI64_toString i hvalid.1 hvalid.2
    simp [itemRows, addRow, add, single, empty, OperationValue.toStrings,
      OperationValue.fieldType, hparse]
  | float text | string text | bytes text =>
    simp [itemRows, addRow, add, single, empty, OperationValue.toStrings, OperationValue.fieldType]
  | relation document => simp [itemRows, addRow, add, single, empty, OperationValue.toStrings,
      OperationValue.fieldType, parseDocumentId_hash hvalid]
  | pinnedRelation view => simp [itemRows, addRow, add, single, empty, OperationValue.toStrings,
      OperationValue.fieldType, DocumentViewId.fromStr_toString hvalid]
  | relationList documents =>
    cases documents with
    | nil => simp [itemRows, addRow, add, single, empty, pushItem, insertMap,
        OperationValue.toStrings, OperationValue.fieldType]
    | cons document rest =>
      -- The first item starts the list; the others are pushed onto it.
      have hfirst : addRow tag empty ⟨operationId, name, .relationList, some document.hash, 0,
          rowCursor 0 name operationId⟩ =
          some ⟨[], [(name, tag operationId, [document])], []⟩ := by
        simp [addRow, add, empty, pushItem, insertMap, parseDocumentId_hash (hvalid document (.head _))]
      simp only [OperationValue.toStrings, OperationValue.fieldType, itemRows, List.map_cons,
        List.zipIdx_cons, List.foldlM_cons]
      rw [hfirst]
      simpa [itemRows, single] using foldlM_relationItems tag operationId name (tag operationId)
        [document] rest 1 fun d hd => hvalid d (.tail _ hd)
  | pinnedRelationList views =>
    cases views with
    | nil => simp [itemRows, addRow, add, single, empty, pushItem, insertMap,
        OperationValue.toStrings, OperationValue.fieldType]
    | cons view rest =>
      have hfirst : addRow tag empty ⟨operationId, name, .pinnedRelationList, some view.toString, 0,
          rowCursor 0 name operationId⟩ =
          some ⟨[], [], [(name, tag operationId, [view])]⟩ := by
        simp [addRow, add, empty, pushItem, insertMap,
          DocumentViewId.fromStr_toString (hvalid view (.head _))]
      simp only [OperationValue.toStrings, OperationValue.fieldType, itemRows, List.map_cons,
        List.zipIdx_cons, List.foldlM_cons]
      rw [hfirst]
      simpa [itemRows, single] using foldlM_pinnedRelationItems tag operationId name
        (tag operationId) [view] rest 1 fun v hv => hvalid v (.tail _ hv)

/-! ### What the loop gathered -/

/-- The gathered fields in the order of the three lists. -/
def entries (acc : FieldRowsAcc τ) : List (String × τ × OperationValue) :=
  acc.values ++ acc.relationLists.map (fun (name, tag, list) => (name, tag, .relationList list)) ++
    acc.pinnedRelationLists.map (fun (name, tag, list) => (name, tag, .pinnedRelationList list))

@[simp] theorem restrict_empty (name : String) : (empty : FieldRowsAcc τ).restrict name = empty :=
  rfl

theorem entries_restrict (acc : FieldRowsAcc τ) (name : String) :
    (acc.restrict name).entries = acc.entries.filter (·.1 == name) := by
  simp [entries, restrict, List.filter_append, List.filter_map, Function.comp_def]

@[simp] theorem entries_single (tag : τ) (name : String) (value : OperationValue) :
    (single tag name value).entries = [(name, tag, value)] := by
  cases value <;> rfl

theorem fields_perm_entries (acc : FieldRowsAcc τ) : acc.fields.Perm acc.entries := by
  unfold fields entries
  refine ((List.Perm.refl acc.values).append ?_).append ?_
  · exact (List.mergeSort_perm _ _).map _
  · exact (List.mergeSort_perm _ _).map _

theorem name_of_mem_itemRows {operationId : OperationId} {name : String}
    {fieldType : StoredFieldType} {texts : List (Option String)} {n : Nat} {row : OperationFieldRow}
    (h : row ∈ itemRows operationId name fieldType texts n) :
    row.operationId = operationId ∧ row.name = name := by
  obtain ⟨_, -, rfl⟩ := List.mem_map.mp h
  exact ⟨rfl, rfl⟩

/-- The rows of one field have increasing list indices. -/
theorem pairwise_itemRows (operationId : OperationId) (name : String)
    (fieldType : StoredFieldType) (texts : List (Option String)) (n : Nat) :
    (itemRows operationId name fieldType texts n).Pairwise (·.listIndex < ·.listIndex) := by
  induction texts generalizing n with
  | nil => simp [itemRows]
  | cons text rest ih =>
    simp only [itemRows, List.zipIdx_cons, List.map_cons, List.pairwise_cons] at ih ⊢
    refine ⟨?_, ih (n + 1)⟩
    intro row hrow
    obtain ⟨⟨text', index⟩, hmem, rfl⟩ := List.mem_map.mp hrow
    have := (List.mem_zipIdx hmem).1
    simp only
    omega

end FieldRowsAcc

end Aquadoggo
