import Mathlib.Data.List.Sort
import Aquadoggo.Query.Sql
import Aquadoggo.Query.Cursor

/-! `SqlStore::query` and `SqlStore::count` (`db/stores/query.rs`). The query joins each
document to the fields of its current view, one row per field, keeps the rows that its
`WHERE` fragments accept, sorts them by the keys of `order_sql`, cuts a page and groups the
rows back into documents. Each fragment is modelled by what it computes on a row. -/
namespace Aquadoggo

inductive Direction where
  | ascending
  | descending
deriving DecidableEq, Repr

structure Order where
  field : Option Field
  direction : Direction
deriving DecidableEq, Repr

def Order.default : Order := ⟨none, .ascending⟩

inductive PaginationField where
  | totalCount
  | hasNextPage
  | hasPreviousPage
  | startCursor
  | endCursor
deriving DecidableEq, Repr

structure Pagination where
  /-- A `NonZeroU64`. -/
  first : Nat
  first_pos : 0 < first
  after : Option PaginationCursor
  fields : List PaginationField

/-- `Select`: a set of fields, so no field twice. -/
structure Select where
  fields : List Field
  nodup : fields.Nodup

/-- `application_fields`: the selected fields of the schema. -/
def Select.applicationFields (select : Select) : List String :=
  select.fields.filterMap fun
    | .field name => some name
    | .metaField _ => none

inductive RelationListType where
  | pinned
  | unpinned
deriving DecidableEq, Repr

/-- A query over the documents of a relation list field of a root document's view. -/
structure RelationList where
  rootViewId : DocumentViewId
  field : String
  listType : RelationListType
deriving DecidableEq, Repr

structure Query where
  pagination : Pagination
  select : Select
  filter : Filter
  order : Order

/-- Why a query fails: a column the SQL text names is not there, a pre-query found no row or
a `NULL` where it reads a text, or the task panics at an `expect` or a `todo!`. -/
inductive QueryError where
  | noSuchColumn (name : String)
  | rowNotFound
  | unexpectedNull
  | panicked (message : String)
deriving DecidableEq, Repr

/-- A row of the tables the query joins: the relation list item of the root document in a
relation list query, then the document, a field of its view and the operation field. -/
structure JoinedRow where
  listItem : Option (DocumentViewFieldRow × OperationFieldRow)
  document : DocumentRow
  viewField : DocumentViewFieldRow
  field : OperationFieldRow
deriving DecidableEq, Repr

/-- The operation fields joined to a view field on operation id and field name. -/
def Db.fieldsOf (db : Db) (viewField : DocumentViewFieldRow) : List OperationFieldRow :=
  db.operationFields.filter fun field =>
    field.operationId == viewField.operationId && field.name == viewField.name

/-- The rows of the documents, each joined to the fields of its current view. -/
def Db.documentRows (db : Db) (listItem : Option (DocumentViewFieldRow × OperationFieldRow))
    (documents : List DocumentRow) : List JoinedRow :=
  documents.flatMap fun document =>
    (db.documentViewFields.filter (·.documentViewId == document.documentViewId)).flatMap
      fun viewField => (db.fieldsOf viewField).map fun field => ⟨listItem, document, viewField, field⟩

/-- The text a relation list item holds of the documents it names. -/
def RelationListType.documentKey (listType : RelationListType) (document : DocumentRow) : String :=
  match listType with
  | .pinned => document.documentViewId.toString
  | .unpinned => document.documentId.hash

/-- `from_sql` with the join on `operation_fields_v1` the query adds to it. -/
def fromSql (db : Db) (list : Option RelationList) : List JoinedRow :=
  match list with
  | none => db.documentRows none db.documents
  | some relationList =>
    db.viewFieldRows.flatMap fun (listViewField, listField) =>
      db.documentRows (some (listViewField, listField)) (db.documents.filter fun document =>
        listField.value == some (relationList.listType.documentKey document))

def RelationListType.fieldType : RelationListType → StoredFieldType
  | .pinned => .pinnedRelationList
  | .unpinned => .relationList

/-- The first field of a schema: its fields are kept sorted by name. -/
def Schema.firstFieldName (schema : Schema) : Option String :=
  (schema.fields.map (·.1)).min?

/-- `where_sql` and `where_fields_sql`: the collection, or the relation list, the first list
item of every field, and the selected fields, or the first field when none is selected. -/
def whereSql (schema : Schema) (fields : List String) (list : Option RelationList)
    (row : JoinedRow) : Bool :=
  let listIndex := row.field.listIndex == 0
  let selectedFields :=
    if fields.isEmpty then some row.field.name == schema.firstFieldName
    else fields.contains row.field.name
  let collection :=
    match list, row.listItem with
    | none, _ => row.document.schemaId == schema.id
    | some relationList, some (listViewField, listField) =>
      listViewField.documentViewId == relationList.rootViewId &&
        listField.fieldType == relationList.listType.fieldType &&
        listField.name == relationList.field
    | some _, none => false
  collection && listIndex && selectedFields

/-- The `owner` column: the public key of the operation whose id is the document id. -/
def ownerSql (db : Db) (document : DocumentRow) : SqlValue :=
  match db.operations.find? (·.operationId.hash == document.documentId.hash) with
  | some op => .text op.publicKey.hex
  | none => .null

/-- The `is_edited` column of `select_edited_sql`: the public key of some operation of the
document that is no `create`, or `NULL`. -/
def isEditedSql (db : Db) (document : DocumentRow) : SqlValue :=
  match db.operations.find? fun op => op.action != .create && op.documentId == document.documentId with
  | some op => .text op.publicKey.hex
  | none => .null

/-- SQLite's `true` and `false`. -/
def SqlValue.ofBool (value : Bool) : SqlValue := .integer (if value then 1 else 0)

@[simp] theorem SqlValue.cmp_ofBool_eq (a b : Bool) :
    (SqlValue.ofBool a).cmp .eq (.ofBool b) = (a == b) := by
  cases a <;> cases b <;> decide

/-- The fragment of `where_filter_sql` for one setting, on a row; `none` where it writes
none. The `is_edited` of the edited filter is the alias of the select list. -/
def FilterSetting.sql (db : Db) (schema : Schema) (editedSelected : Bool) (setting : FilterSetting) :
    Except QueryError (Option (JoinedRow → Bool)) :=
  match setting.field with
  | .metaField .owner => pure <| some fun row =>
    db.operations.any fun op => op.operationId.hash == row.document.documentId.hash &&
      cmpSql (.text op.publicKey.hex) setting
  -- Both flags compare with the value alone: the exclusive flag is not read.
  | .metaField .edited =>
    match setting.filterBy with
    | .element (.boolean value) =>
      if editedSelected then
        pure <| some fun row => (isEditedSql db row.document).cmp .eq (.ofBool value)
      else throw (.noSuchColumn "is_edited")
    | _ => pure none
  | .metaField .deleted =>
    match setting.filterBy with
    | .element (.boolean value) =>
      pure <| some fun row => (SqlValue.ofBool row.document.isDeleted).cmp .eq (.ofBool value)
    | _ => pure none
  | .metaField .documentId => pure <| some fun row => cmpSql (.text row.document.documentId.hash) setting
  | .metaField .documentViewId =>
    pure <| some fun row => cmpSql (.text row.document.documentViewId.toString) setting
  -- Some field of the row's view with the name, any list item, passes the comparison.
  | .field name => pure <| some fun row =>
    (db.documentViewFields.filter (·.documentViewId == row.viewField.documentViewId)).any
      fun viewField => (db.fieldsOf viewField).any fun field =>
        field.name == name &&
          cmpSql (typecastFieldSql (.ofColumn field.value) name schema true) setting

/-- The fragment of a setting on the deleted flag compares the document's flag with the value,
negated or not. -/
theorem FilterSetting.sql_deleted (db : Db) (schema : Schema) (editedSelected value exclusive : Bool) :
    FilterSetting.sql db schema editedSelected ⟨.metaField .deleted, .element (.boolean value), exclusive⟩ =
      .ok (some fun row => row.document.isDeleted == value) := by
  simp only [FilterSetting.sql, SqlValue.cmp_ofBool_eq]
  rfl

/-- `where_filter_sql`: every fragment holds. -/
def whereFilterSql (db : Db) (filter : Filter) (schema : Schema) (editedSelected : Bool) :
    Except QueryError (JoinedRow → Bool) := do
  let fragments ← filter.settings.mapM (·.sql db schema editedSelected)
  pure fun row => fragments.all fun fragment => (fragment.map (· row)).getD true

/-- The first row of a pre-query, as `fetch_one` returns it. -/
def fetchOne {α : Type} : List α → Except QueryError α
  | [] => throw .rowNotFound
  | row :: _ => pure row

/-- The view of the first view field holding the operation of the field with the cursor. -/
def Db.cursorViewIds (db : Db) (cursor : String) : List DocumentViewId :=
  (db.operationFields.filter (·.cursor == cursor)).flatMap fun field =>
    (db.documentViewFields.filter (·.operationId == field.operationId)).map (·.documentViewId)

/-- The fields named `name` of operations of the view: the join on the operation id alone. -/
def Db.viewFieldsNamed (db : Db) (viewId : Option DocumentViewId) (name : String) :
    List OperationFieldRow :=
  db.operationFields.filter fun field => field.name == name &&
    db.documentViewFields.any fun viewField =>
      viewField.operationId == field.operationId && some viewField.documentViewId == viewId

/-- `where_pagination_sql`: the condition for the rows after the cursor, with its pre-queries
run. `cursor_sql` names the operation field of the query or of the subquery it stands in. -/
def wherePaginationSql (db : Db) (pagination : Pagination) (fields : List String)
    (list : Option RelationList) (schema : Schema) (order : Order) :
    Except QueryError (JoinedRow → Bool) :=
  match pagination.after with
  | none => pure fun _ => true
  | some cursor =>
    -- A cursor of another relation list is ignored.
    if list.isSome && list.map (·.rootViewId) != cursor.rootViewId then pure fun _ => true
    else do
    let rootCursor : Except QueryError String :=
      match cursor.rootOperationCursor with
      | some rootCursor => pure rootCursor.value
      | none =>
        throw (.panicked "Expect root_operation_cursor to be set when querying relation list")
    let cursorSql ← match list with
      | some _ => do
        let rootCursor ← rootCursor
        pure fun (listItem : Option (DocumentViewFieldRow × OperationFieldRow))
          (_ : OperationFieldRow) => listItem.any fun (_, listField) =>
            SqlValue.cmp .gt (.text listField.cursor) (.text rootCursor)
      | none => pure fun _ (field : OperationFieldRow) =>
          SqlValue.cmp .gt (.text field.cursor) (.text cursor.operationCursor.value)
    let cmpDirection : SqlCmp := match order.direction with
      | .ascending => .gt
      | .descending => .lt
    match order.field with
    | none =>
      match list with
      | none => do
        let viewId ← fetchOne (db.cursorViewIds cursor.operationCursor.value)
        pure fun row => SqlValue.cmp .gt (.text row.document.documentViewId.toString)
          (.text viewId.toString)
      | some _ => do
        let rootCursor ← rootCursor
        let listIndex ← fetchOne ((db.operationFields.filter (·.cursor == rootCursor)).map
          (·.listIndex))
        pure fun row => row.listItem.any fun (_, listField) =>
          SqlValue.cmp .gt (.integer listField.listIndex) (.integer listIndex)
    | some (.metaField metaField) => do
      let (cmpValue, cmpField) ← match metaField with
        | .documentId => do
          let documentId ← fetchOne ((db.operationFields.filter
            (·.cursor == cursor.operationCursor.value)).filterMap fun field =>
              (db.operations.find? (·.operationId == field.operationId)).map (·.documentId))
          pure (documentId.hash, fun (row : JoinedRow) => row.document.documentId.hash)
        | .documentViewId => do
          let viewId ← fetchOne (db.cursorViewIds cursor.operationCursor.value)
          pure (viewId.toString, fun (row : JoinedRow) => row.document.documentViewId.toString)
        | .owner | .edited | .deleted => throw (.panicked "Not implemented")
      -- Rows are one per document here, so the document alone decides.
      if fields.isEmpty && list.isNone then
        pure fun row => SqlValue.cmp cmpDirection (.text (cmpField row)) (.text cmpValue)
      else
        pure fun row => SqlValue.cmp cmpDirection (.text (cmpField row)) (.text cmpValue) ||
          (SqlValue.cmp .eq (.text (cmpField row)) (.text cmpValue) &&
            cursorSql row.listItem row.field)
    | some (.field orderFieldName) => do
      let viewId := (db.cursorViewIds cursor.operationCursor.value).head?
      let value ← fetchOne ((db.viewFieldsNamed viewId orderFieldName).map (·.value))
      let value ← match value with
        | some value => pure value
        | none => throw .unexpectedNull
      let bindArgMarker := typecastFieldSql (.text value) orderFieldName schema false
      pure fun row => (db.viewFieldsNamed (some row.document.documentViewId) orderFieldName).any
        fun field =>
          let cmpField := typecastFieldSql (.ofColumn field.value) orderFieldName schema false
          cmpField.cmp cmpDirection bindArgMarker ||
            (cmpField.cmp .eq bindArgMarker && cursorSql row.listItem field)

/-- A key of `ORDER BY`, with its direction. -/
abbrev OrderKey := Direction × SqlValue

/-- `order_sql`: the keys of a row, in order. Ordering by `owner` or `is_edited` names the
alias of the select list. -/
def orderSql (db : Db) (order : Order) (schema : Schema) (list : Option RelationList)
    (fields : List String) (select : Select) : Except QueryError (JoinedRow → List OrderKey) := do
  let custom ← match order.field with
    | none => pure fun (_ : JoinedRow) => []
    | some field => do
      let value ← match field with
        | .metaField .documentId => pure fun (row : JoinedRow) => SqlValue.text row.document.documentId.hash
        | .metaField .documentViewId =>
          pure fun (row : JoinedRow) => SqlValue.text row.document.documentViewId.toString
        | .metaField .owner =>
          if select.fields.contains (.metaField .owner) then
            pure fun (row : JoinedRow) => ownerSql db row.document
          else throw (.noSuchColumn "owner")
        | .metaField .edited =>
          if select.fields.contains (.metaField .edited) then
            pure fun (row : JoinedRow) => isEditedSql db row.document
          else throw (.noSuchColumn "is_edited")
        | .metaField .deleted => pure fun (row : JoinedRow) => SqlValue.ofBool row.document.isDeleted
        | .field fieldName => pure fun (row : JoinedRow) =>
          match db.viewFieldsNamed (some row.document.documentViewId) fieldName with
          | field :: _ => typecastFieldSql (.ofColumn field.value) fieldName schema false
          | [] => .null
      pure fun (row : JoinedRow) => [(order.direction, value row)]
  let listSql := fun (row : JoinedRow) =>
    match order.field, row.listItem with
    | none, some (_, listField) => [(Direction.ascending, SqlValue.integer listField.listIndex)]
    | _, _ => []
  let idSql := fun (row : JoinedRow) =>
    if fields.length > 1 && order.field != some (.metaField .documentViewId) then
      [(Direction.ascending, SqlValue.text row.document.documentViewId.toString)]
    else []
  let cursorSql := fun (row : JoinedRow) =>
    match list, row.listItem with
    | some _, some (_, listField) => [(Direction.ascending, SqlValue.text listField.cursor)]
    | _, _ => [(Direction.ascending, SqlValue.text row.field.cursor)]
  pure fun row => custom row ++ listSql row ++ idSql row ++ cursorSql row

/-- Compare two rows key by key, each key in its direction. -/
def compareKeys : List OrderKey → List OrderKey → Ordering
  | (direction, a) :: rest, (_, b) :: others =>
    match a.compare b with
    | .eq => compareKeys rest others
    | ordering => if direction = .ascending then ordering else ordering.swap
  | _, _ => .eq

/-- `ORDER BY`: rows with equal keys keep the order of the join. -/
def orderBy (keys : JoinedRow → List OrderKey) (rows : List JoinedRow) : List JoinedRow :=
  rows.insertionSort fun a b => compareKeys (keys a) (keys b) ≠ .gt

/-- `limit_sql`: a page of documents is `first` rows per selected field. -/
def limitSql (pagination : Pagination) (fields : List String) : Nat :=
  pagination.first * max 1 fields.length

/-- A document of a query result. -/
structure QueryDocument where
  id : DocumentId
  viewId : DocumentViewId
  fields : List (String × StoredFieldType × Option String)
  author : SqlValue
  deleted : Bool
deriving DecidableEq, Repr

/-- `row_to_cursor`. -/
def rowToCursor (row : JoinedRow) (list : Option RelationList) : PaginationCursor :=
  match list, row.listItem with
  | some relationList, some (_, listField) =>
    ⟨⟨row.field.cursor⟩, some ⟨listField.cursor⟩, some relationList.rootViewId⟩
  | _, _ => ⟨⟨row.field.cursor⟩, none, none⟩

/-- The document `finalize_document` assembles: the document of the first row of a block, with
the fields of the rows collected for it. -/
def blockDocument (db : Db) (select : Select) (row : JoinedRow) (collected : List JoinedRow) :
    QueryDocument :=
  ⟨row.document.documentId, row.document.documentViewId,
    collected.map fun row => (row.field.name, row.field.fieldType, row.field.value),
    if select.fields.contains (.metaField .owner) then ownerSql db row.document else .null,
    row.document.isDeleted⟩

/-- The `finalize_document` of `convert_rows`: the cursor is that of the row the map of
collected rows holds under the name of the last collected field. -/
def finalizeDocument (db : Db) (select : Select) (list : Option RelationList) (row : JoinedRow)
    (collectedFields : List JoinedRow) (collectedRows : List (String × JoinedRow)) :
    Except QueryError (PaginationCursor × QueryDocument) := do
  let some lastField := collectedFields.getLast? | throw (.panicked "Needs to be at least one field")
  let some cursorRow := collectedRows.lookup lastField.field.name
    | throw (.panicked "Field selected for ordering needs to be inside of document")
  pure (rowToCursor cursorRow list, blockDocument db select row collectedFields)

/-- The variables of the loop of `convert_rows`: the converted documents, the first row of the
current document, its collected fields, and the map of collected rows by field name, which the
loop never clears. -/
structure ConvertState where
  converted : List (PaginationCursor × QueryDocument)
  current : JoinedRow
  currentFields : List JoinedRow
  currentRows : List (String × JoinedRow)

/-- One turn of the loop of `convert_rows`: a row whose index is a multiple of the rows per
document, but not the first, closes the current document. -/
def convertStep (db : Db) (select : Select) (list : Option RelationList) (rowsPerDocument : Nat)
    (state : ConvertState) (entry : JoinedRow × Nat) : Except QueryError ConvertState := do
  let (row, index) := entry
  let state ← if index % rowsPerDocument == 0 && index > 0 then do
      let document ← finalizeDocument db select list state.current state.currentFields
        state.currentRows
      pure { state with
        converted := state.converted ++ [document]
        current := row
        currentFields := [] }
    else pure state
  pure { state with
    currentRows := Library.insertMap state.currentRows row.field.name row
    currentFields := state.currentFields ++ [row] }

/-- `convert_rows`: a new document starts every `max(fields, 1)` rows. -/
def convertRows (db : Db) (select : Select) (rows : List JoinedRow) (list : Option RelationList)
    (fields : List String) : Except QueryError (List (PaginationCursor × QueryDocument)) :=
  match rows with
  | [] => pure []
  | first :: _ => do
    let rowsPerDocument := max fields.length 1
    let state ← rows.zipIdx.foldlM (convertStep db select list rowsPerDocument) ⟨[], first, [], []⟩
    -- Do it one last time at the end for the last document
    let document ← finalizeDocument db select list state.current state.currentFields
      state.currentRows
    pure (state.converted ++ [document])

structure PaginationData where
  totalCount : Option Nat
  hasNextPage : Bool
  hasPreviousPage : Bool
  startCursor : Option PaginationCursor
  endCursor : Option PaginationCursor
deriving DecidableEq, Repr

/-- `SqlStore::count`: the rows of the first field name, in the order of `GROUP BY`. The count
query selects no alias. -/
def Db.count (db : Db) (schema : Schema) (args : Query) (list : Option RelationList) :
    Except QueryError Nat := do
  let fields := args.select.applicationFields
  let filter ← whereFilterSql db args.filter schema false
  let rows := (fromSql db list).filter fun row => whereSql schema fields list row && filter row
  let names := (rows.map (·.field.name)).dedup
  pure (match names.min? with
    | some name => (rows.filter (·.field.name == name)).length
    | none => 0)

/-- `SqlStore::query`. -/
def Db.query (db : Db) (schema : Schema) (args : Query) (list : Option RelationList) :
    Except QueryError (PaginationData × List (PaginationCursor × QueryDocument)) := do
  let fields := args.select.applicationFields
  let filter ← whereFilterSql db args.filter schema
    (args.select.fields.contains (.metaField .edited))
  let pagination ← wherePaginationSql db args.pagination fields list schema args.order
  let keys ← orderSql db args.order schema list fields args.select
  let pageSize := limitSql args.pagination fields
  let rows := (orderBy keys ((fromSql db list).filter fun row =>
    whereSql schema fields list row && filter row && pagination row)).take (pageSize + 1)
  -- One row more than the page tells whether there is a next page.
  let hasNextPage := rows.length > pageSize
  let rows := if hasNextPage then rows.dropLast else rows
  let totalCount ← if args.pagination.fields.contains .totalCount then
      some <$> db.count schema args list
    else pure none
  let documents ← convertRows db args.select rows list fields
  let startCursor := if args.pagination.fields.contains .startCursor then
      documents.head?.map (·.1) else none
  let endCursor := if args.pagination.fields.contains .endCursor then
      documents.getLast?.map (·.1) else none
  pure (⟨totalCount, hasNextPage, false, startCursor, endCursor⟩, documents)

end Aquadoggo
