import Aquadoggo.Query.Paginate

/-! What a filter on meta fields means: the document id, view id and owner are compared as
identifiers, and the deleted and edited flags as booleans, an exclusive setting negating the
comparison. The collection a filter selects is the documents of the schema for which every
setting holds. Against it, `where_filter_sql` writes the fragment of a flag from its value
alone, so the exclusive flag of such a setting changes no query and no page. -/
namespace Aquadoggo

open Library

/-- The value of a meta field of a stored document. -/
def MetaField.value (db : Db) (document : DocumentRow) : MetaField → OperationValue
  | .documentId => .string document.documentId.hash
  | .documentViewId => .string document.documentViewId.toString
  | .owner => .string (((db.operations.find? (·.operationId.hash == document.documentId.hash)).map
      (·.publicKey.hex)).getD "")
  | .edited => .boolean (db.operations.any fun op =>
      op.documentId == document.documentId && op.action != .create)
  | .deleted => .boolean document.isDeleted

/-- Equality with the element, or membership in the set, negated when exclusive.
`parse_meta_filter` builds no other setting on a meta field. -/
def MetaField.holds (db : Db) (document : DocumentRow) (field : MetaField) :
    FilterBy → Bool → Bool
  | .element element, exclusive => (field.value db document == element) != exclusive
  | .set elements, exclusive => elements.contains (field.value db document) != exclusive
  | _, _ => true

/-- A setting on a meta field holds of the document; `none` on an application field. -/
def FilterSetting.metaHolds (db : Db) (document : DocumentRow) (setting : FilterSetting) :
    Option Bool :=
  match setting.field with
  | .metaField field => some (field.holds db document setting.filterBy setting.exclusive)
  | .field _ => none

/-- The documents of the schema that a filter of meta settings selects. -/
def Db.metaFiltered (db : Db) (schema : Schema) (filter : Filter) : List DocumentRow :=
  db.documents.filter fun document => document.schemaId == schema.id &&
    filter.settings.all fun setting => setting.metaHolds db document == some true

theorem FilterSetting.metaHolds_deleted (db : Db) (document : DocumentRow) (value exclusive : Bool) :
    (⟨.metaField .deleted, .element (.boolean value), exclusive⟩ : FilterSetting).metaHolds db document =
      some ((document.isDeleted == value) != exclusive) := by
  simp only [FilterSetting.metaHolds, MetaField.holds, MetaField.value]
  cases document.isDeleted <;> cases value <;> rfl

/-- On the deleted flag, the fragment selects what the reference does for a plain setting, and
the complement for a negated one. -/
theorem sql_deleted_eq_metaHolds (db : Db) (schema : Schema) (editedSelected value exclusive : Bool) :
    FilterSetting.sql db schema editedSelected ⟨.metaField .deleted, .element (.boolean value), exclusive⟩ =
      .ok (some fun row => ((FilterSetting.metaHolds db row.document
        ⟨.metaField .deleted, .element (.boolean value), exclusive⟩).getD true) != exclusive) := by
  rw [FilterSetting.sql_deleted]
  congr
  funext row
  rw [FilterSetting.metaHolds_deleted]
  cases exclusive <;> simp

/-- A setting on the deleted or the edited flag. -/
def Field.isFlag : Field → Bool
  | .metaField .deleted | .metaField .edited => true
  | _ => false

/-- The filter with the exclusive flag of each setting on a flag set anew. -/
def Filter.withFlagExclusive (filter : Filter) (exclusive : FilterSetting → Bool) : Filter :=
  ⟨filter.settings.map fun setting =>
    if setting.field.isFlag then { setting with exclusive := exclusive setting } else setting⟩

/-- The fragment of a setting on a flag does not read its exclusive flag. -/
theorem FilterSetting.sql_flag_exclusive (db : Db) (schema : Schema) (editedSelected : Bool)
    {setting : FilterSetting} (hflag : setting.field.isFlag = true) (exclusive : Bool) :
    ({ setting with exclusive } : FilterSetting).sql db schema editedSelected =
      setting.sql db schema editedSelected := by
  obtain ⟨field, filterBy, _⟩ := setting
  cases field with
  | metaField field => cases field <;> first | rfl | simp [Field.isFlag] at hflag
  | field name => simp [Field.isFlag] at hflag

theorem whereFilterSql_withFlagExclusive (db : Db) (filter : Filter) (schema : Schema)
    (editedSelected : Bool) (exclusive : FilterSetting → Bool) :
    whereFilterSql db (filter.withFlagExclusive exclusive) schema editedSelected =
      whereFilterSql db filter schema editedSelected := by
  have hfragments : (filter.withFlagExclusive exclusive).settings.mapM
      (·.sql db schema editedSelected) = filter.settings.mapM (·.sql db schema editedSelected) := by
    unfold Filter.withFlagExclusive
    rw [List.mapM_map]
    congr 1
    funext setting
    simp only [Function.comp]
    split
    · next hflag => exact FilterSetting.sql_flag_exclusive db schema editedSelected hflag _
    · rfl
  simp only [whereFilterSql, hfragments]

/-- Negating a setting on the deleted or the edited flag, or not, changes no query. -/
theorem query_withFlagExclusive (db : Db) (schema : Schema) (args : Query)
    (list : Option RelationList) (exclusive : FilterSetting → Bool) :
    db.query schema { args with filter := args.filter.withFlagExclusive exclusive } list =
      db.query schema args list := by
  simp only [Db.query, Db.count, whereFilterSql_withFlagExclusive]

/-- Nor does it change what paging through the collection lists. -/
theorem paginate_withFlagExclusive (db : Db) (schema : Schema) (list : Option RelationList)
    (exclusive : FilterSetting → Bool) (fuel : Nat) (args : Query) :
    db.paginate schema list fuel { args with filter := args.filter.withFlagExclusive exclusive } =
      db.paginate schema list fuel args := by
  induction fuel generalizing args with
  | zero => rfl
  | succ fuel ih =>
    simp only [Db.paginate, query_withFlagExclusive]
    split
    · rfl
    · split
      -- The next page's query still has the flags set anew.
      · exact congrArg (Option.map _) (ih (args.after _))
      · rfl

/-- `deleted: { notEq: true }`, on the default filter. -/
def notDeletedQuery : Query :=
  ⟨⟨25, by decide, none, [.hasNextPage, .endCursor]⟩,
    ⟨[.metaField .documentId, .metaField .documentViewId], by decide⟩,
    parseMetaFilter Filter.default [(.deleted, [.notEq (.boolean true)])],
    ⟨some (.metaField .documentId), .ascending⟩⟩

/-- The filter asks for the documents that are not deleted, which are both documents of the
store. The setting replaces the default `deleted = false`, and `where_filter_sql` writes
`documents.is_deleted = true` without reading its exclusive flag: the query returns none of
them. -/
theorem deleted_notEq_selects_no_document :
    Run Db.Step Db.empty tiedEvents tiedStore ∧
      notDeletedQuery.filter.settings = [⟨.metaField .deleted, .element (.boolean true), true⟩] ∧
      (tiedStore.metaFiltered tiedSchema notDeletedQuery.filter).map (·.documentId) =
        [⟨"A1"⟩, ⟨"A2"⟩] ∧
      tiedStore.paginate tiedSchema none 1 notDeletedQuery = some (.ok []) := by
  refine ⟨tiedStore_run, rfl, by decide +kernel, ?_⟩
  have hpage : tiedStore.query tiedSchema notDeletedQuery none =
      .ok (⟨none, false, false, none, none⟩, []) := by
    decide +kernel
  simp [Db.paginate, hpage]

end Aquadoggo
