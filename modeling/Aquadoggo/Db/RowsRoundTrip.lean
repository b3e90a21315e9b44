import Aquadoggo.Db.OperationRows

/-! Operations and document views read back as they were written. The rows of several fields
interleave under `ORDER BY list_index`; the rows of one field still come in the order of
their list indices, so the loop sees each field's items in list order, and it gathers each
field on its own (`foldlM_keyed`). The theorems hold for every order the `ORDER BY` leaves
to the database. -/
namespace Aquadoggo

open Library FieldRowsAcc

/-- The rows `insert_operation` wrote for fields that each name their operation. -/
def fieldRowsOf (fields : List (String × OperationId × OperationValue)) : List OperationFieldRow :=
  fields.flatMap fun (name, operationId, value) => fieldRows operationId [(name, value)]

theorem fieldRows_eq_fieldRowsOf (operationId : OperationId)
    (fields : List (String × OperationValue)) :
    fieldRows operationId fields =
      fieldRowsOf (fields.map fun (name, value) => (name, operationId, value)) := by
  simp [fieldRows, fieldRowsOf, List.flatMap_map]

theorem fieldRowsOf_singleton (name : String) (operationId : OperationId)
    (value : OperationValue) :
    fieldRowsOf [(name, operationId, value)] = fieldRows operationId [(name, value)] := by
  simp [fieldRowsOf]

theorem filter_name_fieldRowsOf (fields : List (String × OperationId × OperationValue))
    (name : String) :
    (fieldRowsOf fields).filter (·.name == name) = fieldRowsOf (fields.filter (·.1 == name)) := by
  induction fields with
  | nil => rfl
  | cons field rest ih =>
    obtain ⟨name', operationId, value⟩ := field
    have hnames : ∀ row ∈ fieldRows operationId [(name', value)], row.name = name' := by
      intro row hrow
      rw [fieldRows_single] at hrow
      exact (name_of_mem_itemRows hrow).2
    simp only [fieldRowsOf, List.flatMap_cons, List.filter_append, List.filter_cons] at ih ⊢
    rw [ih]
    -- The field's rows all carry its name: the filter keeps all of them or none.
    by_cases hname : name' = name
    · subst hname
      simpa using hnames
    · have hnone : (fieldRows operationId [(name', value)]).filter (·.name == name) = [] :=
        List.filter_eq_nil_iff.mpr fun row hrow => by simp [hnames row hrow, hname]
      simp [hname, hnone]

section Names

variable {fields : List (String × OperationId × OperationValue)}

/-- With distinct names, a name has one field or none. -/
theorem filter_name_cases (hnames : (fields.map (·.1)).Nodup) (name : String) :
    fields.filter (·.1 == name) = [] ∨
      ∃ operationId value, fields.filter (·.1 == name) = [(name, operationId, value)] := by
  have hsame : ∀ field ∈ fields.filter (·.1 == name), field.1 = name := by
    intro field hfield
    simpa using (List.mem_filter.mp hfield).2
  have hnodup : ((fields.filter (·.1 == name)).map (·.1)).Nodup :=
    hnames.sublist ((List.filter_sublist).map _)
  generalize fields.filter (·.1 == name) = same at hsame hnodup ⊢
  rcases same with _ | ⟨⟨name', operationId, value⟩, _ | ⟨second, rest⟩⟩
  · exact .inl rfl
  · obtain rfl : name' = name := hsame _ (.head _)
    exact .inr ⟨operationId, value, rfl⟩
  · -- Two fields of one name contradict distinct names.
    have hfirst := hsame _ (.head _)
    have hsecond := hsame second (.tail _ (.head _))
    simp only [List.map_cons, List.nodup_cons, List.mem_cons] at hnodup
    exact absurd (.inl (hfirst.trans hsecond.symm)) hnodup.1

/-- The rows of one field name come in increasing list indices. -/
theorem pairwise_filter_fieldRowsOf (hnames : (fields.map (·.1)).Nodup) (name : String) :
    ((fieldRowsOf fields).filter (·.name == name)).Pairwise (·.listIndex < ·.listIndex) := by
  rw [filter_name_fieldRowsOf]
  rcases filter_name_cases hnames name with hnone | ⟨operationId, value, hone⟩
  · rw [hnone]
    exact List.Pairwise.nil
  · rw [hone, fieldRowsOf_singleton, fieldRows_single]
    exact pairwise_itemRows _ _ _ _ _

/-- In any order sorted by list index, the rows of one field name are the rows the insert
wrote for that field, in their order. -/
theorem filter_eq_of_perm_sorted {α : Type} (f : OperationFieldRow → α) (nameOf : α → String)
    (indexOf : α → Nat) (hname : ∀ row, nameOf (f row) = row.name)
    (hindex : ∀ row, indexOf (f row) = row.listIndex) (hnames : (fields.map (·.1)).Nodup)
    {rows : List α} (hperm : rows.Perm ((fieldRowsOf fields).map f))
    (hsorted : rows.Pairwise fun a b => indexOf a ≤ indexOf b) (name : String) :
    rows.filter (nameOf · == name) = ((fieldRowsOf fields).filter (·.name == name)).map f := by
  have hpair := pairwise_filter_fieldRowsOf hnames name
  have hperm' : (rows.filter (nameOf · == name)).Perm
      (((fieldRowsOf fields).filter (·.name == name)).map f) := by
    have h := hperm.filter (nameOf · == name)
    rwa [List.filter_map, show ((nameOf · == name) ∘ f) = (·.name == name) from
      funext fun row => by simp [hname]] at h
  -- The indices of one field's rows are distinct, so an index picks out one row.
  have hnodup : ((((fieldRowsOf fields).filter (·.name == name)).map f).map indexOf).Nodup := by
    rw [List.map_map, show indexOf ∘ f = (·.listIndex) from funext hindex]
    exact (List.pairwise_map.mpr hpair).imp Nat.ne_of_lt
  apply @List.Perm.eq_of_pairwise _ (fun a b => indexOf a ≤ indexOf b)
  · intro a b ha hb hab hba
    exact List.inj_on_of_nodup_map hnodup (hperm'.mem_iff.mp ha) hb (Nat.le_antisymm hab hba)
  · exact hsorted.sublist List.filter_sublist
  · exact List.pairwise_map.mpr (hpair.imp fun h => by rw [hindex, hindex]; exact Nat.le_of_lt h)
  · exact hperm'

end Names

section Gather

variable {τ : Type} [DecidableEq τ]

/-- What the loop should gather at one field name: that field, or nothing. -/
def expectedAt (tag : OperationId → τ) (fields : List (String × OperationId × OperationValue))
    (name : String) : FieldRowsAcc τ :=
  match fields.filter (·.1 == name) with
  | [(name, operationId, value)] => single (tag operationId) name value
  | _ => empty

/-- The loop over the rows of fields with distinct names, in any order sorted by list index,
gathers exactly those fields. -/
theorem foldlM_of_perm_fieldRowsOf {α : Type} (step : FieldRowsAcc τ → α → Option (FieldRowsAcc τ))
    (f : OperationFieldRow → α) (tag : OperationId → τ) (nameOf : α → String) (indexOf : α → Nat)
    (hstep : ∀ acc row, step acc (f row) = addRow tag acc row)
    (hname : ∀ row, nameOf (f row) = row.name) (hindex : ∀ row, indexOf (f row) = row.listIndex)
    {fields : List (String × OperationId × OperationValue)} (hnames : (fields.map (·.1)).Nodup)
    (hvalid : ∀ field ∈ fields, field.2.2.Valid) {rows : List α}
    (hperm : rows.Perm ((fieldRowsOf fields).map f))
    (hsorted : rows.Pairwise fun a b => indexOf a ≤ indexOf b) :
    ∃ acc, rows.foldlM step empty = some acc ∧
      acc.fields.Perm (fields.map fun (name, operationId, value) => (name, tag operationId, value)) := by
  -- Each row touches only its field name.
  have hkeyed : ∀ acc, ∀ a ∈ rows, ∀ t, step (acc.restrict (nameOf a)) a = some t →
      ∃ acc', step acc a = some acc' ∧ acc'.restrict (nameOf a) = t ∧
        ∀ k, k ≠ nameOf a → acc'.restrict k = acc.restrict k := by
    intro acc a ha t ht
    obtain ⟨row, -, rfl⟩ := List.mem_map.mp (hperm.mem_iff.mp ha)
    rw [hstep, addRow, hname] at ht
    rw [hstep, hname]
    exact add_keyed ht
  -- At each name the rows are that field's rows, which read back as the field.
  have hgoal : ∀ k, (rows.filter (nameOf · == k)).foldlM step (empty.restrict k) =
      some (expectedAt tag fields k) := by
    intro k
    rw [filter_eq_of_perm_sorted f nameOf indexOf hname hindex hnames hperm hsorted k,
      filter_name_fieldRowsOf, restrict_empty, List.foldlM_map]
    simp only [hstep]
    unfold expectedAt
    rcases filter_name_cases hnames k with hnone | ⟨operationId, value, hone⟩
    · rw [hnone]
      rfl
    · have hmem : (k, operationId, value) ∈ fields :=
        (List.mem_filter.mp (hone ▸ List.mem_singleton_self _)).1
      rw [hone, fieldRowsOf_singleton]
      exact foldlM_addRow_fieldRows tag operationId k (hvalid _ hmem)
  obtain ⟨acc, hfold, hview⟩ := foldlM_keyed step nameOf restrict step rows hkeyed empty _ hgoal
  refine ⟨acc, hfold, (fields_perm_entries acc).trans (perm_of_filter_key_eq fun k => ?_)⟩
  have hmapped : (fields.map fun (name, operationId, value) => (name, tag operationId, value)).filter
      (·.1 == k) = (fields.filter (·.1 == k)).map
        fun (name, operationId, value) => (name, tag operationId, value) := by
    rw [List.filter_map]
    congr 1
  rw [← entries_restrict, hview k, hmapped]
  unfold expectedAt
  rcases filter_name_cases hnames k with hnone | ⟨operationId, value, hone⟩
  · rw [hnone]
    rfl
  · rw [hone]
    exact entries_single (tag operationId) k value

end Gather

/-! ## Operations -/

/-- What p2panda guarantees of an operation: its fields are an `OperationFields` map (in name
order, names distinct), it has a previous exactly when it is not a `create` and fields
exactly when it is not a `delete`, and its values are well formed. -/
structure Operation.Valid (operation : Operation) : Prop where
  sorted : operation.fields.Pairwise fun a b => a.1 < b.1
  previous : operation.previous = none ↔ operation.action = .create
  fields : operation.fields = [] ↔ operation.action = .delete
  values : ∀ field ∈ operation.fields, field.2.Valid

/-- A map that keeps each field's name keeps the names of a valid operation distinct. -/
theorem Operation.Valid.names_nodup {operation : Operation} (hvalid : operation.Valid) {β : Type}
    (f : String × OperationValue → String × β) (hf : ∀ field, (f field).1 = field.1) :
    ((operation.fields.map f).map (·.1)).Nodup := by
  have hkeys : (operation.fields.map f).map (·.1) = operation.fields.map (·.1) := by
    rw [List.map_map]
    exact List.map_congr_left fun field _ => hf field
  rw [hkeys]
  exact (List.pairwise_map.mpr hvalid.sorted).imp ne_of_lt

/-- Sorting a permutation of a list in strict name order gives that list. -/
theorem sortByName_eq_of_perm {β : Type} {l l' : List (String × β)} (hperm : l.Perm l')
    (hsorted : l'.Pairwise fun a b => a.1 < b.1) : sortByName l = l' := by
  have hnodup : (l'.map (·.1)).Nodup := (List.pairwise_map.mpr hsorted).imp ne_of_lt
  have hsort : (sortByName l).Perm l' := (List.mergeSort_perm _ _).trans hperm
  apply @List.Perm.eq_of_pairwise _ (fun a b => a.1 ≤ b.1)
  · intro a b ha hb hab hba
    exact List.inj_on_of_nodup_map hnodup (hsort.mem_iff.mp ha) hb (le_antisymm hab hba)
  · have h := @List.pairwise_mergeSort _ (fun a b : String × β => decide (a.1 ≤ b.1))
      (fun a b c hab hbc => by simp only [decide_eq_true_eq] at *; exact le_trans hab hbc)
      (fun a b => by simpa using le_total a.1 b.1) l
    exact h.imp of_decide_eq_true
  · exact hsorted.imp le_of_lt
  · exact hsort

theorem operationId_of_mem_fieldRows {operationId : OperationId}
    {fields : List (String × OperationValue)} {row : OperationFieldRow}
    (h : row ∈ fieldRows operationId fields) : row.operationId = operationId := by
  obtain ⟨field, -, hrow⟩ := List.mem_flatMap.mp h
  obtain ⟨_, -, rfl⟩ := List.mem_map.mp hrow
  rfl

theorem toStrings_ne_nil (value : OperationValue) : value.toStrings ≠ [] := by
  cases value with
  | relationList documents => cases documents <;> simp [OperationValue.toStrings]
  | pinnedRelationList views => cases views <;> simp [OperationValue.toStrings]
  | _ => simp [OperationValue.toStrings]

theorem fieldRows_eq_nil_iff (operationId : OperationId) (fields : List (String × OperationValue)) :
    fieldRows operationId fields = [] ↔ fields = [] := by
  unfold fieldRows
  rw [List.flatMap_eq_nil_iff]
  constructor
  · intro h
    cases fields with
    | nil => rfl
    | cons field rest =>
      obtain ⟨name, value⟩ := field
      have hrows := h (name, value) (.head _)
      simp [toStrings_ne_nil] at hrows
  · rintro rfl
    simp

/-- The rows `get_operation` selects after `insert_operation` of a new id: the new operation
row with each of its field rows, or with `NULL`s when it has no fields. -/
theorem operationFieldsJoined_insertOperation {db : Db} {operationId : OperationId}
    {publicKey : PublicKey} {operation : Operation} {documentId : DocumentId}
    (hoperations : ∀ row ∈ db.operations, row.operationId ≠ operationId)
    (hfields : ∀ row ∈ db.operationFields, row.operationId ≠ operationId) :
    (db.insertOperation operationId publicKey operation documentId).operationFieldsJoined
        operationId =
      let row : OperationRow := ⟨publicKey, documentId, operationId, operation.action,
        operation.schemaId, operation.previous, none⟩
      if operation.fields = [] then [.ofRows row none]
      else (fieldRows operationId operation.fields).map fun field => .ofRows row (some field) := by
  have hold : db.operations.filter (·.operationId == operationId) = [] :=
    List.filter_eq_nil_iff.mpr fun row hrow => by simpa using hoperations row hrow
  have holdFields : db.operationFields.filter (·.operationId == operationId) = [] :=
    List.filter_eq_nil_iff.mpr fun row hrow => by simpa using hfields row hrow
  have hnew : (fieldRows operationId operation.fields).filter (·.operationId == operationId) =
      fieldRows operationId operation.fields :=
    List.filter_eq_self.mpr fun row hrow => by simp [operationId_of_mem_fieldRows hrow]
  simp only [Db.operationFieldsJoined, Db.insertOperation, List.filter_append, hold,
    List.nil_append, List.filter_cons, beq_self_eq_true, if_true, List.filter_nil,
    List.flatMap_cons, List.flatMap_nil, List.append_nil, holdFields, hnew]
  split
  · rename_i hnil
    simp [(fieldRows_eq_nil_iff _ _).mp hnil]
  · rename_i hcons
    have hne : operation.fields ≠ [] := fun h => hcons (by simp [h, fieldRows])
    simp [hne]

/-- The builder given the fields of an operation in any order rebuilds the operation. -/
theorem buildOperation_of_perm {operation : Operation} (hvalid : operation.Valid)
    (hdelete : operation.action ≠ .delete) {fields : List (String × OperationValue)}
    (hperm : fields.Perm operation.fields) :
    buildOperation operation.action operation.schemaId operation.previous fields =
      some operation := by
  have hne : fields ≠ [] := fun h => hdelete (hvalid.fields.mp (List.Perm.nil_eq (h ▸ hperm)).symm)
  have hnames : (fields.map (·.1)).Nodup :=
    ((hperm.map _).nodup_iff).mpr ((List.pairwise_map.mpr hvalid.sorted).imp ne_of_lt)
  have hsort : sortByName fields = operation.fields := sortByName_eq_of_perm hperm hvalid.sorted
  obtain ⟨action, schemaId, previous, operationFields⟩ := operation
  cases action with
  | create =>
    have hnone : previous = none := hvalid.previous.mpr rfl
    simp [buildOperation, hne, hnames, hsort, hnone]
  | update =>
    obtain ⟨previous', rfl⟩ : ∃ previous', previous = some previous' :=
      Option.ne_none_iff_exists'.mp fun h => by cases hvalid.previous.mp h
    simp [buildOperation, hne, hnames, hsort]
  | delete => exact absurd rfl hdelete

/-- `get_operation` after `insert_operation` of a new id: in every order that `ORDER BY
list_index` allows, `parse_operation_rows` gives back the operation and where it is
stored. -/
theorem parseOperationRows_insertOperation {db : Db} {operationId : OperationId}
    {publicKey : PublicKey} {operation : Operation} {documentId : DocumentId}
    (hvalid : operation.Valid) (hoperations : ∀ row ∈ db.operations, row.operationId ≠ operationId)
    (hfields : ∀ row ∈ db.operationFields, row.operationId ≠ operationId)
    {rows : List OperationFieldsJoinedRow}
    (hperm : rows.Perm ((db.insertOperation operationId publicKey operation
      documentId).operationFieldsJoined operationId))
    (hsorted : rows.Pairwise fun a b => nullsFirstLe a.listIndex b.listIndex) :
    parseOperationRows rows = some (some ⟨documentId, operationId, operation, publicKey, none⟩) := by
  rw [operationFieldsJoined_insertOperation hoperations hfields] at hperm
  by_cases hdelete : operation.action = .delete
  · -- A delete has no fields: its one row holds `NULL`s.
    have hnil : operation.fields = [] := hvalid.fields.mpr hdelete
    simp only [hnil, if_true] at hperm
    rw [List.perm_singleton.mp hperm]
    obtain ⟨previous, hprevious⟩ : ∃ previous, operation.previous = some previous :=
      Option.ne_none_iff_exists'.mp fun h => by
        have hcreate := hvalid.previous.mp h
        rw [hdelete] at hcreate
        cases hcreate
    obtain ⟨action, schemaId, previous', fields⟩ := operation
    simp only at hdelete hnil hprevious
    subst hdelete hnil hprevious
    rfl
  · -- Otherwise the rows are the field rows, each joined with the operation's row.
    have hne : operation.fields ≠ [] := fun h => hdelete (hvalid.fields.mp h)
    simp only [hne, if_false] at hperm
    rw [fieldRows_eq_fieldRowsOf] at hperm
    set operationRow : OperationRow := ⟨publicKey, documentId, operationId, operation.action,
      operation.schemaId, operation.previous, none⟩
    set fields := operation.fields.map fun (name, value) => (name, operationId, value)
    have hnames : (fields.map (·.1)).Nodup := hvalid.names_nodup _ fun _ => rfl
    have hvalues : ∀ field ∈ fields, field.2.2.Valid := by
      intro field hfield
      obtain ⟨⟨name, value⟩, hmem, rfl⟩ := List.mem_map.mp hfield
      exact hvalid.values _ hmem
    -- Every row has a list index, so `NULL`s-first is the order of the indices.
    have hjoined : ∀ joined ∈ rows, ∃ field, joined = .ofRows operationRow (some field) := by
      intro joined hjoined
      obtain ⟨field, -, rfl⟩ := List.mem_map.mp (hperm.mem_iff.mp hjoined)
      exact ⟨field, rfl⟩
    have hsorted' : rows.Pairwise fun a b => a.listIndex.getD 0 ≤ b.listIndex.getD 0 := by
      refine hsorted.imp_of_mem fun ha hb hab => ?_
      obtain ⟨fieldA, rfl⟩ := hjoined _ ha
      obtain ⟨fieldB, rfl⟩ := hjoined _ hb
      simpa [OperationFieldsJoinedRow.ofRows, nullsFirstLe] using hab
    obtain ⟨acc, hfold, hgathered⟩ := foldlM_of_perm_fieldRowsOf
      (fun (acc : FieldRowsAcc Unit) (joined : OperationFieldsJoinedRow) => do
        let fieldType ← joined.fieldType
        let name ← joined.name
        acc.add () name fieldType joined.value)
      (fun field => .ofRows operationRow (some field)) (fun _ => ())
      (fun joined => joined.name.getD "") (fun joined => joined.listIndex.getD 0)
      (fun _ _ => rfl) (fun _ => rfl) (fun _ => rfl) hnames hvalues hperm hsorted'
    -- Projections, not a pattern lambda: the one of `parse_operation_rows` is matched up to
    -- structure eta below.
    have hdropped : (acc.fields.map fun field => (field.1, field.2.2)).Perm operation.fields := by
      have h := hgathered.map fun field => (field.1, field.2.2)
      have hround : ((fields.map fun (name, operationId, value) => (name, (), value)).map
          fun field => (field.1, field.2.2)) = operation.fields := by
        rw [List.map_map, List.map_map]
        exact List.map_id'' (fun _ => rfl) _
      rwa [hround] at h
    obtain ⟨first, rest, hrows⟩ : ∃ first rest, rows = first :: rest := by
      cases rows with
      | nil =>
        have hrows : fieldRows operationId operation.fields ≠ [] :=
          fun h => hne ((fieldRows_eq_nil_iff _ _).mp h)
        rw [fieldRows_eq_fieldRowsOf] at hrows
        exact absurd (List.map_eq_nil_iff.mp hperm.nil_eq.symm) hrows
      | cons first rest => exact ⟨first, rest, rfl⟩
    obtain ⟨field, hfirst⟩ := hjoined first (hrows ▸ .head _)
    subst hrows hfirst
    have hbuild := buildOperation_of_perm hvalid hdelete hdropped
    have hcond : (operation.action != .delete) = true := by simpa using hdelete
    simp only [parseOperationRows]
    simp only [operationRow, OperationFieldsJoinedRow.ofRows] at hfold ⊢
    simp only [hcond, if_true, hfold]
    simp [hbuild]

/-! ## Document views -/

/-- A view's field row joined with one of the rows of its operation's field. -/
def DocumentViewFieldJoinedRow.ofFieldRow (documentId : DocumentId) (viewId : DocumentViewId)
    (row : OperationFieldRow) : DocumentViewFieldJoinedRow :=
  ⟨documentId, viewId, row.operationId, row.name, row.listIndex, row.fieldType, row.value⟩

theorem name_of_mem_fieldRows_single {operationId : OperationId} {name : String}
    {value : OperationValue} {row : OperationFieldRow}
    (h : row ∈ fieldRows operationId [(name, value)]) :
    row.operationId = operationId ∧ row.name = name := by
  rw [fieldRows_single] at h
  exact name_of_mem_itemRows h

/-- The rows `get_document_view_field_rows` selects after `insert_document_view` of a new view
whose fields name operations stored with those fields: each field's operation rows. -/
theorem documentViewFieldsJoined_insertDocumentView {db : Db} {viewId : DocumentViewId}
    {documentId : DocumentId} {schemaId : SchemaId}
    {viewFields : List (String × OperationId × OperationValue)}
    (hfresh : ∀ row ∈ db.documentViewFields, row.documentViewId ≠ viewId)
    (hstored : ∀ field ∈ viewFields, db.operationFields.filter (fun row =>
      row.operationId == field.2.1 && row.name == field.1) = fieldRows field.2.1 [(field.1, field.2.2)]) :
    ∃ viewDocumentId, (db.insertDocumentView viewId documentId schemaId
      (viewFields.map fun field => (field.1, field.2.1))).documentViewFieldsJoined viewId =
        some ((fieldRowsOf viewFields).map (.ofFieldRow viewDocumentId viewId)) := by
  set db' := db.insertDocumentView viewId documentId schemaId
    (viewFields.map fun field => (field.1, field.2.1))
  -- The view row is there, inserted now or before.
  obtain ⟨view, hview⟩ : ∃ view, db'.documentViews.find? (·.documentViewId == viewId) = some view := by
    simp only [db', Db.insertDocumentView]
    split
    · rename_i hexists
      obtain ⟨view, hmem, hid⟩ := List.any_eq_true.mp hexists
      exact Option.isSome_iff_exists.mp (List.find?_isSome.mpr ⟨view, hmem, hid⟩)
    · exact Option.isSome_iff_exists.mp (List.find?_isSome.mpr ⟨_, List.mem_append_right _
        (.head _), by simp⟩)
  have hfields : db'.documentViewFields.filter (·.documentViewId == viewId) =
      viewFields.map fun field => ⟨viewId, field.2.1, field.1⟩ := by
    simp only [db', Db.insertDocumentView, List.filter_append, List.map_map]
    rw [List.filter_eq_nil_iff.mpr fun row hrow => by simpa using hfresh row hrow,
      List.filter_eq_self.mpr fun row hrow => by
        obtain ⟨_, -, rfl⟩ := List.mem_map.mp hrow
        simp]
    rfl
  refine ⟨view.documentId, ?_⟩
  unfold Db.documentViewFieldsJoined
  rw [hfields, hview]
  -- Each field row of the view joins the stored rows of its operation's field.
  rw [mapM_map_eq_some _ _ (fun field => (fieldRows field.2.1 [(field.1, field.2.2)]).map
      (.ofFieldRow view.documentId viewId))]
  · simp [fieldRowsOf, List.flatMap_def, Function.comp_def]
  · intro field hfield
    have hrows := hstored field hfield
    have hne : fieldRows field.2.1 [(field.1, field.2.2)] ≠ [] := by
      simp [fieldRows_eq_nil_iff]
    simp only [db', Db.insertDocumentView]
    rw [hrows]
    split
    · contradiction
    · change some _ = some _
      congr 1
      apply List.map_congr_left
      intro row hrow
      obtain ⟨hid, hname⟩ := name_of_mem_fieldRows_single hrow
      simp [DocumentViewFieldJoinedRow.ofFieldRow, hid, hname]

/-- `get_document_view_field_rows` after `insert_document_view` of a new view: in every order
that `ORDER BY list_index` allows, `parse_document_view_field_rows` gives back the view's
fields, each with the operation that set it. -/
theorem parseDocumentViewFieldRows_insertDocumentView {db : Db} {viewId : DocumentViewId}
    {documentId : DocumentId} {schemaId : SchemaId}
    {viewFields : List (String × OperationId × OperationValue)}
    (hsorted : viewFields.Pairwise fun a b => a.1 < b.1)
    (hvalid : ∀ field ∈ viewFields, field.2.2.Valid)
    (hfresh : ∀ row ∈ db.documentViewFields, row.documentViewId ≠ viewId)
    (hstored : ∀ field ∈ viewFields, db.operationFields.filter (fun row =>
      row.operationId == field.2.1 && row.name == field.1) = fieldRows field.2.1 [(field.1, field.2.2)]) :
    ∃ joined, (db.insertDocumentView viewId documentId schemaId
        (viewFields.map fun field => (field.1, field.2.1))).documentViewFieldsJoined viewId =
          some joined ∧
      ∀ rows : List DocumentViewFieldJoinedRow, rows.Perm joined →
        rows.Pairwise (fun a b => a.listIndex ≤ b.listIndex) →
        parseDocumentViewFieldRows rows = some viewFields := by
  obtain ⟨viewDocumentId, hjoined⟩ := documentViewFieldsJoined_insertDocumentView hfresh hstored
  refine ⟨_, hjoined, fun rows hperm hrows => ?_⟩
  have hnames : (viewFields.map (·.1)).Nodup := (List.pairwise_map.mpr hsorted).imp ne_of_lt
  obtain ⟨acc, hfold, hgathered⟩ := foldlM_of_perm_fieldRowsOf
    (fun (acc : FieldRowsAcc OperationId) (row : DocumentViewFieldJoinedRow) =>
      acc.add row.operationId row.name row.fieldType row.value)
    (.ofFieldRow viewDocumentId viewId) id (·.name) (·.listIndex)
    (fun _ _ => rfl) (fun _ => rfl) (fun _ => rfl) hnames hvalid hperm hrows
  have hfields : acc.fields.Perm viewFields := by
    have hid : (viewFields.map fun (name, operationId, value) => (name, id operationId, value)) =
        viewFields :=
      List.map_id'' (fun ⟨_, _, _⟩ => rfl) _
    rwa [hid] at hgathered
  -- Distinct names: inserting them into the map one by one replaces nothing.
  have hkeys : (acc.fields.map (·.1)).Nodup := (hfields.map _).nodup_iff.mpr hnames
  unfold parseDocumentViewFieldRows
  rw [hfold]
  exact congrArg some (sortByName_eq_of_perm ((collectMap_perm hkeys).trans hfields) hsorted)

/-- After `insert_operation` of a new id, the rows of one of its fields are the rows written
for that field: what a view naming the operation joins. -/
theorem operationFields_filter_insertOperation {db : Db} {operationId : OperationId}
    {publicKey : PublicKey} {operation : Operation} {documentId : DocumentId}
    (hvalid : operation.Valid) (hfields : ∀ row ∈ db.operationFields, row.operationId ≠ operationId)
    {name : String} {value : OperationValue} (hmem : (name, value) ∈ operation.fields) :
    (db.insertOperation operationId publicKey operation documentId).operationFields.filter
      (fun row => row.operationId == operationId && row.name == name) =
        fieldRows operationId [(name, value)] := by
  set fields := operation.fields.map fun (name, value) => (name, operationId, value)
  have hnames : (fields.map (·.1)).Nodup := hvalid.names_nodup _ fun _ => rfl
  have hone : fields.filter (·.1 == name) = [(name, operationId, value)] := by
    have hin : (name, operationId, value) ∈ fields.filter (·.1 == name) :=
      List.mem_filter.mpr ⟨List.mem_map.mpr ⟨_, hmem, rfl⟩, by simp⟩
    rcases filter_name_cases hnames name with hnone | ⟨operationId', value', hone⟩
    · rw [hnone] at hin
      cases hin
    · rw [hone] at hin ⊢
      rw [List.mem_singleton.mp hin]
  have hold : db.operationFields.filter
      (fun row => row.operationId == operationId && row.name == name) = [] :=
    List.filter_eq_nil_iff.mpr fun row hrow => by simp [hfields row hrow]
  have hnew : (fieldRows operationId operation.fields).filter
      (fun row => row.operationId == operationId && row.name == name) =
        (fieldRows operationId operation.fields).filter (·.name == name) :=
    List.filter_congr fun row hrow => by simp [operationId_of_mem_fieldRows hrow]
  simp only [Db.insertOperation, List.filter_append, hold, List.nil_append, hnew]
  rw [fieldRows_eq_fieldRowsOf, filter_name_fieldRowsOf, hone, fieldRowsOf_singleton]

theorem nullsFirstLe_trans (a b c : Option Nat) (hab : nullsFirstLe a b = true)
    (hbc : nullsFirstLe b c = true) : nullsFirstLe a c = true := by
  cases a <;> cases b <;> cases c <;> simp_all [nullsFirstLe]
  omega

theorem nullsFirstLe_total (a b : Option Nat) : (nullsFirstLe a b || nullsFirstLe b a) = true := by
  cases a <;> cases b <;> simp [nullsFirstLe]
  omega

/-- `get_operation` itself, its ties in join order, reads back an inserted operation. -/
theorem getOperationWithFields_insertOperation {db : Db} {operationId : OperationId}
    {publicKey : PublicKey} {operation : Operation} {documentId : DocumentId}
    (hvalid : operation.Valid) (hoperations : ∀ row ∈ db.operations, row.operationId ≠ operationId)
    (hfields : ∀ row ∈ db.operationFields, row.operationId ≠ operationId) :
    (db.insertOperation operationId publicKey operation documentId).getOperationWithFields
      operationId = some (some ⟨documentId, operationId, operation, publicKey, none⟩) :=
  parseOperationRows_insertOperation hvalid hoperations hfields (List.mergeSort_perm _ _)
    (List.pairwise_mergeSort (fun a b c => nullsFirstLe_trans a.listIndex b.listIndex c.listIndex)
      (fun a b => nullsFirstLe_total a.listIndex b.listIndex) _)

/-- `get_document_by_view_id`'s fields, ties in join order, read back an inserted view. -/
theorem getDocumentViewFields_insertDocumentView {db : Db} {viewId : DocumentViewId}
    {documentId : DocumentId} {schemaId : SchemaId}
    {viewFields : List (String × OperationId × OperationValue)}
    (hsorted : viewFields.Pairwise fun a b => a.1 < b.1)
    (hvalid : ∀ field ∈ viewFields, field.2.2.Valid)
    (hfresh : ∀ row ∈ db.documentViewFields, row.documentViewId ≠ viewId)
    (hstored : ∀ field ∈ viewFields, db.operationFields.filter (fun row =>
      row.operationId == field.2.1 && row.name == field.1) = fieldRows field.2.1 [(field.1, field.2.2)]) :
    (db.insertDocumentView viewId documentId schemaId
      (viewFields.map fun field => (field.1, field.2.1))).getDocumentViewFields viewId =
        some viewFields := by
  obtain ⟨joined, hjoined, hparse⟩ :=
    parseDocumentViewFieldRows_insertDocumentView hsorted hvalid hfresh hstored
  unfold Db.getDocumentViewFields
  rw [hjoined]
  exact hparse _ (List.mergeSort_perm _ _) ((@List.pairwise_mergeSort _
    (fun a b : DocumentViewFieldJoinedRow => decide (a.listIndex ≤ b.listIndex))
    (fun a b c hab hbc => by simp only [decide_eq_true_eq] at *; omega)
    (fun a b => by simp only [Bool.or_eq_true, decide_eq_true_eq]; omega) joined).imp
      of_decide_eq_true)

/-- Operations and document views read back from their rows as they were written, in every
order of rows that `ORDER BY list_index` allows. -/
theorem stored_rows_read_back :
    (∀ (db : Db) (operationId : OperationId) (publicKey : PublicKey) (operation : Operation)
        (documentId : DocumentId), operation.Valid →
      (∀ row ∈ db.operations, row.operationId ≠ operationId) →
      (∀ row ∈ db.operationFields, row.operationId ≠ operationId) →
      ∀ rows, rows.Perm ((db.insertOperation operationId publicKey operation
          documentId).operationFieldsJoined operationId) →
        rows.Pairwise (fun a b => nullsFirstLe a.listIndex b.listIndex) →
        parseOperationRows rows =
          some (some ⟨documentId, operationId, operation, publicKey, none⟩)) ∧
    (∀ (db : Db) (viewId : DocumentViewId) (documentId : DocumentId) (schemaId : SchemaId)
        (viewFields : List (String × OperationId × OperationValue)),
      viewFields.Pairwise (fun a b => a.1 < b.1) → (∀ field ∈ viewFields, field.2.2.Valid) →
      (∀ row ∈ db.documentViewFields, row.documentViewId ≠ viewId) →
      (∀ field ∈ viewFields, db.operationFields.filter (fun row =>
        row.operationId == field.2.1 && row.name == field.1) =
          fieldRows field.2.1 [(field.1, field.2.2)]) →
      ∃ joined, (db.insertDocumentView viewId documentId schemaId
          (viewFields.map fun field => (field.1, field.2.1))).documentViewFieldsJoined viewId =
            some joined ∧
        ∀ rows : List DocumentViewFieldJoinedRow, rows.Perm joined →
          rows.Pairwise (fun a b => a.listIndex ≤ b.listIndex) →
          parseDocumentViewFieldRows rows = some viewFields) :=
  ⟨fun _ _ _ _ _ hvalid hoperations hfields _ hperm hsorted =>
    parseOperationRows_insertOperation hvalid hoperations hfields hperm hsorted,
   fun _ _ _ _ _ hsorted hvalid hfresh hstored =>
    parseDocumentViewFieldRows_insertDocumentView hsorted hvalid hfresh hstored⟩

/-- An operation with an integer, an empty pinned relation list and a relation list. -/
def listOperation : Operation :=
  ⟨.create, .application "list" ⟨[⟨"S"⟩]⟩, none,
    [("count", .integer (-7)), ("empty", .pinnedRelationList []),
      ("items", .relationList [⟨"d1"⟩, ⟨"d2"⟩])]⟩

def listStore : Db := Db.empty.insertOperation ⟨"o1"⟩ ⟨"k"⟩ listOperation ⟨"o1"⟩

/-- The view of `listOperation`'s document after that operation. -/
def listViewFields : List (String × OperationId × OperationValue) :=
  listOperation.fields.map fun (name, value) => (name, ⟨"o1"⟩, value)

theorem list_operation_and_view_read_back :
    (∀ rows, rows.Perm (listStore.operationFieldsJoined ⟨"o1"⟩) →
        rows.Pairwise (fun a b => nullsFirstLe a.listIndex b.listIndex) →
        parseOperationRows rows = some (some ⟨⟨"o1"⟩, ⟨"o1"⟩, listOperation, ⟨"k"⟩, none⟩)) ∧
    ∃ joined, (listStore.insertDocumentView ⟨[⟨"o1"⟩]⟩ ⟨"o1"⟩ listOperation.schemaId
        (listViewFields.map fun field => (field.1, field.2.1))).documentViewFieldsJoined
          ⟨[⟨"o1"⟩]⟩ = some joined ∧
      ∀ rows : List DocumentViewFieldJoinedRow, rows.Perm joined →
        rows.Pairwise (fun a b => a.listIndex ≤ b.listIndex) →
        parseDocumentViewFieldRows rows = some listViewFields :=
  ⟨stored_rows_read_back.1 Db.empty ⟨"o1"⟩ ⟨"k"⟩ listOperation ⟨"o1"⟩
      ⟨by decide +kernel, by decide, by decide, by decide +kernel⟩ (by simp [Db.empty])
      (by simp [Db.empty]),
    stored_rows_read_back.2 listStore ⟨[⟨"o1"⟩]⟩ ⟨"o1"⟩ listOperation.schemaId listViewFields
      (by decide +kernel) (by decide +kernel) (by simp [listStore, Db.insertOperation, Db.empty])
      (by decide +kernel)⟩

end Aquadoggo
