import Aquadoggo.Db.Writes

/-! Filters of collection queries (`db/query/filter.rs`), and how the GraphQL layer builds
them from a filter object (`parse_filter`, `parse_meta_filter`). `upsert_filter_item` merges a
new setting into the first one on the same field where it can, so the settings of a filter
are not the arguments the client gave. -/
namespace Aquadoggo

inductive MetaField where
  | documentId
  | documentViewId
  | owner
  | edited
  | deleted
deriving DecidableEq, Repr

/-- `Field`: a meta field of every document, or an application field of the schema. -/
inductive Field where
  | metaField (field : MetaField)
  | field (name : String)
deriving DecidableEq, Repr

inductive UpperBound where
  | unbounded
  | lower (value : OperationValue)
  | lowerEqual (value : OperationValue)
deriving DecidableEq, Repr

inductive LowerBound where
  | unbounded
  | greater (value : OperationValue)
  | greaterEqual (value : OperationValue)
deriving DecidableEq, Repr

inductive FilterBy where
  | element (value : OperationValue)
  | set (values : List OperationValue)
  | interval (lower : LowerBound) (upper : UpperBound)
  /-- Only `add_contains` and `add_not_contains` build it, always with a string. -/
  | contains (text : String)
deriving DecidableEq, Repr

structure FilterSetting where
  field : Field
  /-- The source's `by`. -/
  filterBy : FilterBy
  exclusive : Bool
deriving DecidableEq, Repr

structure Filter where
  settings : List FilterSetting
deriving DecidableEq, Repr

def Filter.new : Filter := ⟨[]⟩

/-- The setting `upsert_filter_item` makes of two settings on one field with one
exclusivity, where it merges them. -/
def FilterBy.merge : FilterBy → FilterBy → Option FilterBy
  | .element a, .element b => if a ≠ b then some (.set [a, b]) else some (.element a)
  | .element a, .set elements => some (.set (if a ∈ elements then elements else elements ++ [a]))
  | .set elements, .element b => some (.set (if b ∈ elements then elements else elements ++ [b]))
  | .set as, .set bs => some (.set (bs.foldl (fun as b => if b ∈ as then as else as ++ [b]) as))
  | .interval lowerA upperA, .interval lowerB upperB =>
    match lowerB, upperB with
    | .unbounded, .unbounded => some (.interval lowerA upperA)
    | .unbounded, _ => some (.interval lowerA upperB)
    | _, .unbounded => some (.interval lowerB upperA)
    | _, _ => some (.interval lowerB upperB)
  | _, _ => none

/-- What `upsert_filter_item` makes of the first setting on the new item's field: the new item
in place of a boolean element, the merge of the two, or nothing, when the new item is pushed
on its own. -/
def FilterSetting.upsert (current newItem : FilterSetting) : Option FilterSetting :=
  match current.filterBy with
  | .element (.boolean _) => some newItem
  | _ =>
    if current.exclusive ≠ newItem.exclusive then none
    else (current.filterBy.merge newItem.filterBy).map fun merged => { current with filterBy := merged }

/-- `upsert_filter_item`. -/
def Filter.upsertFilterItem (filter : Filter) (newItem : FilterSetting) : Filter :=
  match filter.settings.findIdx? (·.field == newItem.field) with
  | none => ⟨filter.settings ++ [newItem]⟩
  | some index =>
    match filter.settings[index]?.bind (·.upsert newItem) with
    | some updated => ⟨filter.settings.set index updated⟩
    | none => ⟨filter.settings ++ [newItem]⟩

def Filter.add (filter : Filter) (field : Field) (value : OperationValue) : Filter :=
  filter.upsertFilterItem ⟨field, .element value, false⟩

/-- `Filter::default`: no deleted document unless the query asks for it. -/
def Filter.default : Filter := Filter.new.add (.metaField .deleted) (.boolean false)

def Filter.addNot (filter : Filter) (field : Field) (value : OperationValue) : Filter :=
  filter.upsertFilterItem ⟨field, .element value, true⟩

def Filter.addIn (filter : Filter) (field : Field) (values : List OperationValue) : Filter :=
  match values with
  | [value] => filter.upsertFilterItem ⟨field, .element value, false⟩
  | _ => filter.upsertFilterItem ⟨field, .set values, false⟩

def Filter.addNotIn (filter : Filter) (field : Field) (values : List OperationValue) : Filter :=
  match values with
  | [value] => filter.upsertFilterItem ⟨field, .element value, true⟩
  | _ => filter.upsertFilterItem ⟨field, .set values, true⟩

def Filter.addGt (filter : Filter) (field : Field) (value : OperationValue) : Filter :=
  filter.upsertFilterItem ⟨field, .interval (.greater value) .unbounded, false⟩

def Filter.addGte (filter : Filter) (field : Field) (value : OperationValue) : Filter :=
  filter.upsertFilterItem ⟨field, .interval (.greaterEqual value) .unbounded, false⟩

def Filter.addLt (filter : Filter) (field : Field) (value : OperationValue) : Filter :=
  filter.upsertFilterItem ⟨field, .interval .unbounded (.lower value), false⟩

def Filter.addLte (filter : Filter) (field : Field) (value : OperationValue) : Filter :=
  filter.upsertFilterItem ⟨field, .interval .unbounded (.lowerEqual value), false⟩

def Filter.addContains (filter : Filter) (field : Field) (text : String) : Filter :=
  filter.upsertFilterItem ⟨field, .contains text, false⟩

def Filter.addNotContains (filter : Filter) (field : Field) (text : String) : Filter :=
  filter.upsertFilterItem ⟨field, .contains text, true⟩

/-- One argument of a field's filter object, its values already of the field's type, as the
GraphQL schema and `filter_to_operation_value` hand them over. -/
inductive FilterArgument where
  | isIn (values : List OperationValue)
  | notIn (values : List OperationValue)
  | eq (value : OperationValue)
  | notEq (value : OperationValue)
  | gt (value : OperationValue)
  | gte (value : OperationValue)
  | lt (value : OperationValue)
  | lte (value : OperationValue)
  | contains (text : String)
  | notContains (text : String)
deriving DecidableEq, Repr

/-- The arguments a meta field's filter object has. -/
inductive MetaFilterArgument where
  | isIn (values : List OperationValue)
  | notIn (values : List OperationValue)
  | eq (value : OperationValue)
  | notEq (value : OperationValue)
deriving DecidableEq, Repr

/-- One round of the inner loop of `parse_filter`. -/
def FilterArgument.addTo (filter : Filter) (field : Field) : FilterArgument → Filter
  | .isIn values => filter.addIn field values
  | .notIn values => filter.addNotIn field values
  | .eq value => filter.add field value
  | .notEq value => filter.addNot field value
  | .gt value => filter.addGt field value
  | .gte value => filter.addGte field value
  | .lt value => filter.addLt field value
  | .lte value => filter.addLte field value
  | .contains text => filter.addContains field text
  | .notContains text => filter.addNotContains field text

/-- One round of the inner loop of `parse_meta_filter`. -/
def MetaFilterArgument.addTo (filter : Filter) (field : Field) : MetaFilterArgument → Filter
  | .isIn values => filter.addIn field values
  | .notIn values => filter.addNotIn field values
  | .eq value => filter.add field value
  | .notEq value => filter.addNot field value

/-- `parse_filter`: each field of the filter object, each of its arguments in order. -/
def parseFilter (filter : Filter) (filterObject : List (String × List FilterArgument)) : Filter :=
  filterObject.foldl (fun filter (name, arguments) =>
    arguments.foldl (fun filter argument => argument.addTo filter (.field name)) filter) filter

/-- `parse_meta_filter`. -/
def parseMetaFilter (filter : Filter) (filterObject : List (MetaField × List MetaFilterArgument)) :
    Filter :=
  filterObject.foldl (fun filter (metaField, arguments) =>
    arguments.foldl (fun filter argument => argument.addTo filter (.metaField metaField)) filter)
    filter

end Aquadoggo
