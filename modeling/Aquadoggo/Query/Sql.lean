import Mathlib.Algebra.Order.Ring.Unbundled.Rat
import Mathlib.Data.String.Basic
import Aquadoggo.Library.Like
import Aquadoggo.Query.Filter

/-! What the SQL fragments of `db/stores/query.rs` compute, in SQLite. A value of an
expression is NULL, a number or a text; a comparison with NULL is not true, numbers compare as
numbers, texts byte-wise, and `LIKE` folds ASCII case. A float is the decimal that Rust
prints for it, which keeps the order and the equality of floats. -/
namespace Aquadoggo

inductive SqlValue where
  | null
  | integer (value : Int)
  | real (value : ℚ)
  | text (value : String)
deriving DecidableEq, Repr

/-- SQLite's order of values: NULL first, then numbers by value, then texts. `ORDER BY`
sorts by it, and comparisons use it where neither side is NULL. -/
def SqlValue.compare : SqlValue → SqlValue → Ordering
  | .null, .null => .eq
  | .null, _ => .lt
  | _, .null => .gt
  | .integer a, .integer b => Ord.compare a b
  | .integer a, .real b => Ord.compare (a : ℚ) b
  | .real a, .integer b => Ord.compare a (b : ℚ)
  | .real a, .real b => Ord.compare a b
  | .integer _, .text _ | .real _, .text _ => .lt
  | .text _, .integer _ | .text _, .real _ => .gt
  | .text a, .text b => Ord.compare a b

inductive SqlCmp where
  | eq | ne | lt | le | gt | ge
deriving DecidableEq, Repr

/-- A comparison in a `WHERE` clause: not true when a side is NULL. -/
def SqlValue.cmp (op : SqlCmp) (a b : SqlValue) : Bool :=
  if a = .null ∨ b = .null then false
  else
    match op with
    | .eq => a.compare b == .eq
    | .ne => a.compare b != .eq
    | .lt => a.compare b == .lt
    | .le => a.compare b != .gt
    | .gt => a.compare b == .gt
    | .ge => a.compare b != .lt

/-- The value of the leading decimal digits of a text. -/
def leadingDigits (chars : List Char) : Nat × Nat :=
  (chars.takeWhile Char.isDigit).foldl (fun (value, count) c =>
    (10 * value + (c.toNat - '0'.toNat), count + 1)) (0, 0)

/-- `CAST(text AS INTEGER)`: the leading integer of the text, 0 when there is none. -/
def castInteger (text : String) : Int :=
  match text.toList with
  | '-' :: rest => -((leadingDigits rest).1 : Int)
  | '+' :: rest => (leadingDigits rest).1
  | chars => (leadingDigits chars).1

/-- `CAST(text AS REAL)` on the decimals the database holds: the leading decimal number. -/
def castReal (text : String) : ℚ :=
  let magnitude (chars : List Char) : ℚ :=
    let whole := leadingDigits chars
    match chars.drop whole.2 with
    | '.' :: fraction =>
      let part := leadingDigits fraction
      whole.1 + (part.1 : ℚ) / 10 ^ part.2
    | _ => whole.1
  match text.toList with
  | '-' :: rest => -magnitude rest
  | '+' :: rest => magnitude rest
  | chars => magnitude chars

def SqlValue.castAsInteger : SqlValue → SqlValue
  | .real value => .integer value.floor
  | .text value => .integer (castInteger value)
  | value => value

def SqlValue.castAsReal : SqlValue → SqlValue
  | .integer value => .real value
  | .text value => .real (castReal value)
  | value => value

/-- `LOWER(..)`, on the texts and NULLs it is applied to. -/
def SqlValue.lower : SqlValue → SqlValue
  | .text value => .text (value.map Char.toLower)
  | value => value

/-- A text column: NULL or its text. -/
def SqlValue.ofColumn : Option String → SqlValue
  | none => .null
  | some value => .text value

/-- `typecast_field_sql`: the cast to the type of the schema field, and the lower case when
the comparison is not case sensitive. -/
def typecastFieldSql (value : SqlValue) (fieldName : String) (schema : Schema)
    (caseSensitive : Bool) : SqlValue :=
  match ((schema.fields.find? (·.1 == fieldName)).map (·.2) : Option FieldType) with
  | some .integer => value.castAsInteger
  | some .float => value.castAsReal
  -- Booleans, relations and the rest stay texts.
  | _ => if caseSensitive then value else value.lower

/-- `bind_arg`: the arguments bound for an operation value. -/
def bindArg : OperationValue → List SqlValue
  | .boolean value => [.text (if value then "true" else "false")]
  | .integer value => [.integer value]
  | .float text => [.real (castReal text)]
  | .string value => [.text value]
  | .relation document => [.text document.hash]
  | .relationList documents => documents.map fun document => .text document.hash
  | .pinnedRelation view => [.text view.toString]
  | .pinnedRelationList views => views.map fun view => .text view.toString
  | .bytes hex => [.text hex]

/-- The argument a `$n` marker after binding a value names: the last one bound. -/
def boundArg (value : OperationValue) : SqlValue :=
  ((bindArg value).getLast?).getD .null

/-- `x IN (..)` and `x NOT IN (..)`. An empty list holds nothing, whatever `x` is. -/
def SqlValue.isIn (value : SqlValue) (values : List SqlValue) (exclusive : Bool) : Bool :=
  if values.isEmpty then exclusive
  else if exclusive then values.all (SqlValue.cmp .ne value)
  else values.any (SqlValue.cmp .eq value)

/-- `x LIKE '%text%'` and `x NOT LIKE ..`, the text bound as it is, wildcards and all. -/
def SqlValue.like (value : SqlValue) (text : String) (exclusive : Bool) : Bool :=
  match value with
  | .text value =>
    let matched := Library.likeMatch Char.toLower ('%' :: text.toList ++ ['%']) value.toList
    if exclusive then !matched else matched
  | _ => false

def LowerBound.holds (value : SqlValue) : LowerBound → Bool
  | .unbounded => true
  | .greater bound => value.cmp .gt (boundArg bound)
  | .greaterEqual bound => value.cmp .ge (boundArg bound)

def UpperBound.holds (value : SqlValue) : UpperBound → Bool
  | .unbounded => true
  | .lower bound => value.cmp .lt (boundArg bound)
  | .lowerEqual bound => value.cmp .le (boundArg bound)

/-- `cmp_sql`: the comparison of a filter setting on the value of `sql_field`. -/
def cmpSql (value : SqlValue) (setting : FilterSetting) : Bool :=
  match setting.filterBy with
  | .element element =>
    value.cmp (if setting.exclusive then .ne else .eq) (boundArg element)
  | .set elements => value.isIn (elements.map boundArg) setting.exclusive
  -- The bounds are joined with `AND`; no filter has an interval without bounds.
  | .interval lower upper => lower.holds value && upper.holds value
  | .contains text => value.like text setting.exclusive

end Aquadoggo
