import Mathlib.Data.List.Basic
import Aquadoggo.Library.Except

/-! CBOR data items as a serde deserializer meets them, and the reads a visitor makes of
them: primitive values, sequences, pairs, and the elements of a definite-length array one at a
time. Byte strings are carried as their hex text. How items become bytes is left out: what
is modelled is which items a read accepts and what it makes of them. -/
namespace Library.Cbor

inductive Item where
  | unsigned (n : Nat)
  | bytes (hex : String)
  | text (s : String)
  | array (items : List Item)
  | bool (b : Bool)
  | null
deriving Repr

/-- The kind of item a read expected when it met another. -/
inductive Kind where
  | unsigned
  | bytes
  | text
  | array
  | bool
deriving DecidableEq, Repr

inductive DecodeError where
  | invalidType (expected : Kind)
  | invalidLength (length : Nat)
  | custom (message : String)
deriving DecidableEq, Repr

/-- A read of one item as a value of `α`. -/
abbrev Decoder (α : Type) := Item → Except DecodeError α

theorem mapM_map_eq_ok (read : Decoder α) (write : α → Item) (xs : List α)
    (h : ∀ x ∈ xs, read (write x) = .ok x) : (xs.map write).mapM read = .ok xs := by
  induction xs with
  | nil => rfl
  | cons x xs ih =>
    have hrest := ih fun y hy => h y (List.mem_cons_of_mem x hy)
    simp only [List.map_cons, List.mapM_cons, h x List.mem_cons_self, hrest]
    rfl

def u64 : Decoder Nat
  | .unsigned n => .ok n
  | _ => .error (.invalidType .unsigned)

def bool : Decoder Bool
  | .bool b => .ok b
  | _ => .error (.invalidType .bool)

def text : Decoder String
  | .text s => .ok s
  | _ => .error (.invalidType .text)

/-- `serde_bytes`: a byte string. -/
def bytes : Decoder String
  | .bytes hex => .ok hex
  | _ => .error (.invalidType .bytes)

/-- `Vec<T>`: an array, read item by item. -/
def seq (read : Decoder α) : Decoder (List α)
  | .array items => items.mapM read
  | _ => .error (.invalidType .array)

/-- A tuple `(A, B)`: an array of two items. -/
def pair (readA : Decoder α) (readB : Decoder β) : Decoder (α × β)
  | .array [a, b] => do pure (← readA a, ← readB b)
  | .array items => .error (.invalidLength items.length)
  | _ => .error (.invalidType .array)

/-- A read followed by a check that may refuse the value; its error becomes a custom error, as
`serde::de::Error::custom` makes it. -/
def parsed [ToString ε] (read : Decoder α) (parse : α → Except ε β) : Decoder β := fun item => do
  match parse (← read item) with
  | .ok b => pure b
  | .error e => throw (.custom (toString e))

@[simp] theorem u64_unsigned (n : Nat) : u64 (.unsigned n) = .ok n := rfl
@[simp] theorem bool_bool (b : Bool) : bool (.bool b) = .ok b := rfl
@[simp] theorem text_text (s : String) : text (.text s) = .ok s := rfl
@[simp] theorem bytes_bytes (hex : String) : bytes (.bytes hex) = .ok hex := rfl

theorem seq_array_map (read : Decoder α) (write : α → Item) (xs : List α)
    (h : ∀ x ∈ xs, read (write x) = .ok x) : seq read (.array (xs.map write)) = .ok xs :=
  mapM_map_eq_ok read write xs h

theorem pair_array {readA : Decoder α} {readB : Decoder β} {a b : Item} {x : α} {y : β}
    (ha : readA a = .ok x) (hb : readB b = .ok y) : pair readA readB (.array [a, b]) = .ok (x, y) := by
  simp only [pair, ha, hb]
  rfl

theorem parsed_eq_ok [ToString ε] {read : Decoder α} {parse : α → Except ε β} {item : Item} {b : β}
    (h : parsed read parse item = .ok b) : ∃ a, read item = .ok a ∧ parse a = .ok b := by
  obtain ⟨a, hread, hparse⟩ := bind_eq_ok h
  refine ⟨a, hread, ?_⟩
  split at hparse
  · rename_i b' hb'
    cases hparse
    exact hb'
  · cases hparse

theorem parsed_of_eq_ok [ToString ε] {read : Decoder α} {parse : α → Except ε β} {item : Item}
    {a : α} {b : β} (hread : read item = .ok a) (hparse : parse a = .ok b) :
    parsed read parse item = .ok b := by
  simp only [parsed, hread, ok_bind, hparse]
  rfl

/-! ### Sequence access

What a visitor of a definite-length array works on: the items it has not read yet. -/

abbrev SeqAccess := StateT (List Item) (Except DecodeError)

/-- `next_element`: the next item as read by `read`, or none once the items are used up. -/
def nextElement (read : Decoder α) : SeqAccess (Option α) := fun rest =>
  match rest with
  | [] => .ok (none, [])
  | item :: rest => do pure (some (← read item), rest)

/-- `size_hint` of a definite-length array: the number of items left. -/
def sizeHint : SeqAccess (Option Nat) := fun rest => .ok (some rest.length, rest)

/-- `next_element()?.ok_or_else(|| Error::custom(message))`. -/
def required (read : Decoder α) (message : String) : SeqAccess α := do
  match ← nextElement read with
  | some a => pure a
  | none => throw (.custom message)

/-- `deserialize_seq`: a sequence visitor run on the items of an array. -/
def deserializeSeq (visitor : SeqAccess α) : Decoder α
  | .array items => Prod.fst <$> visitor.run items
  | _ => .error (.invalidType .array)

variable {read : Decoder α} {message : String}

theorem run_bind_eq_ok {x : SeqAccess α} {f : α → SeqAccess β} {rest rest'' : List Item} {b : β}
    (h : (x >>= f).run rest = .ok (b, rest'')) :
    ∃ a rest', x.run rest = .ok (a, rest') ∧ (f a).run rest' = .ok (b, rest'') := by
  rw [StateT.run_bind] at h
  obtain ⟨⟨a, rest'⟩, hx, hf⟩ := bind_eq_ok h
  exact ⟨a, rest', hx, hf⟩

theorem run_pure_eq_ok {a b : α} {rest rest' : List Item}
    (h : (pure a : SeqAccess α).run rest = .ok (b, rest')) : a = b ∧ rest = rest' := by
  cases h
  exact ⟨rfl, rfl⟩

theorem nextElement_cons {item : Item} {a : α} (rest : List Item) (h : read item = .ok a) :
    (nextElement read).run (item :: rest) = .ok (some a, rest) := by
  simp only [StateT.run, nextElement, h]
  rfl

theorem required_cons {item : Item} {a : α} (rest : List Item) (h : read item = .ok a) :
    (required read message).run (item :: rest) = .ok (a, rest) := by
  simp only [required, StateT.run_bind, nextElement_cons rest h]
  rfl

theorem sizeHint_run (rest : List Item) : sizeHint.run rest = .ok (some rest.length, rest) := rfl

/-- What `next_element` can do: end at an empty array, or read its first item. -/
theorem nextElement_eq_ok {rest rest' : List Item} {o : Option α}
    (h : (nextElement read).run rest = .ok (o, rest')) :
    o = none ∧ rest = [] ∧ rest' = [] ∨
      ∃ item a, o = some a ∧ rest = item :: rest' ∧ read item = .ok a := by
  cases rest with
  | nil =>
    cases h
    exact .inl ⟨rfl, rfl, rfl⟩
  | cons item rest =>
    obtain ⟨a, hread, hrest⟩ := bind_eq_ok h
    cases hrest
    exact .inr ⟨item, a, rfl, rfl, hread⟩

/-- A required element is always one item read off the front. -/
theorem required_eq_ok {rest rest' : List Item} {a : α}
    (h : (required read message).run rest = .ok (a, rest')) :
    ∃ item, rest = item :: rest' ∧ read item = .ok a := by
  obtain ⟨o, rest₁, hnext, hmatch⟩ := run_bind_eq_ok h
  rcases nextElement_eq_ok hnext with ⟨rfl, -, -⟩ | ⟨item, a', rfl, rfl, hread⟩
  · cases hmatch
  · cases hmatch
    exact ⟨item, rfl, hread⟩

/-- A read that starts with a required element: one item off the front, and the rest of the read
on what follows it. -/
theorem required_bind_eq_ok {f : α → SeqAccess β} {rest rest' : List Item} {b : β}
    (h : (required read message >>= f).run rest = .ok (b, rest')) :
    ∃ item tail a, rest = item :: tail ∧ read item = .ok a ∧ (f a).run tail = .ok (b, rest') := by
  obtain ⟨a, tail, hrequired, hf⟩ := run_bind_eq_ok h
  obtain ⟨item, rfl, hread⟩ := required_eq_ok hrequired
  exact ⟨item, tail, a, rfl, hread, hf⟩

theorem deserializeSeq_eq_ok {visitor : SeqAccess α} {item : Item} {a : α}
    (h : deserializeSeq visitor item = .ok a) :
    ∃ items rest, item = .array items ∧ visitor.run items = .ok (a, rest) := by
  cases item with
  | array items =>
    cases hrun : visitor.run items with
    | error e =>
      simp only [deserializeSeq, hrun] at h
      cases h
    | ok result =>
      simp only [deserializeSeq, hrun] at h
      cases h
      exact ⟨items, result.2, rfl, hrun⟩
  | _ => cases h

end Library.Cbor
