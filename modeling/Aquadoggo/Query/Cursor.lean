import Aquadoggo.Data.Types
import Aquadoggo.Library.Base58
import Aquadoggo.Library.Text

/-! Pagination cursors (`db/stores/query.rs`): the text a client passes as `after`, its
decoding into operation cursors, and the cursor comparison that `where_pagination_sql`
writes into its SQL text. -/
namespace Aquadoggo

/-- `OperationCursor`: `From<&str>` wraps any text. -/
structure OperationCursor where
  value : String
deriving DecidableEq, Repr

structure PaginationCursor where
  operationCursor : OperationCursor
  rootOperationCursor : Option OperationCursor
  rootViewId : Option DocumentViewId
deriving DecidableEq, Repr

/-- `CURSOR_SEPARATOR`. -/
def cursorSeparator : Char := '-'

inductive CursorError where
  | base58
  | utf8
  | documentViewId
  | parts
deriving DecidableEq, Repr

def CursorError.message : CursorError → String
  | .base58 => "Invalid base58 string"
  | .utf8 => "Invalid utf-8 sequence"
  | .documentViewId => "Invalid document view id"
  | .parts => "Invalid amount of cursor parts"

/-- What cursor decoding uses of its crates: `bs58` and `DocumentViewId::from_str`. -/
structure CursorCodecs where
  bs58Decode : String → Option (List UInt8)
  viewIdFromStr : String → Option DocumentViewId

/-- The law of base58 that the failing cursor needs: a single non-zero digit decodes to its
value as one byte. -/
def Base58Digits (bs58Decode : String → Option (List UInt8)) : Prop :=
  ∀ i c, Library.Base58.alphabet[i]? = some c → 0 < i →
    bs58Decode (String.singleton c) = some [i.toUInt8]

/-- `PaginationCursor::decode`. -/
def PaginationCursor.decode (codecs : CursorCodecs) (encoded : String) :
    Except CursorError PaginationCursor := do
  let some bytes := codecs.bs58Decode encoded | throw .base58
  let some decoded := String.fromUTF8? ⟨bytes.toArray⟩ | throw .utf8
  match (decoded.toList.splitOn cursorSeparator).map String.ofList with
  | [operationCursor] => pure ⟨⟨operationCursor⟩, none, none⟩
  | [operationCursor, rootOperationCursor, rootViewId] =>
    let some viewId := codecs.viewIdFromStr rootViewId | throw .documentViewId
    pure ⟨⟨operationCursor⟩, some ⟨rootOperationCursor⟩, some viewId⟩
  | _ => throw .parts

/-- `OperationCursor::new`: the hash of the list index, field name and operation id, as text,
without its first four characters, the two bytes that name the hash function. -/
def OperationCursor.new (hash : String → String) (listIndex : Nat) (fieldName : String)
    (operationId : OperationId) : OperationCursor :=
  ⟨String.ofList ((hash (toString listIndex ++ fieldName ++ operationId.hash)).toList.drop 4)⟩

/-- An operation cursor that some call of `OperationCursor::new` returns. -/
def OperationCursor.MadeBy (hash : String → String) (cursor : OperationCursor) : Prop :=
  ∃ listIndex fieldName operationId, OperationCursor.new hash listIndex fieldName operationId = cursor

/-- `PaginationCursor::new`; `none` is its assertion failing. -/
def PaginationCursor.new (operationCursor : OperationCursor)
    (rootOperationCursor : Option OperationCursor) (rootViewId : Option DocumentViewId) :
    Option PaginationCursor :=
  if rootOperationCursor.isSome = rootViewId.isSome then
    some ⟨operationCursor, rootOperationCursor, rootViewId⟩
  else none

/-- `PaginationCursor::encode`; `none` is its `expect` panicking on a root view id that comes
without a root cursor. -/
def PaginationCursor.encode (bs58Encode : List UInt8 → String) (cursor : PaginationCursor) :
    Option String := do
  let suffix ← match cursor.rootViewId with
    | none => pure ""
    | some viewId => cursor.rootOperationCursor.map fun rootOperationCursor =>
      String.singleton cursorSeparator ++ rootOperationCursor.value ++
        String.singleton cursorSeparator ++ viewId.toString
  pure (bs58Encode (cursor.operationCursor.value ++ suffix).toUTF8.data.toList)

theorem ne_cursorSeparator_of_isHexDigit {c : Char} (h : c.isHexDigit) : c ≠ cursorSeparator := by
  rintro rfl
  exact absurd h (by decide)

/-- An operation cursor is hex, so it holds no separator. -/
theorem OperationCursor.MadeBy.no_separator {hash : String → String} {cursor : OperationCursor}
    (hhash : ∀ text, HashHex (hash text)) (h : cursor.MadeBy hash) :
    cursorSeparator ∉ cursor.value.toList := by
  obtain ⟨listIndex, fieldName, operationId, rfl⟩ := h
  intro hmem
  simp only [OperationCursor.new, String.toList_ofList] at hmem
  exact ne_cursorSeparator_of_isHexDigit ((hhash _).2.2 _ (List.mem_of_mem_drop hmem)) rfl

/-- A view id is hex hashes joined by underscores, so it holds no separator. -/
theorem DocumentViewId.Canonical.no_separator {viewId : DocumentViewId} (h : viewId.Canonical) :
    cursorSeparator ∉ viewId.toString.toList := by
  apply Library.Text.not_mem_intercalate (by decide)
  intro hash hmem hsep
  obtain ⟨operation, hoperation, rfl⟩ := List.mem_map.mp hmem
  exact ne_cursorSeparator_of_isHexDigit ((h.hashes operation hoperation).2.2 _ hsep) rfl

section RoundTrip

variable {codecs : CursorCodecs} {bs58Encode : List UInt8 → String}

/-- The encoding of a lone operation cursor decodes to a cursor of one part. -/
theorem decode_encoded_single
    (hbase58 : ∀ bytes, codecs.bs58Decode (bs58Encode bytes) = some bytes) {operationCursor : String}
    (hsep : cursorSeparator ∉ operationCursor.toList) :
    PaginationCursor.decode codecs (bs58Encode operationCursor.toUTF8.data.toList) =
      .ok ⟨⟨operationCursor⟩, none, none⟩ := by
  have hparts := Library.Text.splitOn_intercalate cursorSeparator [operationCursor]
    (by simpa using hsep) (by simp)
  rw [String.intercalate_singleton] at hparts
  simp only [PaginationCursor.decode, hbase58, Library.Text.fromUTF8?_toUTF8, hparts]
  rfl

/-- The encoding of three parts decodes to a cursor of a relation list. -/
theorem decode_encoded_triple
    (hbase58 : ∀ bytes, codecs.bs58Decode (bs58Encode bytes) = some bytes)
    {operationCursor rootOperationCursor : String} {viewId : DocumentViewId}
    (hviewId : codecs.viewIdFromStr viewId.toString = some viewId)
    (hsep : ∀ part ∈ [operationCursor, rootOperationCursor, viewId.toString],
      cursorSeparator ∉ part.toList) :
    PaginationCursor.decode codecs (bs58Encode (operationCursor ++
      (String.singleton cursorSeparator ++ rootOperationCursor ++ String.singleton cursorSeparator ++
        viewId.toString)).toUTF8.data.toList) =
      .ok ⟨⟨operationCursor⟩, some ⟨rootOperationCursor⟩, some viewId⟩ := by
  have hparts := Library.Text.splitOn_intercalate cursorSeparator _ hsep (by simp)
  have htext : (String.singleton cursorSeparator).intercalate
      [operationCursor, rootOperationCursor, viewId.toString] = operationCursor ++
        (String.singleton cursorSeparator ++ rootOperationCursor ++ String.singleton cursorSeparator ++
          viewId.toString) := by
    simp only [String.intercalate_cons_cons, String.intercalate_singleton, String.append_assoc]
  rw [htext] at hparts
  simp only [PaginationCursor.decode, hbase58, Library.Text.fromUTF8?_toUTF8, hparts, hviewId]
  rfl

/-- Every cursor the query makes decodes from its encoding to itself: its operation cursors
come from `OperationCursor::new` and its root view id, if any, is a view id of p2panda. This
rests on base58 decoding inverting encoding and `DocumentViewId::from_str` parsing what
`Display` writes. -/
theorem paginationCursor_decode_encode (hash : String → String) (hhash : ∀ text, HashHex (hash text))
    (hbase58 : ∀ bytes, codecs.bs58Decode (bs58Encode bytes) = some bytes)
    (hviewIds : ∀ viewId : DocumentViewId, viewId.Canonical →
      codecs.viewIdFromStr viewId.toString = some viewId)
    {operationCursor : OperationCursor} {rootOperationCursor : Option OperationCursor}
    {rootViewId : Option DocumentViewId} {cursor : PaginationCursor}
    (hmade : operationCursor.MadeBy hash) (hroot : ∀ root ∈ rootOperationCursor, root.MadeBy hash)
    (hview : ∀ viewId ∈ rootViewId, viewId.Canonical)
    (hcursor : PaginationCursor.new operationCursor rootOperationCursor rootViewId = some cursor) :
    ∃ encoded, cursor.encode bs58Encode = some encoded ∧
      PaginationCursor.decode codecs encoded = .ok cursor := by
  unfold PaginationCursor.new at hcursor
  split at hcursor
  next hsome =>
    cases hcursor
    -- The assertion leaves two shapes: no root at all, or a root cursor with a root view id.
    cases rootOperationCursor with
    | none =>
      cases rootViewId with
      | none =>
        refine ⟨_, rfl, ?_⟩
        rw [String.append_empty]
        exact decode_encoded_single hbase58 (hmade.no_separator hhash)
      | some viewId => cases hsome
    | some root =>
      cases rootViewId with
      | none => cases hsome
      | some viewId =>
        have hvalid := hview viewId rfl
        refine ⟨_, rfl, ?_⟩
        apply decode_encoded_triple hbase58 (hviewIds viewId hvalid)
        simp only [List.mem_cons, List.not_mem_nil, or_false, forall_eq_or_imp, forall_eq]
        exact ⟨hmade.no_separator hhash, (hroot root rfl).no_separator hhash, hvalid.no_separator⟩
  next => cases hcursor

end RoundTrip

/-- A hash function that gives every text the same hash. -/
def constantHash (_ : String) : String := "0020" ++ String.ofList (List.replicate 64 'a')

theorem constantHash_hex (text : String) : HashHex (constantHash text) := by
  have hlist : (constantHash text).toList = ['0', '0', '2', '0'] ++ List.replicate 64 'a' := by
    simp only [constantHash, String.toList_append, String.toList_ofList]
    rfl
  refine ⟨?_, ?_, ?_⟩
  · rw [← String.length_toList, hlist]
    simp
  · rw [hlist]
    rfl
  · rw [hlist]
    intro c hc
    simp only [List.cons_append, List.nil_append, List.mem_cons, List.mem_replicate] at hc
    rcases hc with rfl | rfl | rfl | rfl | ⟨_, rfl⟩ <;> decide

/-- A cursor into a relation list, with its root cursor and root view id. -/
def relationListCursor : PaginationCursor :=
  ⟨OperationCursor.new constantHash 0 "pieces" ⟨constantHash ""⟩,
    some (OperationCursor.new constantHash 1 "pieces" ⟨constantHash ""⟩),
    some ⟨[⟨constantHash ""⟩]⟩⟩

theorem relationListCursor_decode_encode :
    ∃ encoded, relationListCursor.encode Library.Base58.encode = some encoded ∧
      PaginationCursor.decode ⟨Library.Base58.decode, fun text => some (DocumentViewId.fromStr text)⟩
        encoded = .ok relationListCursor := by
  refine @paginationCursor_decode_encode
    ⟨Library.Base58.decode, fun text => some (DocumentViewId.fromStr text)⟩ Library.Base58.encode
    constantHash constantHash_hex Library.Base58.decode_encode
    (fun _ hcanonical => congrArg some (DocumentViewId.fromStr_toString hcanonical.valid))
    (OperationCursor.new constantHash 0 "pieces" ⟨constantHash ""⟩)
    (some (OperationCursor.new constantHash 1 "pieces" ⟨constantHash ""⟩)) (some ⟨[⟨constantHash ""⟩]⟩)
    relationListCursor ⟨0, "pieces", _, rfl⟩ ?_ ?_ rfl
  · rintro _ ⟨⟩
    exact ⟨1, "pieces", _, rfl⟩
  · rintro _ ⟨⟩
    refine ⟨by simp, ?_, List.pairwise_singleton _ _⟩
    intro operation hoperation
    rw [List.mem_singleton.mp hoperation]
    exact constantHash_hex ""

/-- The `cursor_sql` comparison of `where_pagination_sql`; `none` is its `expect` panic
when a relation list cursor has no root cursor. -/
def cursorSql (cursor : PaginationCursor) (list : Bool) : Option String :=
  if list then
    cursor.rootOperationCursor.map fun rootCursor =>
      "operation_fields_v1_list.cursor > '" ++ rootCursor.value ++ "'"
  else some ("operation_fields_v1.cursor > '" ++ cursor.operationCursor.value ++ "'")

/-- The cursor `"g"` decodes, since `g` is the base58 digit of the byte of `'`, to the operation
cursor `'`, which leaves the literal of the comparison unbalanced. -/
theorem quote_cursor_breaks_cursor_sql (codecs : CursorCodecs)
    (hbase58 : Base58Digits codecs.bs58Decode) :
    ∃ cursor, PaginationCursor.decode codecs "g" = .ok cursor ∧ cursor.operationCursor = ⟨"'"⟩ ∧
      cursorSql cursor false = some "operation_fields_v1.cursor > '''" := by
  have hbytes : codecs.bs58Decode "g" = some [39] := hbase58 39 'g' (by decide) (by decide)
  refine ⟨⟨⟨"'"⟩, none, none⟩, ?_, rfl, rfl⟩
  simp only [PaginationCursor.decode, hbytes]
  rfl

/-- With the base58 decoder itself, the cursor `"g"` carries a quote into the SQL text. -/
theorem quote_cursor_breaks_cursor_sql_base58 :
    ∃ cursor, PaginationCursor.decode ⟨Library.Base58.decode, fun _ => none⟩ "g" = .ok cursor ∧
      cursor.operationCursor = ⟨"'"⟩ ∧
      cursorSql cursor false = some "operation_fields_v1.cursor > '''" :=
  quote_cursor_breaks_cursor_sql _ fun _ _ hc hpos => Library.Base58.decode_singleton hc hpos

end Aquadoggo
