import Aquadoggo.Query.Store
import Aquadoggo.Materializer.Reduce

/-! A client paging through a collection: it queries, then queries again with `after` the
end cursor of the page, until `has_next_page` is false. When the end cursor of a page leads
back to the same page, the loop never ends. -/
namespace Aquadoggo

open Library

/-- The query for the page after the cursor. -/
def Query.after (args : Query) (cursor : Option PaginationCursor) : Query :=
  { args with pagination := { args.pagination with after := cursor } }

@[simp] theorem Query.after_after (args : Query) (cursor cursor' : Option PaginationCursor) :
    (args.after cursor).after cursor' = args.after cursor' := rfl

/-- Page through the query, with fuel for the number of pages: the documents of all pages,
`none` when the fuel runs out first. -/
def Db.paginate (db : Db) (schema : Schema) (list : Option RelationList) :
    Nat → Query → Option (Except QueryError (List (PaginationCursor × QueryDocument)))
  | 0, _ => none
  | fuel + 1, args =>
    match db.query schema args list with
    | .error error => some (.error error)
    | .ok (data, documents) =>
      if data.hasNextPage then
        (db.paginate schema list fuel (args.after data.endCursor)).map
          fun rest => rest.map (documents ++ ·)
      else some (.ok documents)

/-- The pages after a query that has a next page. -/
theorem paginate_succ_of_hasNextPage {db : Db} {schema : Schema} {list : Option RelationList}
    {args : Query} {data : PaginationData} {documents : List (PaginationCursor × QueryDocument)}
    (hpage : db.query schema args list = .ok (data, documents)) (hnext : data.hasNextPage = true)
    (fuel : Nat) :
    db.paginate schema list (fuel + 1) args =
      (db.paginate schema list fuel (args.after data.endCursor)).map
        fun rest => rest.map (documents ++ ·) := by
  simp [Db.paginate, hpage, hnext]

/-- A page with a next page whose end cursor gives it back: the loop asks for it forever. -/
theorem paginate_eq_none_of_repeats {db : Db} {schema : Schema} {list : Option RelationList}
    {args : Query} {data : PaginationData} {documents : List (PaginationCursor × QueryDocument)}
    (hpage : db.query schema (args.after data.endCursor) list = .ok (data, documents))
    (hnext : data.hasNextPage = true) :
    ∀ fuel, db.paginate schema list fuel (args.after data.endCursor) = none := by
  intro fuel
  induction fuel with
  | zero => rfl
  | succ fuel ih =>
    rw [paginate_succ_of_hasNextPage hpage hnext, Query.after_after, ih]
    rfl

def tiedSchemaId : SchemaId := .application "tied" ⟨[⟨"S"⟩]⟩

/-- Two string fields; `a` is the first. -/
def tiedSchema : Schema := ⟨tiedSchemaId, [("a", .string), ("b", .string)]⟩

/-- Two documents, published and reduced, with the same value in `b`. -/
def tiedEvents : List StoreEvent :=
  [.publish ⟨⟨"a"⟩, "e1", "A1", 0, some "d1", 1⟩
      ⟨.create, tiedSchemaId, none, [("a", .string "one"), ("b", .string "x")]⟩ ⟨"A1"⟩,
    .publish ⟨⟨"a"⟩, "e2", "A2", 1, some "d2", 1⟩
      ⟨.create, tiedSchemaId, none, [("a", .string "two"), ("b", .string "x")]⟩ ⟨"A2"⟩,
    .reduce ⟨⟨"A1"⟩, ⟨[⟨"A1"⟩]⟩, tiedSchemaId, false, [("a", ⟨"A1"⟩), ("b", ⟨"A1"⟩)]⟩
      [⟨"A1"⟩],
    .reduce ⟨⟨"A2"⟩, ⟨[⟨"A2"⟩]⟩, tiedSchemaId, false, [("a", ⟨"A2"⟩), ("b", ⟨"A2"⟩)]⟩
      [⟨"A2"⟩]]

def tiedStore : Db := tiedEvents.foldl Db.apply Db.empty

theorem tiedStore_run : Run Db.Step Db.empty tiedEvents tiedStore :=
  Run.cons (.publish (by decide))
    (Run.cons (.publish (by decide))
    (Run.cons (.reduce (by decide))
    (Run.single (.reduce (by decide)))))

/-- Two documents, published and reduced, with the same value in `a`. -/
def tiedAEvents : List StoreEvent :=
  [.publish ⟨⟨"a"⟩, "e1", "A1", 0, some "d1", 1⟩
      ⟨.create, tiedSchemaId, none, [("a", .string "x"), ("b", .string "one")]⟩ ⟨"A1"⟩,
    .publish ⟨⟨"a"⟩, "e2", "A2", 1, some "d2", 1⟩
      ⟨.create, tiedSchemaId, none, [("a", .string "x"), ("b", .string "two")]⟩ ⟨"A2"⟩,
    .reduce ⟨⟨"A1"⟩, ⟨[⟨"A1"⟩]⟩, tiedSchemaId, false, [("a", ⟨"A1"⟩), ("b", ⟨"A1"⟩)]⟩
      [⟨"A1"⟩],
    .reduce ⟨⟨"A2"⟩, ⟨[⟨"A2"⟩]⟩, tiedSchemaId, false, [("a", ⟨"A2"⟩), ("b", ⟨"A2"⟩)]⟩
      [⟨"A2"⟩]]

def tiedAStore : Db := tiedAEvents.foldl Db.apply Db.empty

theorem tiedAStore_run : Run Db.Step Db.empty tiedAEvents tiedAStore :=
  Run.cons (.publish (by decide))
    (Run.cons (.publish (by decide))
    (Run.cons (.reduce (by decide))
    (Run.single (.reduce (by decide)))))

/-- Ordered by `a`, one document a page, field `b` selected. -/
def tiedAQuery : Query :=
  ⟨⟨1, by decide, none, [.hasNextPage, .endCursor]⟩,
    ⟨[.metaField .documentId, .field "b"], by decide⟩, Filter.new, ⟨some (.field "a"), .ascending⟩⟩

/-- The rows are those of `b`, and the sort breaks the tie on `a` by their cursors, the BLAKE3
texts `OperationCursor::new` stores: `A2` comes first. The cursor of the page is that of the row
of `b` of `A2`, but the next page compares it with the cursors of the rows of `a`, and both
documents' are greater: the first page comes back, and `A1` is never listed. -/
theorem tied_order_repeats_first_page :
    Run Db.Step Db.empty tiedAEvents tiedAStore ∧
      ∃ data documents, tiedAStore.query tiedSchema tiedAQuery none = .ok (data, documents) ∧
        data.hasNextPage = true ∧ documents.map (·.2.id) = [⟨"A2"⟩] ∧
        tiedAStore.query tiedSchema (tiedAQuery.after data.endCursor) none =
          .ok (data, documents) ∧
        ∀ fuel, tiedAStore.paginate tiedSchema none fuel tiedAQuery = none := by
  have hfirst : tiedAStore.query tiedSchema tiedAQuery none =
      .ok (⟨none, true, false, none, some ⟨⟨rowCursor 0 "b" ⟨"A2"⟩⟩, none, none⟩⟩,
        [(⟨⟨rowCursor 0 "b" ⟨"A2"⟩⟩, none, none⟩, ⟨⟨"A2"⟩, ⟨[⟨"A2"⟩]⟩, [("b", .str, some "two")], .null, false⟩)]) := by
    decide +kernel
  have hsecond : tiedAStore.query tiedSchema (tiedAQuery.after (some ⟨⟨rowCursor 0 "b" ⟨"A2"⟩⟩, none, none⟩)) none =
      .ok (⟨none, true, false, none, some ⟨⟨rowCursor 0 "b" ⟨"A2"⟩⟩, none, none⟩⟩,
        [(⟨⟨rowCursor 0 "b" ⟨"A2"⟩⟩, none, none⟩, ⟨⟨"A2"⟩, ⟨[⟨"A2"⟩]⟩, [("b", .str, some "two")], .null, false⟩)]) := by
    decide +kernel
  refine ⟨tiedAStore_run, _, _, hfirst, rfl, rfl, hsecond, ?_⟩
  -- The first page has a next page, and from there every page is the same.
  rintro (_ | fuel)
  · rfl
  · rw [paginate_succ_of_hasNextPage hfirst rfl,
      @paginate_eq_none_of_repeats tiedAStore tiedSchema none tiedAQuery
        ⟨none, true, false, none, some ⟨⟨rowCursor 0 "b" ⟨"A2"⟩⟩, none, none⟩⟩ _ hsecond rfl]
    rfl

end Aquadoggo
