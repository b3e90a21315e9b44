import Aquadoggo.Query.Paginate

/-! Whether the filter a query runs depends on the order of the calls that built it.
`upsert_filter_item` merges a new setting only into the first setting on its field, and only
when their exclusivity agrees; two elements merge into a set, which `cmp_sql` reads as a
disjunction. Calls on distinct fields commute; calls on one field need not. -/
namespace Aquadoggo

open Library

/-- What a filter asks of one value of `field`: every setting on that field holds, each as
`cmp_sql` writes it, joined with `AND` as `where_filter_sql` joins them. -/
def Filter.selects (filter : Filter) (field : Field) (value : SqlValue) : Bool :=
  (filter.settings.filter (·.field == field)).all (cmpSql value)

/-- The setting each argument hands to `upsert_filter_item`. -/
def FilterArgument.setting (field : Field) : FilterArgument → FilterSetting
  | .isIn [value] => ⟨field, .element value, false⟩
  | .isIn values => ⟨field, .set values, false⟩
  | .notIn [value] => ⟨field, .element value, true⟩
  | .notIn values => ⟨field, .set values, true⟩
  | .eq value => ⟨field, .element value, false⟩
  | .notEq value => ⟨field, .element value, true⟩
  | .gt value => ⟨field, .interval (.greater value) .unbounded, false⟩
  | .gte value => ⟨field, .interval (.greaterEqual value) .unbounded, false⟩
  | .lt value => ⟨field, .interval .unbounded (.lower value), false⟩
  | .lte value => ⟨field, .interval .unbounded (.lowerEqual value), false⟩
  | .contains text => ⟨field, .contains text, false⟩
  | .notContains text => ⟨field, .contains text, true⟩

@[simp] theorem FilterArgument.setting_field (field : Field) (argument : FilterArgument) :
    (argument.setting field).field = field := by
  unfold setting
  split <;> rfl

theorem FilterArgument.addTo_eq_upsert (filter : Filter) (field : Field)
    (argument : FilterArgument) :
    argument.addTo filter field = filter.upsertFilterItem (argument.setting field) := by
  cases argument with
  | isIn values => cases values with
    | nil => rfl
    | cons value rest => cases rest <;> rfl
  | notIn values => cases values with
    | nil => rfl
    | cons value rest => cases rest <;> rfl
  | _ => rfl

/-- Filter calls one after the other, each on its field. -/
def Filter.apply (filter : Filter) (calls : List (Field × FilterArgument)) : Filter :=
  calls.foldl (fun filter (field, argument) => argument.addTo filter field) filter

/-- `parse_filter` makes the calls of the filter object's fields, each field's arguments in
the order the client wrote them. -/
theorem parseFilter_eq_apply (filter : Filter)
    (filterObject : List (String × List FilterArgument)) :
    parseFilter filter filterObject = filter.apply
      (filterObject.flatMap fun (name, arguments) => arguments.map ((.field name), ·)) := by
  induction filterObject generalizing filter with
  | nil => rfl
  | cons entry rest ih =>
    obtain ⟨name, arguments⟩ := entry
    simp only [parseFilter, Filter.apply, List.foldl_cons, List.flatMap_cons, List.foldl_append,
      List.foldl_map] at ih ⊢
    exact ih _

/-- A setting on a field the filter has no setting on is pushed. -/
theorem Filter.upsertFilterItem_of_fresh {filter : Filter} {newItem : FilterSetting}
    (hfresh : ∀ setting ∈ filter.settings, setting.field ≠ newItem.field) :
    filter.upsertFilterItem newItem = ⟨filter.settings ++ [newItem]⟩ := by
  have hnone : filter.settings.findIdx? (·.field == newItem.field) = none := by
    rw [List.findIdx?_eq_none_iff]
    intro setting hmem
    simpa using hfresh setting hmem
  simp [upsertFilterItem, hnone]

theorem Filter.apply_of_fresh {filter : Filter} {calls : List (Field × FilterArgument)}
    (hcalls : (calls.map (·.1)).Nodup)
    (hfresh : ∀ setting ∈ filter.settings, setting.field ∉ calls.map (·.1)) :
    filter.apply calls =
      ⟨filter.settings ++ calls.map fun (field, argument) => argument.setting field⟩ := by
  induction calls generalizing filter with
  | nil => simp [apply]
  | cons call rest ih =>
    obtain ⟨field, argument⟩ := call
    rw [List.map_cons, List.nodup_cons] at hcalls
    have hupsert : argument.addTo filter field = ⟨filter.settings ++ [argument.setting field]⟩ := by
      rw [FilterArgument.addTo_eq_upsert]
      apply upsertFilterItem_of_fresh
      intro setting hmem heq
      exact hfresh setting hmem (by simp [heq])
    simp only [apply, List.foldl_cons] at ih ⊢
    rw [hupsert, ih hcalls.2]
    · simp
    · intro setting hmem
      rcases List.mem_append.mp hmem with hold | hnew
      · exact fun hrest => hfresh setting hold (List.mem_cons_of_mem _ hrest)
      · rw [List.mem_singleton] at hnew
        subst hnew
        simpa using hcalls.1

/-- Calls on distinct fields give the same selection in any order. -/
theorem Filter.selects_apply_perm {calls calls' : List (Field × FilterArgument)}
    (hperm : calls.Perm calls') (hfields : (calls.map (·.1)).Nodup) (field : Field)
    (value : SqlValue) :
    (Filter.new.apply calls).selects field value =
      (Filter.new.apply calls').selects field value := by
  have hfields' : (calls'.map (·.1)).Nodup := (hperm.map _).nodup_iff.mp hfields
  rw [apply_of_fresh hfields (by simp [Filter.new]), apply_of_fresh hfields' (by simp [Filter.new])]
  unfold selects
  rw [Bool.eq_iff_iff, List.all_eq_true, List.all_eq_true]
  have hsame := ((hperm.map fun (c : Field × FilterArgument) => c.2.setting c.1).filter
    (·.field == field))
  simp only [Filter.new, List.nil_append]
  exact ⟨fun h x hx => h x (hsame.mem_iff.mpr hx), fun h x hx => h x (hsame.mem_iff.mp hx)⟩

/-- The first ten documents of `tiedSchema` by id, filtered by a filter object on field `a`
with the arguments in the order the client wrote them. -/
def fieldAQuery (arguments : List FilterArgument) : Query :=
  ⟨⟨10, by decide, none, [.hasNextPage, .endCursor]⟩, ⟨[.metaField .documentViewId], by decide⟩,
    parseFilter Filter.default [("a", arguments)], ⟨some (.metaField .documentId), .ascending⟩⟩

/-- The filter object `{ a: { notEq: "two", eq: "one", in: ["x"] } }` and the same object with
its keys in another order. In the first, `eq` and `in` come after an exclusive setting on `a`
and are pushed as two settings, which no value meets; in the second they merge into
`a IN ("one", "x")`, which document `A1` meets. -/
theorem filter_key_order_changes_selection :
    [FilterArgument.notEq (.string "two"), .eq (.string "one"), .isIn [.string "x"]].Perm
        [.eq (.string "one"), .isIn [.string "x"], .notEq (.string "two")] ∧
      Filter.selects (fieldAQuery [.notEq (.string "two"), .eq (.string "one"),
        .isIn [.string "x"]]).filter (.field "a") (.text "one") = false ∧
      Filter.selects (fieldAQuery [.eq (.string "one"), .isIn [.string "x"],
        .notEq (.string "two")]).filter (.field "a") (.text "one") = true ∧
      Run Db.Step Db.empty tiedEvents tiedStore ∧
      (tiedStore.query tiedSchema (fieldAQuery [.notEq (.string "two"), .eq (.string "one"),
        .isIn [.string "x"]]) none).map (·.2.map (·.2.id)) = .ok [] ∧
      (tiedStore.query tiedSchema (fieldAQuery [.eq (.string "one"), .isIn [.string "x"],
        .notEq (.string "two")]) none).map (·.2.map (·.2.id)) = .ok [⟨"A1"⟩] := by
  refine ⟨by decide, by decide +kernel, by decide +kernel, tiedStore_run, ?_, ?_⟩
  · decide +kernel
  · decide +kernel

end Aquadoggo
