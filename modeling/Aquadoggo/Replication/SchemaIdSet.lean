import Aquadoggo.Replication.Message
import Aquadoggo.Library.SortedSet

/-! The canonical form of target sets (`replication/schema_id_set.rs`): `new` builds it,
`validate` checks it on what a peer sends, and both agree with one order, system schemas
first and each kind increasing. Target-set equality decides duplicate sessions, so a set must
have exactly one canonical form. -/
namespace Aquadoggo

/-- Every schema that is not an application schema is a system schema. -/
def SchemaId.isSystem : SchemaId → Bool
  | .application _ _ => false
  | _ => true

namespace Replication

open Library

inductive SchemaIdSetError where
  | unsortedSchemaIds
deriving DecidableEq, Repr

instance : ToString SchemaIdSetError where
  toString
    | .unsortedSchemaIds => "Set contains unsorted or duplicate schema ids"

namespace SchemaIdSet

theorem mem_fromIntersection (localSet remoteSet : SchemaIdSet) (x : SchemaId) :
    x ∈ (fromIntersection localSet remoteSet).ids ↔ x ∈ localSet.ids ∧ x ∈ remoteSet.ids := by
  simp [fromIntersection, contains]

theorem isValidSet_iff (self set : SchemaIdSet) :
    self.isValidSet set = true ↔ ∀ x ∈ set.ids, x ∈ self.ids := by
  simp [isValidSet, contains]

-- The `Ord` of p2panda's `SchemaId`; all that is used of it is that it is a total order
-- consistent with equality.
variable [LinearOrder SchemaId]

/-- `SchemaIdSet::new`: de-duplicate, sort, then move the system schemas to the front. -/
def new (schemaIds : List SchemaId) : SchemaIdSet :=
  let deduplicatedSet := schemaIds.foldl (fun set schemaId =>
    if set.contains schemaId then set else set ++ [schemaId]) []
  let deduplicatedSet := deduplicatedSet.mergeSort (· ≤ ·)
  -- `sort_by` with `is_system(b).cmp(is_system(a))`, a stable sort: system schemas go first.
  ⟨deduplicatedSet.mergeSort fun a b => a.isSystem || !b.isSystem⟩

/-- The loop of `validate` after the first element: `prev` is the element before, and
`initialSystemSchema` whether the loop is still among the leading system schemas. -/
def validateFrom (prev : SchemaId) (initialSystemSchema : Bool) :
    List SchemaId → Except SchemaIdSetError Unit
  | [] => pure ()
  | schemaId :: rest =>
    match schemaId with
    | .application _ _ =>
      if !initialSystemSchema then
        if prev ≥ schemaId then throw .unsortedSchemaIds else validateFrom schemaId false rest
      else validateFrom schemaId false rest
    | _ =>
      if !initialSystemSchema then throw .unsortedSchemaIds
      else if prev ≥ schemaId then throw .unsortedSchemaIds
      else validateFrom schemaId true rest

/-- `Validate for SchemaIdSet`: system schemas first, each kind strictly increasing. -/
def validate (set : SchemaIdSet) : Except SchemaIdSetError Unit :=
  match set.ids with
  | [] => pure ()
  | first :: rest => validateFrom first first.isSystem rest

/-- `from_untrusted`: accept a decoded sequence only in canonical form. -/
def fromUntrusted (schemaIds : List SchemaId) : Except SchemaIdSetError SchemaIdSet := do
  validate ⟨schemaIds⟩
  pure ⟨schemaIds⟩

/-- The order of a canonical set: system schemas before application schemas, each kind in
increasing order. -/
def CanonicalLt (a b : SchemaId) : Prop :=
  a.isSystem = true ∧ b.isSystem = false ∨ a.isSystem = b.isSystem ∧ a < b

/-- A set as `new` produces it. -/
def Canonical (set : SchemaIdSet) : Prop := new set.ids = set

instance (set : SchemaIdSet) : Decidable (Canonical set) :=
  inferInstanceAs (Decidable (new set.ids = set))

theorem canonicalLt_asymm (a b : SchemaId) (hab : CanonicalLt a b) : ¬CanonicalLt b a := by
  unfold CanonicalLt at *
  rcases hab with ⟨ha, hb⟩ | ⟨hkind, hlt⟩
  · rw [ha, hb]
    simp
  · rintro (⟨hb, ha⟩ | ⟨-, hgt⟩)
    · rw [hb, ha] at hkind
      cases hkind
    · exact lt_asymm hlt hgt

theorem canonicalLt_trans (a b c : SchemaId) (hab : CanonicalLt a b) (hbc : CanonicalLt b c) :
    CanonicalLt a c := by
  unfold CanonicalLt at *
  rcases hab with ⟨ha, hb⟩ | ⟨hkind, hlt⟩ <;> rcases hbc with ⟨hb', hc⟩ | ⟨hkind', hlt'⟩
  · rw [hb] at hb'
    cases hb'
  · exact .inl ⟨ha, hkind'.symm.trans hb⟩
  · exact .inl ⟨hkind.trans hb', hc⟩
  · exact .inr ⟨hkind.trans hkind', hlt.trans hlt'⟩

instance : DecidableRel CanonicalLt := fun _ _ =>
  inferInstanceAs (Decidable (_ ∨ _))

instance : Trans CanonicalLt CanonicalLt CanonicalLt := ⟨canonicalLt_trans _ _ _⟩

theorem mem_new (schemaIds : List SchemaId) (x : SchemaId) :
    x ∈ (new schemaIds).ids ↔ x ∈ schemaIds := by
  unfold new
  simp only [List.mem_mergeSort]
  rw [mem_foldl_pushUnique]
  simp

theorem pairwise_new (schemaIds : List SchemaId) : (new schemaIds).ids.Pairwise CanonicalLt := by
  set deduplicated := schemaIds.foldl (fun set schemaId =>
    if set.contains schemaId then set else set ++ [schemaId]) []
  have hnodup : (deduplicated.mergeSort (· ≤ ·)).Nodup :=
    (List.mergeSort_perm _ _).nodup_iff.mpr (nodup_foldl_pushUnique _ List.nodup_nil)
  have hsorted : (deduplicated.mergeSort (· ≤ ·)).Pairwise (· < ·) :=
    (List.sortedLE_mergeSort.sortedLT_of_nodup hnodup).pairwise
  show ((deduplicated.mergeSort (· ≤ ·)).mergeSort fun a b => a.isSystem || !b.isSystem).Pairwise
    CanonicalLt
  rw [mergeSort_key]
  refine List.pairwise_append.mpr ⟨?_, ?_, ?_⟩
  · refine (List.Pairwise.filter _ hsorted).imp_of_mem fun ha hb hlt => ?_
    exact .inr ⟨by rw [(List.mem_filter.mp ha).2, (List.mem_filter.mp hb).2], hlt⟩
  · refine (List.Pairwise.filter _ hsorted).imp_of_mem fun ha hb hlt => ?_
    simp only [List.mem_filter, Bool.not_eq_true'] at ha hb
    exact .inr ⟨by rw [ha.2, hb.2], hlt⟩
  · intro a ha b hb
    simp only [List.mem_filter, Bool.not_eq_true'] at ha hb
    exact .inl ⟨ha.2, hb.2⟩

theorem new_eq_of_pairwise {schemaIds : List SchemaId} (h : schemaIds.Pairwise CanonicalLt) :
    new schemaIds = ⟨schemaIds⟩ := by
  rw [SchemaIdSet.mk.injEq]
  exact eq_of_pairwise_of_mem_iff canonicalLt_asymm (pairwise_new schemaIds) h (mem_new schemaIds)

theorem canonical_iff_pairwise (set : SchemaIdSet) :
    Canonical set ↔ set.ids.Pairwise CanonicalLt := by
  constructor
  · intro h
    rw [← h]
    exact pairwise_new set.ids
  · intro h
    exact new_eq_of_pairwise h

/-- One round of the loop, when its flag is the kind of the previous element: the pair must be
in canonical order. -/
theorem validateFrom_cons (prev schemaId : SchemaId) (rest : List SchemaId) :
    validateFrom prev prev.isSystem (schemaId :: rest) =
      if CanonicalLt prev schemaId then validateFrom schemaId schemaId.isSystem rest
      else throw .unsortedSchemaIds := by
  -- The source rejects on `prev >= schema_id`; in a total order that is `¬ prev < schema_id`.
  have hge : ∀ x y : Except SchemaIdSetError Unit,
      (if prev ≥ schemaId then x else y) = if prev < schemaId then y else x := by
    intro x y
    by_cases hlt : prev < schemaId
    · simp [hlt, not_le.mpr hlt]
    · simp [hlt, le_of_not_gt hlt]
  unfold CanonicalLt
  cases prev <;> cases schemaId <;> simp [validateFrom, SchemaId.isSystem, hge]

theorem validateFrom_eq_ok_iff (prev : SchemaId) (rest : List SchemaId) :
    validateFrom prev prev.isSystem rest = .ok () ↔ (prev :: rest).IsChain CanonicalLt := by
  induction rest generalizing prev with
  | nil => exact ⟨fun _ => .singleton prev, fun _ => rfl⟩
  | cons schemaId rest ih =>
    rw [List.isChain_cons_cons, validateFrom_cons]
    split
    · rw [ih]
      simp [*]
    · simp [*]
theorem validate_eq_ok_iff (set : SchemaIdSet) :
    validate set = .ok () ↔ set.ids.Pairwise CanonicalLt := by
  unfold validate
  cases set.ids with
  | nil => exact ⟨fun _ => List.Pairwise.nil, fun _ => rfl⟩
  | cons first rest => rw [validateFrom_eq_ok_iff, List.isChain_iff_pairwise]

theorem new_eq_new_iff (xs ys : List SchemaId) : new xs = new ys ↔ ∀ x, x ∈ xs ↔ x ∈ ys := by
  constructor
  · intro h x
    rw [← mem_new xs, ← mem_new ys, h]
  · intro h
    rw [SchemaIdSet.mk.injEq]
    exact eq_of_pairwise_of_mem_iff canonicalLt_asymm (pairwise_new xs) (pairwise_new ys)
      fun x => by rw [mem_new, mem_new, h]

theorem canonical_fromIntersection {localSet : SchemaIdSet} (h : Canonical localSet)
    (remoteSet : SchemaIdSet) : Canonical (fromIntersection localSet remoteSet) := by
  rw [canonical_iff_pairwise] at h ⊢
  exact h.filter _

theorem canonical_new (schemaIds : List SchemaId) : Canonical (new schemaIds) :=
  new_eq_of_pairwise (pairwise_new schemaIds)

/-- A target set in canonical form. -/
structure CanonicalSet where
  set : SchemaIdSet
  canonical : Canonical set

/-- `validate` accepts exactly the canonical sequences, `new` keeps only which schemas a list
holds, and intersecting canonical sets stays canonical. -/
theorem schemaIdSet_canonical_form :
    (∀ schemaIds : List SchemaId,
      validate ⟨schemaIds⟩ = .ok () ↔ schemaIds = (new schemaIds).ids) ∧
    (∀ xs ys : List SchemaId, new xs = new ys ↔ ∀ x, x ∈ xs ↔ x ∈ ys) ∧
    (∀ a b : CanonicalSet, Canonical (fromIntersection a.set b.set) ∧
      (∀ x, x ∈ (fromIntersection a.set b.set).ids ↔ x ∈ a.set.ids ∧ x ∈ b.set.ids) ∧
      (a.set.isValidSet b.set = true ↔ ∀ x ∈ b.set.ids, x ∈ a.set.ids)) := by
  refine ⟨fun schemaIds => ?_, new_eq_new_iff, fun a b => ?_⟩
  · rw [validate_eq_ok_iff, ← canonical_iff_pairwise, Canonical]
    dsimp only
    cases new schemaIds
    simp [eq_comm]
  · exact ⟨canonical_fromIntersection a.canonical b.set, mem_fromIntersection a.set b.set,
      isValidSet_iff a.set b.set⟩

end SchemaIdSet

end Replication

end Aquadoggo
