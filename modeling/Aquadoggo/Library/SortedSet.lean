import Mathlib.Data.List.Sort

/-! Lists as finite sets in a canonical order: the loop that pushes only elements not yet
collected, the stable sort by a boolean key (which partitions the list), and the uniqueness
of a list sorted by a strict order. -/
namespace Library

variable {α : Type}

section Dedup

variable [BEq α] [LawfulBEq α]

/-- The elements collected by the loop that pushes each element not collected yet. -/
theorem mem_foldl_pushUnique (xs acc : List α) (x : α) :
    x ∈ xs.foldl (fun set y => if set.contains y then set else set ++ [y]) acc ↔
      x ∈ acc ∨ x ∈ xs := by
  induction xs generalizing acc with
  | nil => simp
  | cons y rest ih =>
    rw [List.foldl_cons, ih]
    by_cases hy : y ∈ acc
    · simp only [List.contains_iff_mem, hy, if_true, List.mem_cons]
      constructor
      · rintro (h | h)
        · exact .inl h
        · exact .inr (.inr h)
      · rintro (h | rfl | h)
        · exact .inl h
        · exact .inl hy
        · exact .inr h
    · simp only [List.contains_iff_mem, hy, if_false, List.mem_append, List.mem_cons]
      tauto

theorem nodup_foldl_pushUnique (xs : List α) {acc : List α} (h : acc.Nodup) :
    (xs.foldl (fun set y => if set.contains y then set else set ++ [y]) acc).Nodup := by
  induction xs generalizing acc with
  | nil => exact h
  | cons y rest ih =>
    rw [List.foldl_cons]
    apply ih
    by_cases hy : y ∈ acc
    · simpa [List.contains_iff_mem, hy] using h
    · simp only [List.contains_iff_mem, hy, if_false]
      refine List.nodup_append.mpr ⟨h, List.nodup_singleton y, fun a ha b hb => ?_⟩
      rw [List.mem_singleton] at hb
      subst hb
      exact fun heq => hy (heq ▸ ha)

end Dedup

section Partition

variable (p : α → Bool)

theorem filter_append_filter_not_of_pairwise {l : List α} (h : l.Pairwise fun a b => p a || !p b) :
    l.filter p ++ l.filter (fun a => !p a) = l := by
  induction l with
  | nil => rfl
  | cons x rest ih =>
    rw [List.pairwise_cons] at h
    cases hx : p x
    · -- Everything after an element without the key is without the key.
      have hrest : ∀ y ∈ rest, p y = false := fun y hy => by simpa [hx] using h.1 y hy
      have hnone : rest.filter p = [] := List.filter_eq_nil_iff.mpr fun y hy => by simp [hrest y hy]
      have hall : rest.filter (fun a => !p a) = rest := List.filter_eq_self.mpr fun y hy => by simp [hrest y hy]
      simp [hx, hnone, hall]
    · simp [hx, ih h.2]

/-- A stable sort by a boolean key, keyed elements first, keeps both parts in order. -/
theorem mergeSort_key (l : List α) :
    l.mergeSort (fun a b => p a || !p b) = l.filter p ++ l.filter (fun a => !p a) := by
  have trans : ∀ a b c, (p a || !p b) → (p b || !p c) → (p a || !p c) := by
    intro a b c; cases p a <;> cases p b <;> cases p c <;> simp
  have total : ∀ a b, ((p a || !p b) || (p b || !p a)) := by
    intro a b; cases p a <;> cases p b <;> simp
  set sorted := l.mergeSort (fun a b => p a || !p b)
  have hperm : sorted.Perm l := List.mergeSort_perm l _
  have hsplit : sorted.filter p ++ sorted.filter (fun a => !p a) = sorted :=
    filter_append_filter_not_of_pairwise p (List.pairwise_mergeSort trans total l)
  -- Stability: each part of `l` stays a sublist of the sorted list, so of its own part there.
  have hkeyed : (l.filter p).Sublist (sorted.filter p) := by
    have := List.sublist_mergeSort trans total
      (List.pairwise_of_forall_mem_list fun a ha b _ => by simp [(List.mem_filter.mp ha).2])
      (List.filter_sublist (p := p) (l := l))
    simpa using this.filter p
  have hunkeyed : (l.filter (fun a => !p a)).Sublist (sorted.filter (fun a => !p a)) := by
    have := List.sublist_mergeSort trans total
      (List.pairwise_of_forall_mem_list fun a _ b hb => by simp [(List.mem_filter.mp hb).2])
      (List.filter_sublist (p := fun a => !p a) (l := l))
    simpa using this.filter (fun a => !p a)
  calc sorted = sorted.filter p ++ sorted.filter (fun a => !p a) := hsplit.symm
    _ = l.filter p ++ l.filter (fun a => !p a) := by
      rw [hkeyed.eq_of_length (hperm.filter p).length_eq.symm,
        hunkeyed.eq_of_length (hperm.filter _).length_eq.symm]

end Partition

/-- Two lists sorted by an asymmetric relation with the same elements are equal. -/
theorem eq_of_pairwise_of_mem_iff {r : α → α → Prop} (asymm : ∀ a b, r a b → ¬r b a)
    {l₁ l₂ : List α} (h₁ : l₁.Pairwise r) (h₂ : l₂.Pairwise r) (hmem : ∀ x, x ∈ l₁ ↔ x ∈ l₂) :
    l₁ = l₂ := by
  have hnodup : ∀ {l : List α}, l.Pairwise r → l.Nodup := fun h =>
    h.imp fun {a b} hab heq => by
      subst heq
      exact asymm a a hab hab
  refine List.Perm.eq_of_pairwise (fun a b _ _ hab hba => absurd hba (asymm a b hab)) h₁ h₂ ?_
  exact (List.perm_ext_iff_of_nodup (hnodup h₁) (hnodup h₂)).mpr hmem

end Library
