import Mathlib.Data.List.Basic

/-! Loops over a list in `Option`, as code with an `expect` in its loop body reads when the
panic is `none`: `filterMapM` and `flatMapM` are `none` as soon as one element is, and
otherwise give what `filterMap` and `flatMap` give. -/
namespace Library

variable {α β : Type}

theorem filterMapM_eq_some {f : α → Option (Option β)} {g : α → Option β} {l : List α}
    (h : ∀ a ∈ l, f a = some (g a)) : l.filterMapM f = some (l.filterMap g) := by
  induction l with
  | nil => rfl
  | cons a l ih =>
    rw [List.filterMapM_cons, h a List.mem_cons_self,
      ih fun b hb => h b (List.mem_cons_of_mem _ hb), List.filterMap_cons]
    rcases g a with _ | b <;> rfl

theorem filterMapM_eq_none_iff {f : α → Option (Option β)} {l : List α} :
    l.filterMapM f = none ↔ ∃ a ∈ l, f a = none := by
  induction l with
  | nil => simp
  | cons a l ih =>
    rw [List.filterMapM_cons]
    simp only [List.mem_cons, or_and_right, exists_or, exists_eq_left, ← ih]
    rcases f a with _ | _ | b <;> cases l.filterMapM f <;> simp

theorem mem_of_filterMapM_eq_some {f : α → Option (Option β)} {l : List α} {r : List β}
    (h : l.filterMapM f = some r) {b : β} : b ∈ r ↔ ∃ a ∈ l, f a = some (some b) := by
  induction l generalizing r with
  | nil => cases h; simp
  | cons a l ih =>
    rw [List.filterMapM_cons] at h
    simp only [List.mem_cons, or_and_right, exists_or, exists_eq_left]
    rcases ha : f a with _ | _ | c
    · simp [ha] at h
    · simp only [ha] at h
      simp [ih h]
    · cases hrest : l.filterMapM f with
      | none => simp [ha, hrest] at h
      | some rest =>
        rw [ha, hrest] at h
        cases (h : some (c :: rest) = some r)
        simp [ih hrest, eq_comm]

theorem flatMapM_eq_some {f : α → Option (List β)} {g : α → List β} {l : List α}
    (h : ∀ a ∈ l, f a = some (g a)) : l.flatMapM f = some (l.flatMap g) := by
  induction l with
  | nil => rfl
  | cons a l ih =>
    rw [List.flatMapM_cons, h a List.mem_cons_self,
      ih fun b hb => h b (List.mem_cons_of_mem _ hb)]
    rfl

theorem flatMapM_eq_none_iff {f : α → Option (List β)} {l : List α} :
    l.flatMapM f = none ↔ ∃ a ∈ l, f a = none := by
  induction l with
  | nil => simp
  | cons a l ih =>
    rw [List.flatMapM_cons]
    simp only [List.mem_cons, or_and_right, exists_or, exists_eq_left, ← ih]
    rcases f a with _ | bs <;> cases l.flatMapM f <;> simp

theorem exists_of_flatMapM_eq_some {f : α → Option (List β)} {l : List α} {r : List β}
    (h : l.flatMapM f = some r) {a : α} (ha : a ∈ l) : ∃ bs, f a = some bs := by
  rcases hfa : f a with _ | bs
  · rw [flatMapM_eq_none_iff.mpr ⟨a, ha, hfa⟩] at h
    cases h
  · exact ⟨bs, rfl⟩

theorem mem_of_flatMapM_eq_some {f : α → Option (List β)} {l : List α} {r : List β}
    (h : l.flatMapM f = some r) {b : β} : b ∈ r ↔ ∃ a ∈ l, ∃ bs, f a = some bs ∧ b ∈ bs := by
  induction l generalizing r with
  | nil => cases h; simp
  | cons a l ih =>
    rw [List.flatMapM_cons] at h
    simp only [List.mem_cons, or_and_right, exists_or, exists_eq_left]
    rcases ha : f a with _ | bs
    · simp [ha] at h
    · cases hrest : l.flatMapM f with
      | none => simp [ha, hrest] at h
      | some rest =>
        rw [ha, hrest] at h
        cases (h : some (bs ++ rest) = some r)
        simp [ih hrest]

end Library
