import Mathlib.Data.List.Basic
import Mathlib.Data.List.Nodup

/-! Association lists as the model of hash maps: a key occurs at most once, and
iteration follows the order in which keys were first inserted. -/
namespace Library

variable {κ ν : Type} [DecidableEq κ]

/-- `HashMap::insert`: replace the value of a present key, append a new one. -/
def insertMap : List (κ × ν) → κ → ν → List (κ × ν)
  | [], k, v => [(k, v)]
  | (k', v') :: rest, k, v => if k' = k then (k, v) :: rest else (k', v') :: insertMap rest k v

/-- `HashMap::remove`: drop the entry of a key. -/
def eraseMap : List (κ × ν) → κ → List (κ × ν)
  | [], _ => []
  | (k', v') :: rest, k => if k' = k then rest else (k', v') :: eraseMap rest k

/-- `collect()` of pairs into a hash map: a later pair for a key wins. -/
def collectMap (pairs : List (κ × ν)) : List (κ × ν) :=
  pairs.foldl (fun map entry => insertMap map entry.1 entry.2) []

/-- Push each value onto the list of its key, keys in order of first appearance. -/
def groupByKey (pairs : List (κ × ν)) : List (κ × List ν) :=
  pairs.foldl (fun map entry =>
    match map.lookup entry.1 with
    | some vs => insertMap map entry.1 (vs ++ [entry.2])
    | none => map ++ [(entry.1, [entry.2])]) []

theorem lookup_cons_ne (rest : List (κ × ν)) {k k' : κ} (v : ν) (hne : k ≠ k') :
    ((k', v) :: rest).lookup k = rest.lookup k := by
  have hbeq : (k == k') = false := by simpa using hne
  rw [List.lookup_cons, hbeq]

@[simp] theorem lookup_insertMap_self (map : List (κ × ν)) (k : κ) (v : ν) :
    (insertMap map k v).lookup k = some v := by
  induction map with
  | nil => simp [insertMap]
  | cons entry rest ih =>
    obtain ⟨k', v'⟩ := entry
    by_cases hk : k' = k
    · simp [insertMap, hk]
    · simp only [insertMap, hk, if_false]
      rw [lookup_cons_ne _ v' (Ne.symm hk), ih]

theorem lookup_insertMap_ne (map : List (κ × ν)) {k k' : κ} (v : ν) (hne : k' ≠ k) :
    (insertMap map k v).lookup k' = map.lookup k' := by
  induction map with
  | nil => simp [insertMap, hne]
  | cons entry rest ih =>
    obtain ⟨k'', v'⟩ := entry
    by_cases hk : k'' = k
    · subst hk
      simp only [insertMap, if_true]
      rw [lookup_cons_ne rest v hne, lookup_cons_ne rest v' hne]
    · simp only [insertMap, hk, if_false]
      by_cases hk' : k' = k''
      · subst hk'
        simp
      · rw [lookup_cons_ne _ v' hk', lookup_cons_ne rest v' hk', ih]

theorem lookup_insertMap (map : List (κ × ν)) (k k' : κ) (v : ν) :
    (insertMap map k v).lookup k' = if k' = k then some v else map.lookup k' := by
  split
  · subst k'
    exact lookup_insertMap_self map _ v
  · exact lookup_insertMap_ne map v ‹_›

theorem lookup_isSome_iff_mem_keys (map : List (κ × ν)) (k : κ) :
    (map.lookup k).isSome ↔ k ∈ map.map (·.1) := by
  simp only [List.lookup_isSome_iff, beq_iff_eq, List.mem_map]
  exact ⟨fun ⟨p, hp, he⟩ => ⟨p, hp, he.symm⟩, fun ⟨p, hp, he⟩ => ⟨p, hp, he.symm⟩⟩

theorem keys_insertMap (map : List (κ × ν)) (k : κ) (v : ν) :
    (insertMap map k v).map (·.1) =
      if k ∈ map.map (·.1) then map.map (·.1) else map.map (·.1) ++ [k] := by
  induction map with
  | nil => simp [insertMap]
  | cons entry rest ih =>
    obtain ⟨k', v'⟩ := entry
    by_cases hk : k' = k
    · simp [insertMap, hk]
    · simp only [insertMap, hk, if_false, List.map_cons, ih, List.mem_cons]
      by_cases hmem : k ∈ rest.map (·.1)
      · simp [hmem]
      · simp [hmem, Ne.symm hk]

theorem keys_nodup_insertMap {map : List (κ × ν)} (h : (map.map (·.1)).Nodup) (k : κ) (v : ν) :
    ((insertMap map k v).map (·.1)).Nodup := by
  rw [keys_insertMap]
  split
  · exact h
  · refine List.nodup_append.mpr ⟨h, by simp, ?_⟩
    intro a ha b hb
    rw [List.mem_singleton] at hb
    subst hb
    exact fun heq => ‹¬_› (heq ▸ ha)

theorem keys_eraseMap (map : List (κ × ν)) (k : κ) :
    (eraseMap map k).map (·.1) = (map.map (·.1)).erase k := by
  induction map with
  | nil => simp [eraseMap]
  | cons entry rest ih =>
    obtain ⟨k', v'⟩ := entry
    by_cases hk : k' = k
    · simp [eraseMap, hk]
    · have hbeq : ¬(k' == k) := by simpa using hk
      simp [eraseMap, hk, ih, List.erase_cons_tail hbeq]

theorem keys_nodup_eraseMap {map : List (κ × ν)} (h : (map.map (·.1)).Nodup) (k : κ) :
    ((eraseMap map k).map (·.1)).Nodup := by
  rw [keys_eraseMap]
  exact h.erase k

/-- With unique keys, removing a key leaves the other lookups as they were. -/
theorem lookup_eraseMap {map : List (κ × ν)} (h : (map.map (·.1)).Nodup) (k k' : κ) :
    (eraseMap map k).lookup k' = if k' = k then none else map.lookup k' := by
  induction map with
  | nil => simp [eraseMap]
  | cons entry rest ih =>
    obtain ⟨k'', v'⟩ := entry
    rw [List.map_cons, List.nodup_cons] at h
    by_cases hk : k'' = k
    · subst hk
      simp only [eraseMap, if_true]
      split
      · subst k'
        have hnone : (rest.lookup k'').isSome = false := by
          rw [Bool.eq_false_iff, ne_eq, lookup_isSome_iff_mem_keys]
          exact h.1
        simpa using hnone
      · rw [lookup_cons_ne rest v' ‹_›]
    · simp only [eraseMap, hk, if_false]
      by_cases hk' : k' = k''
      · subst hk'
        simp [hk]
      · rw [lookup_cons_ne _ v' hk', lookup_cons_ne rest v' hk', ih h.2]

theorem lookup_foldl_insertMap (pairs map : List (κ × ν)) (k : κ) :
    (pairs.foldl (fun map entry => insertMap map entry.1 entry.2) map).lookup k =
      (pairs.reverse.lookup k).or (map.lookup k) := by
  induction pairs generalizing map with
  | nil => simp
  | cons entry rest ih =>
    obtain ⟨k', v'⟩ := entry
    rw [List.foldl_cons, ih, lookup_insertMap, List.reverse_cons, List.lookup_append, Option.or_assoc]
    by_cases hk : k = k'
    · simp [hk]
    · rw [lookup_cons_ne [] v' hk]
      simp [hk]

/-- An entry of a map after `insertMap` was there before, or is the inserted one. -/
theorem mem_insertMap {map : List (κ × ν)} {k : κ} {v : ν} {entry : κ × ν}
    (h : entry ∈ insertMap map k v) : entry ∈ map ∨ entry = (k, v) := by
  induction map with
  | nil =>
    simp only [insertMap, List.mem_singleton] at h
    exact .inr h
  | cons head rest ih =>
    obtain ⟨k', v'⟩ := head
    by_cases hk : k' = k
    · simp only [insertMap, hk, if_true, List.mem_cons] at h
      rcases h with h | h
      · exact .inr h
      · exact .inl (.tail _ h)
    · simp only [insertMap, hk, if_false, List.mem_cons] at h
      rcases h with h | h
      · exact .inl (h ▸ .head _)
      · rcases ih h with h | h
        · exact .inl (.tail _ h)
        · exact .inr h

/-- A second insertion at a key replaces the first. -/
@[simp] theorem insertMap_insertMap (map : List (κ × ν)) (k : κ) (v w : ν) :
    insertMap (insertMap map k v) k w = insertMap map k w := by
  induction map with
  | nil => simp [insertMap]
  | cons head rest ih =>
    obtain ⟨k', v'⟩ := head
    by_cases hk : k' = k
    · simp [insertMap, hk]
    · simp [insertMap, hk, ih]

theorem mem_of_lookup_eq_some {map : List (κ × ν)} {k : κ} {v : ν} (h : map.lookup k = some v) :
    (k, v) ∈ map := by
  obtain ⟨before, after, rfl, -⟩ := List.lookup_eq_some_iff.mp h
  simp

theorem mem_eraseMap {map : List (κ × ν)} {k : κ} {entry : κ × ν} (h : entry ∈ eraseMap map k) :
    entry ∈ map := by
  induction map with
  | nil => simp [eraseMap] at h
  | cons head rest ih =>
    obtain ⟨k', v'⟩ := head
    by_cases hk : k' = k
    · simp only [eraseMap, hk, if_true] at h
      exact .tail _ h
    · simp only [eraseMap, hk, if_false, List.mem_cons] at h
      rcases h with h | h
      · exact h ▸ .head _
      · exact .tail _ (ih h)

/-- Replacing the first element that satisfies `p` by another that does, then erasing the first
such element, erases the original one. -/
theorem eraseP_set_findIdx {α : Type} {p : α → Bool} {a : α} (hp : p a) :
    ∀ {l : List α}, l.findIdx p < l.length → (l.set (l.findIdx p) a).eraseP p = l.eraseP p
  | [], hlt => by simp at hlt
  | b :: rest, hlt => by
    by_cases hb : p b
    · simp [List.findIdx_cons, hb, List.eraseP_cons_of_pos hp]
    · have hrest : rest.findIdx p < rest.length := by
        simpa [List.findIdx_cons, hb] using hlt
      simp only [List.findIdx_cons, hb, cond_false, List.set_cons_succ,
        List.eraseP_cons_of_neg (by simpa using hb), eraseP_set_findIdx hp hrest]

/-- Erasing the first element that satisfies `p` takes the element `find?` returns out of every
count. -/
theorem countP_eraseP_add_of_find? {α : Type} {p q : α → Bool} {l : List α} {a : α}
    (h : l.find? p = some a) : (l.eraseP p).countP q + (if q a then 1 else 0) = l.countP q := by
  obtain ⟨hpa, before, after, rfl, hbefore⟩ := List.find?_eq_some_iff_append.mp h
  rw [List.eraseP_append_right _ fun b hb => by simpa using hbefore b hb, List.eraseP_cons_of_pos hpa]
  cases hqa : q a <;> simp [List.countP_append, hqa, Nat.add_assoc]

/-- Replacing the element `find?` returns by one that `q` treats alike keeps the count of `q`. -/
theorem countP_set_findIdx {α : Type} {p q : α → Bool} {l : List α} {a b : α}
    (h : l.find? p = some a) (hq : q b = q a) : (l.set (l.findIdx p) b).countP q = l.countP q := by
  obtain ⟨hlt, hget⟩ := List.getElem?_eq_some_iff.mp (List.find?_eq_getElem?_findIdx ▸ h)
  have hcount : (if q a then 1 else 0) ≤ l.countP q := by
    split
    · exact List.countP_pos_iff.mpr ⟨a, List.mem_of_find?_eq_some h, ‹_›⟩
    · exact Nat.zero_le _
  rw [List.countP_set hlt, hget, hq]
  omega

/-- With distinct keys, a key's lookup finds exactly the pair the list holds. -/
theorem lookup_eq_some_iff_mem {map : List (κ × ν)} (h : (map.map (·.1)).Nodup) (k : κ) (v : ν) :
    map.lookup k = some v ↔ (k, v) ∈ map := by
  induction map with
  | nil => simp
  | cons entry rest ih =>
    obtain ⟨k', v'⟩ := entry
    rw [List.map_cons, List.nodup_cons] at h
    by_cases hk : k = k'
    · subst hk
      constructor
      · intro hv
        simp only [List.lookup_cons_self, Option.some.injEq] at hv
        simp [hv]
      · intro hmem
        rcases List.mem_cons.mp hmem with heq | hrest
        · simp_all
        · exact absurd (List.mem_map_of_mem (f := (·.1)) hrest) h.1
    · rw [lookup_cons_ne rest v' hk, ih h.2]
      simp [hk]

theorem lookup_collectMap (pairs : List (κ × ν)) (k : κ) :
    (collectMap pairs).lookup k = pairs.reverse.lookup k := by
  simp [collectMap, lookup_foldl_insertMap]

/-- The pairs a collected map holds are pairs of the input. -/
theorem mem_of_mem_collectMap {pairs : List (κ × ν)} {entry : κ × ν} (h : entry ∈ collectMap pairs) :
    entry ∈ pairs := by
  unfold collectMap at h
  suffices ∀ map : List (κ × ν), entry ∈ pairs.foldl (fun map entry => insertMap map entry.1 entry.2) map →
      entry ∈ map ∨ entry ∈ pairs by
    simpa using this [] h
  clear h
  induction pairs with
  | nil => exact fun map h => .inl h
  | cons pair rest ih =>
    intro map hmem
    rcases ih _ hmem with hinserted | hrest
    · rcases mem_insertMap hinserted with hold | rfl
      · exact .inl hold
      · exact .inr (.head _)
    · exact .inr (.tail _ hrest)

theorem keys_nodup_collectMap (pairs : List (κ × ν)) : ((collectMap pairs).map (·.1)).Nodup := by
  unfold collectMap
  suffices ∀ map : List (κ × ν), (map.map (·.1)).Nodup →
      ((pairs.foldl (fun map entry => insertMap map entry.1 entry.2) map).map (·.1)).Nodup from
    this [] List.nodup_nil
  induction pairs with
  | nil => exact fun _ h => h
  | cons entry rest ih => exact fun map h => ih _ (keys_nodup_insertMap h _ _)

/-- Collecting pairs with distinct keys keeps exactly those pairs. -/
theorem mem_collectMap {pairs : List (κ × ν)} (h : (pairs.map (·.1)).Nodup) (k : κ) (v : ν) :
    (k, v) ∈ collectMap pairs ↔ (k, v) ∈ pairs := by
  have hrev : (pairs.reverse.map (·.1)).Nodup := by
    rw [List.map_reverse]
    exact List.nodup_reverse.2 h
  rw [← lookup_eq_some_iff_mem (keys_nodup_collectMap pairs), lookup_collectMap,
    lookup_eq_some_iff_mem hrev, List.mem_reverse]

/-- Collecting pairs with distinct keys reorders nothing away. -/
theorem collectMap_perm {pairs : List (κ × ν)} (h : (pairs.map (·.1)).Nodup) :
    (collectMap pairs).Perm pairs := by
  rw [List.perm_ext_iff_of_nodup ((keys_nodup_collectMap pairs).of_map _) (h.of_map _)]
  intro entry
  exact mem_collectMap h entry.1 entry.2

/-- Changing the values of a map commutes with inserting. -/
theorem insertMap_map_snd {μ : Type} (g : ν → μ) (map : List (κ × ν)) (k : κ) (v : ν) :
    insertMap (map.map fun entry => (entry.1, g entry.2)) k (g v) =
      (insertMap map k v).map fun entry => (entry.1, g entry.2) := by
  induction map with
  | nil => rfl
  | cons entry rest ih =>
    obtain ⟨k', v'⟩ := entry
    by_cases hk : k' = k
    · simp [insertMap, hk]
    · simp [insertMap, hk, ih]

theorem collectMap_map_snd {μ : Type} (g : ν → μ) (pairs : List (κ × ν)) :
    collectMap (pairs.map fun entry => (entry.1, g entry.2)) =
      (collectMap pairs).map fun entry => (entry.1, g entry.2) := by
  unfold collectMap
  suffices ∀ map : List (κ × ν),
      (pairs.map fun entry => (entry.1, g entry.2)).foldl (fun map entry => insertMap map entry.1 entry.2)
          (map.map fun entry => (entry.1, g entry.2)) =
        (pairs.foldl (fun map entry => insertMap map entry.1 entry.2) map).map
          fun entry => (entry.1, g entry.2) from this []
  induction pairs with
  | nil => exact fun _ => rfl
  | cons pair rest ih =>
    intro map
    rw [List.map_cons, List.foldl_cons, List.foldl_cons, insertMap_map_snd, ih]

theorem lookup_map_snd {μ : Type} (g : ν → μ) (map : List (κ × ν)) (k : κ) :
    (map.map fun entry => (entry.1, g entry.2)).lookup k = (map.lookup k).map g := by
  induction map with
  | nil => rfl
  | cons entry rest ih =>
    obtain ⟨k', v⟩ := entry
    by_cases hk : k = k'
    · subst hk
      simp
    · rw [List.map_cons, lookup_cons_ne _ _ hk, lookup_cons_ne _ _ hk, ih]

/-- The values of a collected map whose pairs are keyed by `f` of their value have distinct
`f`. -/
theorem nodup_map_values_collectMap {pairs : List (κ × ν)} {f : ν → κ}
    (h : ∀ pair ∈ pairs, pair.1 = f pair.2) : (((collectMap pairs).map (·.2)).map f).Nodup := by
  rw [List.map_map]
  have hkeys : (collectMap pairs).map (f ∘ (·.2)) = (collectMap pairs).map (·.1) :=
    List.map_congr_left fun pair hpair => (h pair (mem_of_mem_collectMap hpair)).symm
  rw [hkeys]
  exact keys_nodup_collectMap pairs

omit [DecidableEq κ] in
theorem keys_filterMap_sublist {μ : Type} {g : κ × ν → Option (κ × μ)}
    (hg : ∀ p q, g p = some q → q.1 = p.1) (pairs : List (κ × ν)) :
    ((pairs.filterMap g).map (·.1)).Sublist (pairs.map (·.1)) := by
  induction pairs with
  | nil => simp
  | cons p rest ih =>
    cases hp : g p with
    | none => simpa [List.filterMap_cons, hp] using ih.cons p.1
    | some q => simpa [List.filterMap_cons, hp, hg p q hp] using ih.cons_cons p.1

/-- A loop that pushes the `some` results of `f` onto a vector computes `filterMap f`. -/
theorem foldl_push_eq_filterMap {α β : Type} (f : α → Option β) (xs : List α) (acc : List β) :
    xs.foldl (fun acc x => acc ++ (f x).toList) acc = acc ++ xs.filterMap f := by
  induction xs generalizing acc with
  | nil => simp
  | cons x rest ih =>
    rw [List.foldl_cons, ih, List.filterMap_cons]
    cases f x <;> simp

/-- `mapM` in `Option` of a function that succeeds on every item. -/
theorem mapM_map_eq_some {α β γ : Type} (f : β → Option γ) (h : α → β) (g : α → γ)
    (xs : List α) (hf : ∀ x ∈ xs, f (h x) = some (g x)) : (xs.map h).mapM f = some (xs.map g) := by
  induction xs with
  | nil => rfl
  | cons x rest ih =>
    rw [List.map_cons, List.mapM_cons, hf x (.head _), ih fun y hy => hf y (.tail _ hy)]
    rfl

/-! ## Per-key views

A map read at one key: the entries of that key. A fold whose every step touches only the key
of its item is, at every key, the fold of that key's items alone. -/

theorem lookup_filter_self (map : List (κ × ν)) (k : κ) :
    (map.filter (·.1 == k)).lookup k = map.lookup k := by
  induction map with
  | nil => rfl
  | cons entry rest ih =>
    obtain ⟨k', v'⟩ := entry
    by_cases hk : k' = k
    · subst hk
      simp
    · rw [List.filter_cons_of_neg (by simpa using hk), ih, lookup_cons_ne rest v' (Ne.symm hk)]

/-- `retain` with `key != k`: the map without the key `k`. -/
theorem lookup_filter_ne (map : List (κ × ν)) (k k' : κ) :
    (map.filter (·.1 != k)).lookup k' = if k' = k then none else map.lookup k' := by
  induction map with
  | nil => simp
  | cons entry rest ih =>
    obtain ⟨k'', v'⟩ := entry
    by_cases hk : k'' = k
    · subst hk
      rw [List.filter_cons_of_neg (by simp), ih]
      split
      · rfl
      · next hne => rw [lookup_cons_ne rest v' hne]
    · rw [List.filter_cons_of_pos (by simpa using hk)]
      by_cases hk' : k' = k''
      · subst hk'
        simp [hk]
      · rw [lookup_cons_ne _ v' hk', lookup_cons_ne rest v' hk', ih]

theorem filter_insertMap_self (map : List (κ × ν)) (k : κ) (v : ν) :
    (insertMap map k v).filter (·.1 == k) = insertMap (map.filter (·.1 == k)) k v := by
  induction map with
  | nil => simp [insertMap]
  | cons entry rest ih =>
    obtain ⟨k', v'⟩ := entry
    by_cases hk : k' = k
    · subst hk
      simp [insertMap]
    · simp [insertMap, hk, ih]

theorem filter_insertMap_ne (map : List (κ × ν)) {k k' : κ} (v : ν) (hne : k' ≠ k) :
    (insertMap map k v).filter (·.1 == k') = map.filter (·.1 == k') := by
  induction map with
  | nil => simp [insertMap, Ne.symm hne]
  | cons entry rest ih =>
    obtain ⟨k'', v'⟩ := entry
    by_cases hk : k'' = k
    · subst hk
      simp [insertMap, Ne.symm hne]
    · simp only [insertMap, hk, if_false]
      rw [List.filter_cons, List.filter_cons, ih]

/-- Two lists with the same entries at every key are permutations of each other. -/
theorem perm_of_filter_key_eq [DecidableEq ν] {l₁ l₂ : List (κ × ν)}
    (h : ∀ k, l₁.filter (·.1 == k) = l₂.filter (·.1 == k)) : l₁.Perm l₂ := by
  rw [List.perm_iff_count]
  intro entry
  have hcount : ∀ l : List (κ × ν), l.count entry = (l.filter (·.1 == entry.1)).count entry :=
    fun l => (List.count_filter (by simp)).symm
  rw [hcount l₁, hcount l₂, h entry.1]

/-- One round of `groupByKey`. -/
def groupStep (map : List (κ × List ν)) (entry : κ × ν) : List (κ × List ν) :=
  match map.lookup entry.1 with
  | some vs => insertMap map entry.1 (vs ++ [entry.2])
  | none => map ++ [(entry.1, [entry.2])]

theorem groupByKey_eq_foldl (pairs : List (κ × ν)) : groupByKey pairs = pairs.foldl groupStep [] :=
  rfl

theorem lookup_groupStep (map : List (κ × List ν)) (entry : κ × ν) (k : κ) :
    (groupStep map entry).lookup k =
      if k = entry.1 then some ((map.lookup k).getD [] ++ [entry.2]) else map.lookup k := by
  unfold groupStep
  split
  · next vs hvs =>
    rw [lookup_insertMap]
    split
    · next hk => rw [hk, hvs, Option.getD_some]
    · rfl
  · next hnone =>
    rw [List.lookup_append]
    split
    · next hk => simp [hk, hnone]
    · next hk => simp [lookup_cons_ne [] [entry.2] hk]

theorem keys_nodup_groupStep {map : List (κ × List ν)} (h : (map.map (·.1)).Nodup)
    (entry : κ × ν) : ((groupStep map entry).map (·.1)).Nodup := by
  unfold groupStep
  split
  · exact keys_nodup_insertMap h _ _
  · next hnone =>
    have hfresh : entry.1 ∉ map.map (·.1) := by
      rw [← lookup_isSome_iff_mem_keys, hnone]
      simp
    rw [List.map_append, List.nodup_append]
    refine ⟨h, by simp, ?_⟩
    intro a ha b hb
    rw [List.map_singleton, List.mem_singleton] at hb
    exact fun hab => hfresh (hb ▸ hab ▸ ha)

/-- Grouping onto a map: a key's values are those the map had, then its values in the pairs. -/
theorem lookup_foldl_groupStep (pairs : List (κ × ν)) (map : List (κ × List ν)) (k : κ) :
    (pairs.foldl groupStep map).lookup k =
      if (map.lookup k).isSome || pairs.any (·.1 == k) then
        some ((map.lookup k).getD [] ++ (pairs.filter (·.1 == k)).map (·.2))
      else none := by
  induction pairs generalizing map with
  | nil =>
    cases h : map.lookup k <;> simp [h]
  | cons entry rest ih =>
    rw [List.foldl_cons, ih, lookup_groupStep]
    by_cases hk : k = entry.1
    · subst hk
      simp
    · have hne : (entry.1 == k) = false := beq_false_of_ne (Ne.symm hk)
      simp only [hk, if_false, List.any_cons, hne, Bool.false_or, List.filter_cons, Bool.false_eq_true]

theorem lookup_groupByKey (pairs : List (κ × ν)) (k : κ) :
    (groupByKey pairs).lookup k =
      if pairs.any (·.1 == k) then some ((pairs.filter (·.1 == k)).map (·.2)) else none := by
  rw [groupByKey_eq_foldl, lookup_foldl_groupStep]
  simp only [List.lookup_nil, Option.isSome_none, Bool.false_or, Option.getD_none, List.nil_append]

theorem keys_nodup_groupByKey (pairs : List (κ × ν)) : ((groupByKey pairs).map (·.1)).Nodup := by
  rw [groupByKey_eq_foldl]
  suffices ∀ map : List (κ × List ν), (map.map (·.1)).Nodup →
      ((pairs.foldl groupStep map).map (·.1)).Nodup from this [] List.nodup_nil
  induction pairs with
  | nil => exact fun _ h => h
  | cons entry rest ih => exact fun map h => ih _ (keys_nodup_groupStep h entry)

/-- A group is the values of its key, in the order of the pairs. -/
theorem mem_groupByKey (pairs : List (κ × ν)) (k : κ) (vs : List ν) :
    (k, vs) ∈ groupByKey pairs ↔
      pairs.any (·.1 == k) ∧ vs = (pairs.filter (·.1 == k)).map (·.2) := by
  rw [← lookup_eq_some_iff_mem (keys_nodup_groupByKey pairs), lookup_groupByKey]
  split
  · next hany => simp only [hany, Option.some.injEq, true_and, eq_comm]
  · next hany => simp only [hany, reduceCtorEq, Bool.false_eq_true, false_and]

/-- A fold in `Option` whose step on an item reads and writes only the view at the item's key:
the view of the result at each key is the fold of that key's items from the view before. -/
theorem foldlM_keyed {α σ τ : Type} (step : σ → α → Option σ) (key : α → κ)
    (view : σ → κ → τ) (stepAt : τ → α → Option τ)
    (items : List α)
    (hstep : ∀ s, ∀ a ∈ items, ∀ t, stepAt (view s (key a)) a = some t →
      ∃ s', step s a = some s' ∧ view s' (key a) = t ∧ ∀ k, k ≠ key a → view s' k = view s k)
    (s : σ) (goal : κ → τ)
    (hgoal : ∀ k, (items.filter (key · == k)).foldlM stepAt (view s k) = some (goal k)) :
    ∃ s', items.foldlM step s = some s' ∧ ∀ k, view s' k = goal k := by
  induction items generalizing s with
  | nil => exact ⟨s, rfl, fun k => by simpa using hgoal k⟩
  | cons a rest ih =>
    -- The item's own key: its step succeeds, and the rest of that key's items follow.
    obtain ⟨t, ht, hrest⟩ : ∃ t, stepAt (view s (key a)) a = some t ∧
        (rest.filter (key · == key a)).foldlM stepAt t = some (goal (key a)) := by
      have h := hgoal (key a)
      rw [List.filter_cons_of_pos (by simp), List.foldlM_cons] at h
      cases hstepAt : stepAt (view s (key a)) a with
      | none => simp [hstepAt] at h
      | some t => exact ⟨t, rfl, by simpa [hstepAt] using h⟩
    obtain ⟨s', hs', hat, hother⟩ := hstep s a (.head _) t ht
    obtain ⟨s'', hfold, hview⟩ := ih (fun s b hb => hstep s b (.tail _ hb)) s' fun k => by
      by_cases hk : k = key a
      · subst hk
        rw [hat]
        exact hrest
      · have h := hgoal k
        rw [List.filter_cons_of_neg (by simpa using Ne.symm hk)] at h
        rw [hother k hk]
        exact h
    exact ⟨s'', by rw [List.foldlM_cons, hs']; exact hfold, hview⟩

end Library

