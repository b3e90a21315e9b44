import Mathlib.Logic.Basic
import Mathlib.Data.List.Induction
import Mathlib.Order.Defs.PartialOrder

/-! Labelled transition systems. A run records the labels of its steps in order;
the invariant rules below are the only induction the protocol and queue models
need, so each safety proof there is one step lemma and one application. -/
namespace Library

variable {σ ι : Type}

/-- `Run step s ls t`: starting in `s`, the steps labelled `ls` lead to `t`. -/
inductive Run (step : σ → ι → σ → Prop) : σ → List ι → σ → Prop where
  | nil (s : σ) : Run step s [] s
  | snoc {s t u : σ} {ls : List ι} {l : ι} :
      Run step s ls t → step t l u → Run step s (ls ++ [l]) u

/-- A state is reachable when some run leads to it from the initial state. -/
def Reachable (step : σ → ι → σ → Prop) (init : σ) (s : σ) : Prop :=
  ∃ ls, Run step init ls s

variable {step : σ → ι → σ → Prop}

theorem Run.single {s t : σ} {l : ι} (h : step s l t) : Run step s [l] t := by
  simpa using Run.snoc (Run.nil s) h

theorem Run.append {s t u : σ} {ls ms : List ι}
    (first : Run step s ls t) (second : Run step t ms u) : Run step s (ls ++ ms) u := by
  induction second with
  | nil => simpa using first
  | snoc _ hstep ih =>
    rw [← List.append_assoc]
    exact Run.snoc ih hstep

theorem Run.cons {s t u : σ} {l : ι} {ls : List ι}
    (hstep : step s l t) (rest : Run step t ls u) : Run step s (l :: ls) u := by
  simpa using (Run.single hstep).append rest

/-- The last step of a non-empty run. -/
theorem Run.snoc_inv {s u : σ} {ls : List ι} {l : ι} (h : Run step s (ls ++ [l]) u) :
    ∃ t, Run step s ls t ∧ step t l u := by
  generalize hks : ls ++ [l] = ks at h
  cases h with
  | nil => simp at hks
  | snoc run hstep =>
    obtain ⟨rfl, hl⟩ := List.append_inj' hks.symm rfl
    obtain rfl : l = _ := by simpa using hl.symm
    exact ⟨_, run, hstep⟩

theorem Run.nil_inv {s u : σ} (h : Run step s ([] : List ι) u) : s = u := by
  generalize hks : ([] : List ι) = ks at h
  cases h with
  | nil => rfl
  | snoc _ _ => simp at hks

/-- The first step of a non-empty run. -/
theorem Run.cons_inv {s u : σ} {l : ι} {ls : List ι} (h : Run step s (l :: ls) u) :
    ∃ t, step s l t ∧ Run step t ls u := by
  induction ls using List.reverseRecOn generalizing u with
  | nil =>
    obtain ⟨t, run, hstep⟩ := @Run.snoc_inv σ ι step s u [] l h
    obtain rfl := run.nil_inv
    exact ⟨u, hstep, Run.nil u⟩
  | append_singleton ls l' ih =>
    rw [← List.cons_append] at h
    obtain ⟨t, run, hstep⟩ := h.snoc_inv
    obtain ⟨m, first, rest⟩ := ih run
    exact ⟨m, first, Run.snoc rest hstep⟩

/-- A run over a concatenation passes through an intermediate state. -/
theorem Run.split {s u : σ} {ls : List ι} :
    ∀ {ms : List ι}, Run step s (ls ++ ms) u → ∃ t, Run step s ls t ∧ Run step t ms u := by
  intro ms
  induction ms using List.reverseRecOn generalizing u with
  | nil => intro h; exact ⟨u, by simpa using h, Run.nil u⟩
  | append_singleton ms l ih =>
    intro h
    rw [← List.append_assoc] at h
    obtain ⟨t, run, hstep⟩ := h.snoc_inv
    obtain ⟨m, first, second⟩ := ih run
    exact ⟨m, first, Run.snoc second hstep⟩

/-- An invariant of every step holds at the end of every run that starts in it. -/
theorem Run.invariant (inv : σ → Prop) (preserved : ∀ s l t, inv s → step s l t → inv t)
    {s t : σ} {ls : List ι} (run : Run step s ls t) (start : inv s) : inv t := by
  induction run with
  | nil => exact start
  | snoc _ hstep ih => exact preserved _ _ _ ih hstep

/-- An invariant of the labels so far and the state, kept by every step with its label. -/
theorem Run.invariant_with_history (inv : List ι → σ → Prop)
    (preserved : ∀ ls s l t, inv ls s → step s l t → inv (ls ++ [l]) t)
    {s t : σ} {ls : List ι} (run : Run step s ls t) (start : inv [] s) : inv ls t := by
  induction run with
  | nil => exact start
  | snoc _ hstep ih => exact preserved _ _ _ _ ih hstep

/-- A property kept by every step whose label passes `allowed` survives a run made
only of such steps. -/
theorem Run.preserved_by (inv : σ → Prop) (allowed : ι → Prop)
    (preserved : ∀ s l t, allowed l → inv s → step s l t → inv t)
    {s t : σ} {ls : List ι} (run : Run step s ls t) (hls : ∀ l ∈ ls, allowed l)
    (start : inv s) : inv t := by
  induction run with
  | nil => exact start
  | snoc _ hstep ih =>
    refine preserved _ _ _ (hls _ (by simp)) (ih fun l hl => hls l (by simp [hl])) hstep

/-- A fact about the label of a step that the step makes true and every later step keeps
holds at the end of a run of allowed steps for each of its labels, next to an invariant. -/
theorem Run.preserved_with_labels (inv : σ → Prop) (fact : ι → σ → Prop) (allowed : ι → Prop)
    (preserved : ∀ s l t, allowed l → inv s → step s l t → inv t)
    (establish : ∀ s l t, allowed l → inv s → step s l t → fact l t)
    (keep : ∀ k s l t, allowed l → inv s → fact k s → step s l t → fact k t)
    {s t : σ} {ls : List ι} (run : Run step s ls t) (hls : ∀ l ∈ ls, allowed l)
    (start : inv s) : inv t ∧ ∀ l ∈ ls, fact l t := by
  induction run with
  | nil => exact ⟨start, by simp⟩
  | @snoc _ _ _ l _ hstep ih =>
    have hallowed := hls l (by simp)
    obtain ⟨hinv, hfacts⟩ := ih fun l hl => hls l (by simp [hl])
    refine ⟨preserved _ _ _ hallowed hinv hstep, fun k hk => ?_⟩
    rcases List.mem_append.mp hk with hk | hk
    · exact keep k _ _ _ hallowed hinv (hfacts k hk) hstep
    · rw [List.mem_singleton.mp hk]
      exact establish _ _ _ hallowed hinv hstep

/-- A measure that no step lowers does not go down along a run. -/
theorem Run.monotone {α : Type} [Preorder α] (f : σ → α) (mono : ∀ s l t, step s l t → f s ≤ f t)
    {s t : σ} {ls : List ι} (run : Run step s ls t) : f s ≤ f t := by
  induction run with
  | nil => exact le_refl _
  | snoc _ hstep ih => exact le_trans ih (mono _ _ _ hstep)

theorem Reachable.init (init : σ) : Reachable step init init := ⟨[], Run.nil init⟩

theorem Reachable.tail {init s t : σ} {l : ι} (h : Reachable step init s)
    (hstep : step s l t) : Reachable step init t := by
  obtain ⟨ls, run⟩ := h
  exact ⟨ls ++ [l], Run.snoc run hstep⟩

theorem Reachable.invariant (inv : σ → Prop) (preserved : ∀ s l t, inv s → step s l t → inv t)
    {init s : σ} (h : Reachable step init s) (start : inv init) : inv s := by
  obtain ⟨ls, run⟩ := h
  exact run.invariant inv preserved start

/-- `ValidFrom next valid s ls`: each label of `ls` is valid in the state that `next` reaches
from `s` over the labels before it. -/
def ValidFrom (next : σ → ι → σ) (valid : σ → ι → Prop) : σ → List ι → Prop
  | _, [] => True
  | s, l :: ls => valid s l ∧ ValidFrom next valid (next s l) ls

section ValidFrom

variable {next : σ → ι → σ} {valid : σ → ι → Prop}

theorem validFrom_append {s : σ} {ls ms : List ι} :
    ValidFrom next valid s (ls ++ ms) ↔
      ValidFrom next valid s ls ∧ ValidFrom next valid (ls.foldl next s) ms := by
  induction ls generalizing s with
  | nil => simp [ValidFrom]
  | cons l ls ih => simp [ValidFrom, ih, and_assoc]

theorem ValidFrom.snoc {s : σ} {ls : List ι} {l : ι} (h : ValidFrom next valid s ls)
    (hl : valid (ls.foldl next s) l) : ValidFrom next valid s (ls ++ [l]) :=
  validFrom_append.mpr ⟨h, hl, trivial⟩

/-- Labels that `next` leaves in place do not change where the labels lead. -/
theorem foldl_filter_of_neutral {p : ι → Bool} (hneutral : ∀ s l, p l = false → next s l = s) :
    ∀ (s : σ) (ls : List ι), (ls.filter p).foldl next s = ls.foldl next s
  | _, [] => rfl
  | s, l :: ls => by
    cases hl : p l with
    | false =>
      rw [List.filter_cons_of_neg (by simp [hl]), List.foldl_cons, hneutral s l hl]
      exact foldl_filter_of_neutral hneutral s ls
    | true =>
      rw [List.filter_cons_of_pos hl, List.foldl_cons, List.foldl_cons]
      exact foldl_filter_of_neutral hneutral _ ls

/-- Labels that `next` leaves in place and `valid` always allows may stand anywhere among
valid labels. -/
theorem ValidFrom.of_filter {p : ι → Bool}
    (hneutral : ∀ s l, p l = false → next s l = s ∧ valid s l) :
    ∀ {s : σ} {ls : List ι}, ValidFrom next valid s (ls.filter p) → ValidFrom next valid s ls
  | _, [], _ => trivial
  | s, l :: ls, h => by
    cases hl : p l with
    | false =>
      rw [List.filter_cons_of_neg (by simp [hl])] at h
      obtain ⟨hstay, hvalid⟩ := hneutral s l hl
      refine ⟨hvalid, ?_⟩
      rw [hstay]
      exact ValidFrom.of_filter hneutral h
    | true =>
      rw [List.filter_cons_of_pos hl] at h
      exact ⟨h.1, ValidFrom.of_filter hneutral h.2⟩

/-- The label at `i` is valid in the state the labels before it reach. -/
theorem ValidFrom.getElem {s : σ} {ls : List ι} (h : ValidFrom next valid s ls) {i : Nat}
    (hi : i < ls.length) : valid ((ls.take i).foldl next s) ls[i] := by
  rw [← List.take_append_drop i ls, validFrom_append] at h
  have hrest := h.2
  rw [List.drop_eq_getElem_cons hi] at hrest
  exact hrest.1

end ValidFrom

end Library
