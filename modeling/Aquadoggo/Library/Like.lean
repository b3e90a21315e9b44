import Mathlib.Data.List.Infix

/-! SQL `LIKE` patterns: `%` matches any run of characters, `_` any one character, and every
other character itself, both sides compared after a case folding. The lemmas say when a
pattern means what its text says: a pattern with no wildcard is an equality, and one wrapped
in `%` is a substring test. -/
namespace Library

/-- Does the text match the pattern, comparing characters after `fold`? -/
def likeMatch (fold : Char → Char) : List Char → List Char → Bool
  | [], text => text.isEmpty
  | c :: pattern, text =>
    if c = '%' then text.tails.any (likeMatch fold pattern)
    else
      match text with
      | [] => false
      | t :: rest => (decide (c = '_') || fold c == fold t) && likeMatch fold pattern rest

/-- A character that `LIKE` reads as a wildcard. -/
def IsWildcard (c : Char) : Prop := c = '%' ∨ c = '_'

instance (c : Char) : Decidable (IsWildcard c) := inferInstanceAs (Decidable (_ ∨ _))

section Literal

variable (fold : Char → Char)

theorem likeMatch_cons_literal {c : Char} (hc : ¬ IsWildcard c) (pattern : List Char)
    (t : Char) (rest : List Char) :
    likeMatch fold (c :: pattern) (t :: rest) = (fold c == fold t && likeMatch fold pattern rest) := by
  have hpercent : c ≠ '%' := fun h => hc (.inl h)
  have hunderscore : c ≠ '_' := fun h => hc (.inr h)
  simp [likeMatch, hpercent, hunderscore]

theorem likeMatch_cons_literal_nil {c : Char} (hc : ¬ IsWildcard c) (pattern : List Char) :
    likeMatch fold (c :: pattern) [] = false := by
  have hpercent : c ≠ '%' := fun h => hc (.inl h)
  simp [likeMatch, hpercent]

/-- A pattern without wildcards matches exactly the texts equal to it after folding. -/
theorem likeMatch_literal {pattern : List Char} (hpattern : ∀ c ∈ pattern, ¬ IsWildcard c)
    (text : List Char) : likeMatch fold pattern text = true ↔ pattern.map fold = text.map fold := by
  induction pattern generalizing text with
  | nil => cases text <;> simp [likeMatch]
  | cons c pattern ih =>
    have hc := hpattern c (by simp)
    have hrest : ∀ c ∈ pattern, ¬ IsWildcard c := fun c hmem => hpattern c (by simp [hmem])
    cases text with
    | nil => simp [likeMatch_cons_literal_nil fold hc]
    | cons t rest =>
      rw [likeMatch_cons_literal fold hc]
      simp only [Bool.and_eq_true, beq_iff_eq, ih hrest, List.map_cons, List.cons.injEq]

end Literal

/-- `%` followed by a pattern matches when some suffix of the text matches the pattern. -/
theorem likeMatch_percent (fold : Char → Char) (pattern text : List Char) :
    likeMatch fold ('%' :: pattern) text = true ↔
      ∃ suffix, suffix <:+ text ∧ likeMatch fold pattern suffix = true := by
  simp [likeMatch, List.mem_tails]

end Library
