import Mathlib.Data.Nat.Digits.Defs

/-! Text forms of numbers, booleans and separated lists as Rust's standard library writes and
parses them: `i64` and `bool` through `Display` and `FromStr`, and a list joined by a separator
that none of its items contains, split again at that separator. -/
namespace Library.Text

/-- The value of a run of decimal digits, most significant first. -/
def digitsValue (digits : List Char) : Nat :=
  digits.foldl (fun n c => n * 10 + (c.toNat - '0'.toNat)) 0

/-- `u64::from_str` without its bound: a non-empty run of ASCII digits. -/
def parseDigits (digits : List Char) : Option Nat :=
  if digits ≠ [] ∧ digits.all Char.isDigit then some (digitsValue digits) else none

/-- `i64::from_str`: an optional sign, then digits, of a value in range. -/
def parseI64 (text : String) : Option Int :=
  let value : Option Int :=
    match text.toList with
    | '-' :: digits => (parseDigits digits).map fun n => -Int.ofNat n
    | '+' :: digits => (parseDigits digits).map Int.ofNat
    | digits => (parseDigits digits).map Int.ofNat
  value.filter fun v => -2 ^ 63 ≤ v ∧ v < 2 ^ 63

/-- `bool::from_str`. -/
def parseBool : String → Option Bool
  | "true" => some true
  | "false" => some false
  | _ => none

theorem digitsValue_append (xs ys : List Char) :
    digitsValue (xs ++ ys) = ys.foldl (fun n c => n * 10 + (c.toNat - '0'.toNat)) (digitsValue xs) := by
  simp [digitsValue, List.foldl_append]

/-- `Display` of a natural number is its digits, and they read back as the number. -/
theorem digitsValue_toDigits (n : Nat) :
    digitsValue (Nat.toDigits 10 n) = n ∧ ∀ c ∈ Nat.toDigits 10 n, c.isDigit := by
  induction n using Nat.strong_induction_on with
  | _ n ih =>
    by_cases hn : n < 10
    · rw [Nat.toDigits_of_lt_base hn]
      refine ⟨?_, ?_⟩
      · simp [digitsValue, Nat.toNat_digitChar_of_lt_ten hn]
      · simp [Nat.isDigit_digitChar, hn]
    · -- The last digit is split off the rest, which is the digits of `n / 10`.
      have hsplit : Nat.toDigits 10 n = Nat.toDigits 10 (n / 10) ++ [Nat.digitChar (n % 10)] := by
        rw [← Nat.toDigits_of_lt_base (Nat.mod_lt n (by decide)),
          Nat.toDigits_append_toDigits (by decide) (by omega) (Nat.mod_lt n (by decide)),
          Nat.div_add_mod]
      obtain ⟨hvalue, hdigits⟩ := ih (n / 10) (by omega)
      rw [hsplit]
      refine ⟨?_, ?_⟩
      · rw [digitsValue_append, hvalue]
        simp [Nat.toNat_digitChar_of_lt_ten (Nat.mod_lt n (by decide))]
        omega
      · intro c hc
        rcases List.mem_append.mp hc with hc | hc
        · exact hdigits c hc
        · simp [List.mem_singleton.mp hc, Nat.isDigit_digitChar, Nat.mod_lt n (show 10 > 0 by decide)]

theorem parseDigits_toDigits (n : Nat) : parseDigits (Nat.toDigits 10 n) = some n := by
  obtain ⟨hvalue, hdigits⟩ := digitsValue_toDigits n
  unfold parseDigits
  rw [if_pos ⟨Nat.toDigits_ne_nil, List.all_eq_true.mpr hdigits⟩, hvalue]

/-- `i64::from_str` reads back what `Display` writes of an `i64`. -/
theorem parseI64_toString (i : Int) (hlow : -2 ^ 63 ≤ i) (hhigh : i < 2 ^ 63) :
    parseI64 (toString i) = some i := by
  unfold parseI64
  cases i with
  | ofNat m =>
    have hlist : (toString (Int.ofNat m)).toList = Nat.toDigits 10 m := by
      simp [toString, Int.repr, Nat.repr]
    simp only [hlist]
    split
    -- A sign is not a digit, so the digits of `m` start with neither.
    · rename_i digits hdigits
      have hsign := (digitsValue_toDigits m).2 '-' (hdigits ▸ List.mem_cons_self)
      exact absurd hsign (by decide)
    · rename_i digits hdigits
      have hsign := (digitsValue_toDigits m).2 '+' (hdigits ▸ List.mem_cons_self)
      exact absurd hsign (by decide)
    · simp only [parseDigits_toDigits, Option.map_some, Option.filter_some]
      simp only [Int.ofNat_eq_natCast] at hlow hhigh ⊢
      simp only [hlow, hhigh, and_self, decide_true, if_true]
  | negSucc m =>
    have hlist : (toString (Int.negSucc m)).toList = '-' :: Nat.toDigits 10 (m + 1) := by
      simp [toString, Int.repr, Nat.repr]
    simp only [hlist, parseDigits_toDigits, Option.map_some, Option.filter_some]
    have hvalue : -Int.ofNat (m + 1) = Int.negSucc m := rfl
    simp only [hvalue, hlow, hhigh, and_self, decide_true, if_true]

/-- Text joined by a separator that no item contains splits back into the items. -/
theorem splitOn_intercalate (sep : Char) (items : List String)
    (hsep : ∀ item ∈ items, sep ∉ item.toList) (hne : items ≠ []) :
    (((String.singleton sep).intercalate items).toList.splitOn sep).map String.ofList = items := by
  have hlists : ∀ l ∈ items.map String.toList, sep ∉ l := by
    intro l hl
    obtain ⟨item, hitem, rfl⟩ := List.mem_map.mp hl
    exact hsep item hitem
  rw [String.toList_intercalate, String.toList_singleton,
    List.splitOn_intercalate sep hlists (by simpa using hne)]
  simp

/-- A character in neither the separator nor any item is not in the joined text. -/
theorem not_mem_intercalate {c : Char} {sep : String} (hsep : c ∉ sep.toList) :
    ∀ {items : List String}, (∀ item ∈ items, c ∉ item.toList) → c ∉ (sep.intercalate items).toList
  | [], _ => by simp
  | [item], hitems => by simpa using hitems item (by simp)
  | item :: next :: rest, hitems => by
    have hrest := @not_mem_intercalate c sep hsep (next :: rest) fun other hother =>
      hitems other (List.mem_cons_of_mem _ hother)
    rw [String.intercalate_cons_cons, String.toList_append, String.toList_append]
    simp only [List.mem_append, not_or]
    exact ⟨⟨hitems item (by simp), hsep⟩, hrest⟩

/-- `str::as_bytes` read back by `str::from_utf8`. -/
theorem fromUTF8?_toUTF8 (text : String) :
    String.fromUTF8? ⟨text.toUTF8.data.toList.toArray⟩ = some text := by
  simp [String.fromUTF8?, String.fromUTF8, text.isValidUTF8]

theorem parseBool_toString (b : Bool) : parseBool (toString b) = some b := by
  cases b <;> rfl

end Library.Text
