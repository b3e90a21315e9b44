import Mathlib.Data.Nat.Digits.Lemmas
import Mathlib.Data.List.TakeWhile

/-! Base58 in the Bitcoin alphabet: a string is a number in base 58, most significant digit
first, and each leading `1` stands for one zero byte. -/
namespace Library.Base58

def alphabet : List Char := "123456789ABCDEFGHJKLMNPQRSTUVWXYZabcdefghijkmnopqrstuvwxyz".toList

def digit? (c : Char) : Option Nat := alphabet.idxOf? c

def value (digits : List Nat) : Nat := digits.foldl (fun n d => n * 58 + d) 0

/-- The big-endian bytes of a number, none for zero. -/
def bytesOf (n : Nat) : List UInt8 := (Nat.digits 256 n).reverse.map Nat.toUInt8

def decode (s : String) : Option (List UInt8) := do
  let digits ← s.toList.mapM digit?
  pure (List.replicate (digits.takeWhile (· == 0)).length 0 ++ bytesOf (value digits))

/-- The big-endian value of bytes. -/
def bytesValue (bytes : List UInt8) : Nat := (bytes.map UInt8.toNat).foldl (fun n d => n * 256 + d) 0

/-- Base58 of bytes, as the `bs58` crate writes it: a `1` for each leading zero byte, then the
digits of the bytes' value. -/
def encode (bytes : List UInt8) : String :=
  String.ofList (List.replicate (bytes.takeWhile (· == 0)).length '1' ++
    (Nat.digits 58 (bytesValue bytes)).reverse.map fun d => alphabet.getD d '1')

theorem alphabet_length : alphabet.length = 58 := by decide +kernel

theorem digit?_getElem : ∀ i : Fin 58, ∀ h : i.val < alphabet.length,
    digit? alphabet[i.val] = some i.val := by
  decide +kernel

theorem bytesOf_of_lt {n : Nat} (hpos : 0 < n) (hlt : n < 256) : bytesOf n = [n.toUInt8] := by
  simp [bytesOf, Nat.digits_of_lt 256 n (Nat.pos_iff_ne_zero.mp hpos) hlt]

/-- One character decodes to the single byte of its digit, unless it is the zero digit. -/
theorem decode_singleton {i : Nat} {c : Char} (hc : alphabet[i]? = some c) (hpos : 0 < i) :
    decode (String.singleton c) = some [i.toUInt8] := by
  obtain ⟨hi, rfl⟩ := List.getElem?_eq_some_iff.mp hc
  have hdigit := digit?_getElem ⟨i, alphabet_length ▸ hi⟩ hi
  have hsmall : i < 256 := by
    rw [alphabet_length] at hi
    omega
  have hne : (i == 0) = false := by simpa using Nat.pos_iff_ne_zero.mp hpos
  simp [decode, hdigit, value, hne, bytesOf_of_lt hpos hsmall]

/-- Folding digits most significant first computes their value. -/
theorem foldl_mul_add_eq_ofDigits (b : Nat) (digits : List Nat) (acc : Nat) :
    digits.foldl (fun n d => n * b + d) acc = acc * b ^ digits.length + Nat.ofDigits b digits.reverse := by
  induction digits generalizing acc with
  | nil => simp
  | cons d digits ih =>
    rw [List.foldl_cons, ih, List.reverse_cons, Nat.ofDigits_append, List.length_reverse,
      Nat.ofDigits_singleton, List.length_cons, pow_succ]
    ring

/-- Leading zero digits add nothing to the value. -/
theorem foldl_replicate_zero (b z : Nat) (digits : List Nat) :
    (List.replicate z 0 ++ digits).foldl (fun n d => n * b + d) 0 =
      digits.foldl (fun n d => n * b + d) 0 := by
  simp only [foldl_mul_add_eq_ofDigits, zero_mul, zero_add, List.reverse_append,
    List.reverse_replicate, Nat.ofDigits_append, Nat.ofDigits_replicate_zero, mul_zero, add_zero]

/-- The digits of a number, most significant first, do not start with zero. -/
theorem takeWhile_digits_reverse (b n : Nat) : (Nat.digits b n).reverse.takeWhile (· == 0) = [] := by
  cases hreverse : (Nat.digits b n).reverse with
  | nil => rfl
  | cons d rest =>
    have hne : (Nat.digits b n).reverse ≠ [] := by simp [hreverse]
    have hn : n ≠ 0 := by
      rintro rfl
      simp at hreverse
    have hd : d = (Nat.digits b n).getLast (by simpa using hne) := by
      rw [← List.head_reverse hne]
      simp [hreverse]
    have hpos : d ≠ 0 := hd ▸ Nat.getLast_digit_ne_zero b hn
    simp [hpos]

theorem digit?_one : digit? '1' = some 0 := by decide

theorem digit?_getD {d : Nat} (hd : d < 58) : digit? (alphabet.getD d '1') = some d := by
  rw [List.getD_eq_getElem?_getD, List.getElem?_eq_getElem (alphabet_length ▸ hd), Option.getD_some]
  exact digit?_getElem ⟨d, hd⟩ _

theorem mapM_digit?_replicate (z : Nat) : (List.replicate z '1').mapM digit? = some (List.replicate z 0) := by
  induction z with
  | zero => rfl
  | succ z ih => simp [List.replicate_succ, digit?_one, ih]

theorem mapM_digit?_map {digits : List Nat} (hdigits : ∀ d ∈ digits, d < 58) :
    (digits.map fun d => alphabet.getD d '1').mapM digit? = some digits := by
  induction digits with
  | nil => rfl
  | cons d digits ih =>
    simp only [List.map_cons, List.mapM_cons, digit?_getD (hdigits d (by simp)),
      ih fun d' hd' => hdigits d' (List.mem_cons_of_mem _ hd')]
    rfl

/-- Leading zero bytes are zeros. -/
theorem exists_takeWhile_eq_replicate (bytes : List UInt8) :
    ∃ z, bytes.takeWhile (· == 0) = List.replicate z 0 :=
  ⟨_, List.eq_replicate_iff.mpr ⟨rfl, fun b hb => by simpa using List.mem_takeWhile_imp hb⟩⟩

theorem bytesValue_dropWhile (bytes : List UInt8) :
    bytesValue (bytes.dropWhile (· == 0)) = bytesValue bytes := by
  obtain ⟨z, hz⟩ := exists_takeWhile_eq_replicate bytes
  conv_rhs => rw [← List.takeWhile_append_dropWhile (p := (· == 0)) (l := bytes), hz]
  simp only [bytesValue, List.map_append, List.map_replicate, UInt8.toNat_zero, foldl_replicate_zero]

/-- The bytes of the value of bytes are the bytes after their leading zeros. -/
theorem bytesOf_bytesValue (bytes : List UInt8) :
    bytesOf (bytesValue bytes) = bytes.dropWhile (· == 0) := by
  rw [← bytesValue_dropWhile]
  have hhead := List.head_dropWhile_not (· == (0 : UInt8)) (l := bytes)
  generalize bytes.dropWhile (· == 0) = rest at hhead
  -- The value's base-256 digits are the bytes, least significant first, the last one not zero.
  have hdigits : Nat.digits 256 (Nat.ofDigits 256 (rest.map UInt8.toNat).reverse) =
      (rest.map UInt8.toNat).reverse := by
    apply Nat.digits_ofDigits 256 (by norm_num)
    · intro d hd
      obtain ⟨b, _, rfl⟩ := List.mem_map.mp (List.mem_reverse.mp hd)
      exact UInt8.toNat_lt b
    · intro hne
      rw [List.getLast_reverse, List.head_map]
      have hrest : rest ≠ [] := by simpa using hne
      have hnonzero : rest.head hrest ≠ 0 := by simpa using hhead hrest
      intro hzero
      exact hnonzero (UInt8.toNat_inj.mp hzero)
  rw [bytesValue, foldl_mul_add_eq_ofDigits, zero_mul, zero_add, bytesOf, hdigits,
    List.reverse_reverse, List.map_map]
  simp [Function.comp_def, UInt8.ofNat_toNat]

/-- Base58 decoding inverts encoding. -/
theorem decode_encode (bytes : List UInt8) : decode (encode bytes) = some bytes := by
  obtain ⟨z, hz⟩ := exists_takeWhile_eq_replicate bytes
  have hdigits : ∀ d ∈ (Nat.digits 58 (bytesValue bytes)).reverse, d < 58 := fun d hd =>
    Nat.digits_lt_base (by norm_num) (List.mem_reverse.mp hd)
  have hmapM : (encode bytes).toList.mapM digit? =
      some (List.replicate z 0 ++ (Nat.digits 58 (bytesValue bytes)).reverse) := by
    rw [encode, String.toList_ofList, List.mapM_append, hz, List.length_replicate,
      mapM_digit?_replicate, mapM_digit?_map hdigits]
    rfl
  have htake : (List.replicate z 0 ++ (Nat.digits 58 (bytesValue bytes)).reverse).takeWhile (· == 0) =
      List.replicate z 0 := by
    simp [takeWhile_digits_reverse]
  have hvalue : value (List.replicate z 0 ++ (Nat.digits 58 (bytesValue bytes)).reverse) =
      bytesValue bytes := by
    rw [value, foldl_replicate_zero, foldl_mul_add_eq_ofDigits, List.reverse_reverse, zero_mul,
      zero_add, Nat.ofDigits_digits]
  simp only [decode, hmapM, Option.pure_def, Option.bind_eq_bind, Option.bind_some, htake, hvalue,
    List.length_replicate, bytesOf_bytesValue]
  rw [← hz, List.takeWhile_append_dropWhile]

end Library.Base58
