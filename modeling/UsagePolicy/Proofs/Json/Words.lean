import Mathlib.Data.List.TakeDrop
import UsagePolicy.Json.Draft
import UsagePolicy.Json.Print

/-! Words of JSON text: numbers and strings are read as they were written. A number that fits a
machine word is short enough for double precision, so it keeps its value, and no character of a
string is half a surrogate pair. -/
namespace UsagePolicy

/-! ### Digits -/

/-- A positive number does not start with a zero. -/
theorem head?_toDigits_ne_zero {n : Nat} (hn : 0 < n) : (Nat.toDigits 10 n).head? ≠ some '0' := by
  induction n using Nat.strongRecOn with
  | ind n ih =>
    rw [Nat.toDigits_eq_if (by decide)]
    split
    next hlt =>
      intro hhead
      have hvalue := congrArg Char.toNat (Option.some.inj hhead)
      rw [Nat.toNat_digitChar_of_lt_ten hlt] at hvalue
      exact Nat.ne_of_gt hn (by simpa using hvalue)
    next hge =>
      have hhead := ih (n / 10) (by omega) (by omega)
      rwa [List.head?_append, List.head?_eq_some_head Nat.toDigits_ne_nil, Option.some_or,
        ← List.head?_eq_some_head]

namespace Decimal

theorem ofDigits_toDigits (n : Nat) : ofDigits (Nat.toDigits 10 n) = n :=
  Nat.ofDigitChars_ten_toDigits

/-- All digits are appended as long as the whole number is a word. -/
theorem append_eq {cs : List Char} {n : Nat} (h : Nat.ofDigitChars 10 cs n < Nat.pow 2 64) :
    append n cs = (Nat.ofDigitChars 10 cs n, 0) := by
  induction cs generalizing n with
  | nil => rfl
  | cons c cs ih =>
    rw [Nat.ofDigitChars_cons] at h ⊢
    have hnext : 10 * n + digit c < Nat.pow 2 64 := by
      rw [Nat.ofDigitChars_eq_ofDigitChars_zero] at h
      have hpower : 0 < 10 ^ cs.length := Nat.pow_pos (by decide)
      have hle := Nat.le_mul_of_pos_left (10 * n + digit c) hpower
      exact Nat.lt_of_le_of_lt (Nat.le_add_right_of_le hle) h
    rw [append, if_pos hnext]
    exact ih h

theorem condensed_toDigits {n : Nat} (h : n < Nat.pow 2 64) :
    condensed (Nat.toDigits 10 n) [] = { digits := n, exponent := 0 } := by
  have hvalue : Nat.ofDigitChars 10 (Nat.toDigits 10 n) 0 = n := Nat.ofDigitChars_ten_toDigits
  have happend : append 0 (Nat.toDigits 10 n) = (n, 0) := by
    rw [append_eq (by rwa [hvalue]), hvalue]
  simp [condensed, happend, append]

/-- Rounding adds one unit at most, and a unit is not larger than the number. -/
theorem nearest_le {n : Nat} (hn : n ≠ 0) : nearest n ≤ 2 * n := by
  have hunit : Nat.pow 2 (n.log2 - 52) ≤ n :=
    Nat.le_trans (Nat.pow_le_pow_right Nat.two_pos (Nat.sub_le _ _)) (Nat.log2_self_le hn)
  simp only [nearest]
  generalize Nat.pow 2 (n.log2 - 52) = unit at hunit
  have hquotient : n / unit * unit ≤ n := Nat.div_mul_le_self n unit
  split
  next => rw [Nat.add_mul, Nat.one_mul]; omega
  next => omega

theorem isFiniteProduct_of_word {n : Nat} (h : n < Nat.pow 2 64) :
    isFiniteProduct { digits := n, exponent := 0 } = true := by
  by_cases hn : n = 0
  · simp [isFiniteProduct, hn]
  · have hone : nearest (Nat.pow 10 (Int.toNat 0)) = 1 := by decide
    have hbound : 2 * Nat.pow 2 64 < overflow := by decide +kernel
    have hle := nearest_le hn
    simp only [isFiniteProduct, hone, Nat.mul_one]
    simp [maxExponent]
    omega

end Decimal

namespace Json.Draft

/-! ### Numbers -/

/-- What follows a value: nothing, space, or a mark that ends an entry or a container. -/
def EndsWord (rest : List Char) : Prop :=
  ∀ c ∈ rest.head?, isSpace c ∨ c = ',' ∨ c = ']' ∨ c = '\x7d'

theorem EndsWord.ne {rest : List Char} (h : EndsWord rest) {c : Char} (hc : c ∈ rest.head?) :
    c.isDigit = false ∧ c ≠ '.' ∧ c ≠ 'e' ∧ c ≠ 'E' := by
  rcases h c hc with hspace | rfl | rfl | rfl
  · simp only [isSpace, Bool.or_eq_true, decide_eq_true_eq] at hspace
    rcases hspace with ((rfl | rfl) | rfl) | rfl <;> decide
  all_goals decide

theorem span_isDigit {ds rest : List Char} (hds : ∀ d ∈ ds, d.isDigit) (hrest : EndsWord rest) :
    (ds ++ rest).span Char.isDigit = (ds, rest) := by
  rw [List.span_eq_takeWhile_dropWhile, List.takeWhile_append_of_pos hds,
    List.dropWhile_append_of_pos hds]
  cases rest with
  | nil => simp
  | cons c rest =>
    have hc := (hrest.ne rfl).1
    simp [hc]

/-- A number below `2 ^ 64` is read as it was written. -/
theorem number_toDigits {n : Nat} (hn : n < Nat.pow 2 64) {rest : List Char}
    (hrest : EndsWord rest) :
    number (Nat.toDigits 10 n ++ rest) = some (some (.natural n), rest) := by
  have hdigits : ∀ d ∈ Nat.toDigits 10 n, d.isDigit := fun d hd =>
    Nat.isDigit_of_mem_toDigits (by decide) (by decide) hd
  have hspan := span_isDigit hdigits hrest
  have hcondensed := Decimal.condensed_toDigits hn
  have hfits := Decimal.isFiniteProduct_of_word hn
  have hvalue := Decimal.ofDigits_toDigits n
  have hzero : ¬ ((Nat.toDigits 10 n).head? = some '0' ∧ 1 < (Nat.toDigits 10 n).length) := by
    rcases Nat.eq_zero_or_pos n with rfl | hpos
    · simp
    · exact fun h => head?_toDigits_ne_zero hpos h.1
  obtain ⟨d, ds, hds⟩ := List.exists_cons_of_ne_nil (Nat.toDigits_ne_nil (n := n) (b := 10))
  rw [hds] at hdigits hspan hcondensed hvalue hzero ⊢
  have hunsigned : ∀ cs, d :: ds ++ rest ≠ '-' :: cs := by
    rintro cs h
    have hd : d = '-' := (List.cons.inj h).1
    exact absurd (hd ▸ hdigits d List.mem_cons_self) (by decide)
  have hwhole : ((d :: ds).isEmpty ||
      decide ((d :: ds).head? = some '0') && decide ((d :: ds).length > 1)) = false := by
    simpa using hzero
  have hpower : Decimal.ofDigits [] = 0 := rfl
  rw [number]
  · simp only [hspan, hwhole]
    cases rest with
    | nil => simp [hcondensed, hvalue, hfits, hpower]
    | cons c rest =>
      obtain ⟨-, hpoint, he, hE⟩ := hrest.ne rfl
      simp [hpoint, he, hE, hcondensed, hvalue, hfits, hpower]
  · exact hunsigned

/-! ### Strings -/

theorem hex?_control {n : Nat} (hn : n < 0x20) :
    Text.hex? ['0', '0', hexDigit (n / 16), hexDigit (n % 16)] = some n := by
  have hall : ∀ n < 0x20, Text.hex? ['0', '0', hexDigit (n / 16), hexDigit (n % 16)] = some n := by
    decide
  exact hall n hn

/-- An escaped character is read as one code point. -/
theorem codes_escape (read : List Nat) (c : Char) (cs : List Char) :
    codes read (escape c ++ cs) = codes (c.toNat :: read) cs := by
  unfold escape
  split
  next => rfl
  next => rfl
  next => rfl
  next => rfl
  next => rfl
  next hquote hbackslash hn hr ht =>
    split
    next h => rw [h]; rfl
    next =>
      split
      next h => rw [h]; rfl
      next =>
        split
        next h => simp only [List.cons_append, List.nil_append, codes, hex?_control h]
        next h =>
          rw [List.singleton_append, codes]
          · simp [show c ≠ '\\' from hbackslash, h]
          all_goals grind

theorem codes_flatMap_escape (read : List Nat) (cs rest : List Char) :
    codes read (cs.flatMap escape ++ '"' :: rest) =
      some (read.reverse ++ cs.map Char.toNat, rest) := by
  induction cs generalizing read with
  | nil => simp [codes]
  | cons c cs ih => rw [List.flatMap_cons, List.append_assoc, codes_escape, ih]; simp

/-- No character is half a surrogate pair. -/
theorem toNat_not_surrogate (c : Char) : ¬ (0xD800 ≤ c.toNat ∧ c.toNat < 0xE000) := by
  have hvalid : c.toNat < 0xD800 ∨ 0xDFFF < c.toNat ∧ c.toNat < 0x110000 := c.valid
  omega

theorem characters?_map_toNat (read cs : List Char) :
    characters? read (cs.map Char.toNat) = some (read.reverse ++ cs) := by
  induction cs generalizing read with
  | nil => simp [characters?]
  | cons c cs ih =>
    have hc := toNat_not_surrogate c
    cases cs with
    | nil => simp [characters?, hc]
    | cons c' cs =>
      have hpair : ¬ (((0xD800 ≤ c.toNat ∧ c.toNat < 0xDC00) ∧ 0xDC00 ≤ c'.toNat) ∧
          c'.toNat < 0xE000) := by
        omega
      have hrest := ih (c :: read)
      rw [List.map_cons] at hrest
      simp [characters?, hc, hpair, hrest]

/-- A string is read as it was written. -/
theorem text_escape (s : String) (rest : List Char) :
    text (s.toList.flatMap escape ++ '"' :: rest) = some (some s, rest) := by
  rw [text, codes_flatMap_escape, Option.map_some]
  simp [characters?_map_toNat]

end Json.Draft

end UsagePolicy
