/-! Decimal numerals, and which of them binary floating point can hold. There are two ways to find
out: to round the number once, or to round its digits and its power of ten and then their product. -/
namespace UsagePolicy

/-- The number `digits * 10 ^ exponent`. -/
structure Decimal where
  digits : Nat
  exponent : Int

namespace Decimal

def digit (c : Char) : Nat := c.toNat - 48

/-- The value of a string of decimal digits. -/
def ofDigits (cs : List Char) : Nat := cs.foldl (fun n c => 10 * n + digit c) 0

/-- The least number that double precision rounds to infinity: half a unit above its largest. -/
def overflow : Nat := Nat.pow 2 1024 - Nat.pow 2 970

/-- Whether the number is below the point where double precision overflows. The count of digits
settles all but the numbers near that point, so that no power of ten gets large. -/
def isFinite (d : Decimal) : Bool :=
  let magnitude := ((toString d.digits).length : Int) + d.exponent
  if d.digits = 0 || magnitude < 300 then true
  else if 320 < magnitude then false
  else d.digits * Nat.pow 10 d.exponent.toNat < overflow * Nat.pow 10 (-d.exponent).toNat

/-! ### Rounding twice -/

/-- Appends digits to a number as long as it stays below `2 ^ 64`. The second part is the number of
digits left over. -/
def append (n : Nat) : List Char → Nat × Nat
  | [] => (n, 0)
  | c :: cs =>
    let next := 10 * n + digit c
    if next < Nat.pow 2 64 then append next cs else (n, cs.length + 1)

/-- The number with some digits before and after the point, cut down to a word: what is left over
before the point counts as zeros, what is left over after it does not count. -/
def condensed (whole fraction : List Char) : Decimal :=
  let (n, zeros) := append 0 whole
  let (n, dropped) := append n fraction
  { digits := n, exponent := (zeros : Int) - (fraction.length - dropped : Nat) }

/-- The nearest number with a significand of 53 bits, the even one of two that are as near. -/
def nearest (n : Nat) : Nat :=
  let unit := Nat.pow 2 (n.log2 - 52)
  let (q, r) := (n / unit, n % unit)
  if unit < 2 * r || (unit = 2 * r && q % 2 = 1) then (q + 1) * unit else q * unit

/-- The largest exponent of a power of ten in double precision. -/
def maxExponent : Nat := 308

/-- Whether the product of the rounded digits and the rounded power of ten is below the point where
double precision overflows. -/
def isFiniteProduct (d : Decimal) : Bool :=
  d.digits = 0 || d.exponent < 0 ||
    (d.exponent ≤ maxExponent && nearest d.digits * nearest (Nat.pow 10 d.exponent.toNat) < overflow)

end Decimal

end UsagePolicy
