import UsagePolicy.Decimal
import UsagePolicy.Json.Basic
import UsagePolicy.Text

/-! Numbers, truth values and dates of TOML. -/
namespace UsagePolicy.Toml

/-! ### Digits -/

/-- Digits of a base, in which single underscores may stand between two digits. -/
def grouped? (isDigit : Char → Bool) : List Char → Option (List Char)
  | [] => none
  | [c] => if isDigit c then some [c] else none
  | c :: '_' :: cs => if isDigit c then (grouped? isDigit cs).map (c :: ·) else none
  | c :: cs => if isDigit c then (grouped? isDigit cs).map (c :: ·) else none

/-- A sign and what follows it. -/
def signed : List Char → Bool × List Char
  | '-' :: cs => (true, cs)
  | '+' :: cs => (false, cs)
  | cs => (false, cs)

/-- Decimal digits without a leading zero. -/
def whole? (cs : List Char) : Option (List Char) :=
  match grouped? Char.isDigit cs with
  | some ('0' :: _ :: _) => none
  | digits => digits

/-! ### Numbers -/

/-- Integers have 64 bits. -/
def integer (negative : Bool) (n : Nat) : Option Json :=
  if negative then
    if n = 0 then some (.ofNat 0)
    else if n ≤ Nat.pow 2 63 then some (.num (.other ("-" ++ toString n)))
    else none
  else if n < Nat.pow 2 63 then some (.ofNat n)
  else none

def radix? (base : Nat) (isDigit : Char → Bool) (cs : List Char) : Option Json := do
  let digits ← grouped? isDigit cs
  integer false (digits.foldl (fun n c => base * n + (Text.hexDigit? c).getD 0) 0)

def isHexDigit (c : Char) : Bool := (Text.hexDigit? c).isSome

def integer? (cs : List Char) : Option Json :=
  match cs with
  | '0' :: 'x' :: cs => radix? 16 isHexDigit cs
  | '0' :: 'o' :: cs => radix? 8 (fun c => '0' ≤ c && c ≤ '7') cs
  | '0' :: 'b' :: cs => radix? 2 (fun c => c = '0' || c = '1') cs
  | cs =>
    let (negative, cs) := signed cs
    (whole? cs).bind fun digits => integer negative (Decimal.ofDigits digits)

/-- The power of ten after an exponent mark. -/
def exponent? (cs : List Char) : Option Int := do
  let (negative, cs) := signed cs
  let digits ← grouped? Char.isDigit cs
  let n : Int := Decimal.ofDigits digits
  return if negative then -n else n

/-- A number with a fraction, an exponent or both. Positive ones have to be finite. -/
def float? (cs : List Char) : Option Json := do
  let literal : Json := .num (.other (String.ofList cs))
  let (negative, cs) := signed cs
  if cs = ['i', 'n', 'f'] || cs = ['n', 'a', 'n'] then return literal
  let isMark (c : Char) : Bool := c = 'e' || c = 'E'
  let (significand, power) ← match cs.span (!isMark ·) with
    | (cs, []) => if cs.contains '.' then some (cs, (0 : Int)) else none
    | (cs, _ :: power) => (exponent? power).map (cs, ·)
  let (whole, fraction) ← match significand.span (· ≠ '.') with
    | (cs, []) => (whole? cs).map (·, [])
    | (cs, _ :: fraction) =>
      (whole? cs).bind fun whole => (grouped? Char.isDigit fraction).map (whole, ·)
  let d : Decimal :=
    { digits := Decimal.ofDigits (whole ++ fraction), exponent := power - fraction.length }
  if negative || d.isFinite then some literal else none

/-! ### Dates and times -/

/-- A number of two digits within bounds, and what follows it. -/
def two? (least most : Nat) : List Char → Option (Nat × List Char)
  | a :: b :: cs =>
    let n := Decimal.ofDigits [a, b]
    if a.isDigit && b.isDigit && least ≤ n && n ≤ most then some (n, cs) else none
  | _ => none

def daysIn (year month : Nat) : Nat :=
  if month = 2 then if year % 4 = 0 && (year % 100 ≠ 0 || year % 400 = 0) then 29 else 28
  else if month = 4 || month = 6 || month = 9 || month = 11 then 30
  else 31

/-- Reads a date. -/
def date? (cs : List Char) : Option (List Char) := do
  let (century, cs) ← two? 0 99 cs
  let (year, cs) ← two? 0 99 cs
  let '-' :: cs := cs | none
  let (month, cs) ← two? 1 12 cs
  let '-' :: cs := cs | none
  let (_, cs) ← two? 1 (daysIn (100 * century + year) month) cs
  return cs

/-- Reads a time of day; a minute may have a leap second. -/
def time? (cs : List Char) : Option (List Char) := do
  let (_, cs) ← two? 0 23 cs
  let ':' :: cs := cs | none
  let (_, cs) ← two? 0 59 cs
  let ':' :: cs := cs | none
  let (_, cs) ← two? 0 60 cs
  match cs with
  | '.' :: cs =>
    let (digits, cs) := cs.span Char.isDigit
    if digits.isEmpty then none else some cs
  | cs => some cs

/-- Whether the text is a distance from universal time. -/
def isOffset : List Char → Bool
  | [c] => c = 'Z' || c = 'z'
  | sign :: cs =>
    (sign = '+' || sign = '-') &&
      match two? 0 23 cs with
      | some (_, ':' :: cs) => (two? 0 59 cs).any (·.2.isEmpty)
      | _ => false
  | [] => false

/-- Whether the text is a date, a time, or a date and a time. -/
def isDateTime (cs : List Char) : Bool :=
  match date? cs with
  | some [] => true
  | some (mark :: cs) =>
    (mark = 'T' || mark = 't' || mark = ' ') && (time? cs).any fun rest => rest.isEmpty || isOffset rest
  | none => (time? cs).any List.isEmpty

/-- A date stands in a table under a key of its own. -/
def dateTime? (cs : List Char) : Option Json :=
  if isDateTime cs then some (.obj [("$__toml_private_datetime", .str (String.ofList cs))]) else none

/-! ### All of them -/

/-- A value that is a single word. -/
def scalar? (cs : List Char) : Option Json :=
  match cs with
  | ['t', 'r', 'u', 'e'] => some (.bool true)
  | ['f', 'a', 'l', 's', 'e'] => some (.bool false)
  | cs => dateTime? cs <|> integer? cs <|> float? cs

def isWordChar (c : Char) : Bool :=
  c.isAlphanum || c = '+' || c = '-' || c = '_' || c = '.' || c = ':'

/-- Reads a word; a date takes a time after a single blank with it. -/
def word (cs : List Char) : List Char × List Char :=
  let (first, rest) := cs.span isWordChar
  match date? first, rest with
  | some [], ' ' :: c :: rest' =>
    if c.isDigit then
      let (second, rest) := (c :: rest').span isWordChar
      (first ++ ' ' :: second, rest)
    else (first, rest)
  | _, _ => (first, rest)

end UsagePolicy.Toml
