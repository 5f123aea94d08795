import UsagePolicy.Decimal
import UsagePolicy.Json.Basic
import UsagePolicy.Text

/-! JSON text. Reading goes in two steps. The grammar gives a draft: a string with half a surrogate
pair and a number too large for double precision are well formed there, though they have no value,
and nesting is not limited. A draft is then settled into a value, which refuses all of these. Between
the two, a reader may drop the parts that it does not look at. -/
namespace UsagePolicy.Json

inductive Draft where
  | null
  | bool (b : Bool)
  /-- A number, if double precision can hold it. -/
  | num (n : Option Number)
  /-- A string, if all of its characters exist. -/
  | str (s : Option String)
  | arr (items : List Draft)
  | obj (fields : List (Option String × Draft))

namespace Draft

/-! ### Words -/

def isSpace (c : Char) : Bool := c = ' ' || c = '\t' || c = '\n' || c = '\r'

def skipSpace (cs : List Char) : List Char := cs.dropWhile isSpace

/-- Reads a number. -/
def number (cs : List Char) : Option (Option Number × List Char) := do
  let (sign, rest) := match cs with
    | '-' :: rest => (['-'], rest)
    | _ => ([], cs)
  let (whole, rest) := rest.span Char.isDigit
  if whole.isEmpty || (whole.head? = some '0' && whole.length > 1) then none
  let (fraction, rest) ← match rest with
    | '.' :: rest =>
      let (digits, rest) := rest.span Char.isDigit
      if digits.isEmpty then none else some (digits, rest)
    | _ => some ([], rest)
  let (mark, exponent, rest) ← match rest with
    | e :: rest' =>
      if e = 'e' || e = 'E' then
        let (mark, rest) := match rest' with
          | '+' :: rest => ([e, '+'], rest)
          | '-' :: rest => ([e, '-'], rest)
          | _ => ([e], rest')
        let (digits, rest) := rest.span Char.isDigit
        if digits.isEmpty then none else some (mark, digits, rest)
      else some ([], [], rest)
    | [] => some ([], [], [])
  let power : Int := Decimal.ofDigits exponent
  let power := if mark.contains '-' then -power else power
  let d := Decimal.condensed whole fraction
  let fits := Decimal.isFiniteProduct { d with exponent := d.exponent + power }
  if sign.isEmpty && fraction.isEmpty && mark.isEmpty then
    return (if fits then some (.natural (Decimal.ofDigits whole)) else none, rest)
  let point := if fraction.isEmpty then [] else ['.']
  let literal := String.ofList (sign ++ whole ++ point ++ fraction ++ mark ++ exponent)
  return (if fits then some (.other literal) else none, rest)

/-- The character that a letter after a backslash stands for. -/
def escaped? : Char → Option Nat
  | '"' => some 0x22
  | '\\' => some 0x5C
  | '/' => some 0x2F
  | 'b' => some 8
  | 'f' => some 0xC
  | 'n' => some 0xA
  | 'r' => some 0xD
  | 't' => some 9
  | _ => none

/-- Reads the rest of a string up to its closing quote. The result is a list of code points, in
which escapes may leave the two halves of a surrogate pair. -/
def codes (read : List Nat) : List Char → Option (List Nat × List Char)
  | [] => none
  | '"' :: cs => some (read.reverse, cs)
  | '\\' :: 'u' :: a :: b :: c :: d :: cs =>
    match Text.hex? [a, b, c, d] with
    | some n => codes (n :: read) cs
    | none => none
  | '\\' :: c :: cs =>
    match escaped? c with
    | some n => codes (n :: read) cs
    | none => none
  | c :: cs => if c = '\\' || c.toNat < 0x20 then none else codes (c.toNat :: read) cs

/-- Joins surrogate pairs; a half that stands alone is no character. -/
def characters? (read : List Char) : List Nat → Option (List Char)
  | [] => some read.reverse
  | [n] => if 0xD800 ≤ n && n < 0xE000 then none else some (Char.ofNat n :: read).reverse
  | n :: m :: ns =>
    if 0xD800 ≤ n && n < 0xDC00 && 0xDC00 ≤ m && m < 0xE000 then
      characters? (Char.ofNat (0x10000 + (n - 0xD800) * 0x400 + (m - 0xDC00)) :: read) ns
    else if 0xD800 ≤ n && n < 0xE000 then none
    else characters? (Char.ofNat n :: read) (m :: ns)

/-- Reads the rest of a string. -/
def text (cs : List Char) : Option (Option String × List Char) :=
  (codes [] cs).map fun (ns, rest) => ((characters? [] ns).map String.ofList, rest)

/-! ### Values -/

mutual
/-- Reads a value; `fuel` is to exceed twice the number of characters. -/
def value : (fuel : Nat) → List Char → Option (Draft × List Char)
  | 0, _ => none
  | fuel + 1, cs =>
    match skipSpace cs with
    | 'n' :: 'u' :: 'l' :: 'l' :: cs => some (.null, cs)
    | 't' :: 'r' :: 'u' :: 'e' :: cs => some (.bool true, cs)
    | 'f' :: 'a' :: 'l' :: 's' :: 'e' :: cs => some (.bool false, cs)
    | '"' :: cs => (text cs).map fun (s, cs) => (.str s, cs)
    | '[' :: cs =>
      match skipSpace cs with
      | ']' :: cs => some (.arr [], cs)
      | cs => items fuel [] cs
    | '\x7b' :: cs =>
      match skipSpace cs with
      | '\x7d' :: cs => some (.obj [], cs)
      | cs => fields fuel [] cs
    | cs => (number cs).map fun (n, cs) => (.num n, cs)

/-- Reads the entries of an array that are still missing, and its end. -/
def items : (fuel : Nat) → (read : List Draft) → List Char → Option (Draft × List Char)
  | 0, _, _ => none
  | fuel + 1, read, cs => do
    let (v, cs) ← value fuel cs
    match skipSpace cs with
    | ',' :: cs => items fuel (v :: read) cs
    | ']' :: cs => some (.arr (v :: read).reverse, cs)
    | _ => none

/-- Reads the fields of an object that are still missing, and its end. -/
def fields : (fuel : Nat) → (read : List (Option String × Draft)) → List Char →
    Option (Draft × List Char)
  | 0, _, _ => none
  | fuel + 1, read, cs => do
    let '"' :: cs := skipSpace cs | none
    let (name, cs) ← text cs
    let ':' :: cs := skipSpace cs | none
    let (v, cs) ← value fuel cs
    match skipSpace cs with
    | ',' :: cs => fields fuel ((name, v) :: read) cs
    | '\x7d' :: cs => some (.obj ((name, v) :: read).reverse, cs)
    | _ => none
end

/-- The draft of a text that is one value, with nothing but space around it. -/
def parse? (input : String) : Option Draft := do
  let cs := input.toList
  let (d, rest) ← value (2 * cs.length + 2) cs
  if (skipSpace rest).isEmpty then some d else none

/-! ### Settling -/

mutual
/-- The value of a draft in which at most `room` containers are nested. -/
def settle? (room : Nat) : Draft → Option Json
  | .null => some .null
  | .bool b => some (.bool b)
  | .num n => n.map .num
  | .str s => s.map .str
  | .arr items => if room = 0 then none else (settleItems? (room - 1) items).map .arr
  | .obj fields => if room = 0 then none else (settleFields? (room - 1) fields).map .obj

def settleItems? (room : Nat) : List Draft → Option (List Json)
  | [] => some []
  | d :: ds => do return (← d.settle? room) :: (← settleItems? room ds)

def settleFields? (room : Nat) : List (Option String × Draft) → Option (List (String × Json))
  | [] => some []
  | (name, d) :: ds => do
    let name ← name
    let v ← d.settle? room
    return (name, v) :: (← settleFields? room ds)
end

/-! ### Dropping what is not looked at -/

/-- Keeps only the known fields of an object. -/
def keep (names : List String) : Draft → Draft
  | .obj fields => .obj (fields.filter fun (name, _) => name.all names.contains)
  | d => d

/-- Changes the fields of an object that have a given name. -/
def inField (name : String) (change : Draft → Draft) : Draft → Draft
  | .obj fields => .obj (fields.map fun (n, d) => (n, if n = some name then change d else d))
  | d => d

/-- Changes the entries of an array. -/
def inItems (change : Draft → Draft) : Draft → Draft
  | .arr items => .arr (items.map change)
  | d => d

end Draft

/-- How many containers may be nested in a document. -/
def maxNesting : Nat := 127

/-- Reads a document whose reader drops some parts of it. -/
def parseOutline? (outline : Draft → Draft) (input : String) : Option Json :=
  (Draft.parse? input).bind fun d => (outline d).settle? maxNesting

/-- Reads a document that is looked at as a whole. -/
def parse? (input : String) : Option Json := parseOutline? id input

end UsagePolicy.Json
