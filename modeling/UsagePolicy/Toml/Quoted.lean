import UsagePolicy.Text

/-! Strings of TOML: basic ones with escapes, literal ones without, each on one line or on many. -/
namespace UsagePolicy.Toml

/-- Characters that may stand in strings and comments as they are. -/
def isPlain (c : Char) : Bool := c = '\t' || (0x20 ≤ c.toNat && c.toNat ≠ 0x7F)

def isWs (c : Char) : Bool := c = ' ' || c = '\t'

def skipWs (cs : List Char) : List Char := cs.dropWhile isWs

/-- The character that a letter after a backslash stands for. -/
def escaped? : Char → Option Char
  | 'b' => some (Char.ofNat 8)
  | 't' => some '\t'
  | 'n' => some '\n'
  | 'f' => some (Char.ofNat 12)
  | 'r' => some '\r'
  | '"' => some '"'
  | '\\' => some '\\'
  | _ => none

/-- The character with a code point in hexadecimal digits; halves of surrogate pairs are none. -/
def coded? (digits : List Char) : Option Char := do
  let n ← Text.hex? digits
  if n.isValidChar then some (Char.ofNat n) else none

/-- The rest of a basic string on one line. -/
def basic (read : List Char) : List Char → Option (String × List Char)
  | [] => none
  | '"' :: cs => some (String.ofList read.reverse, cs)
  | '\\' :: 'u' :: a :: b :: c :: d :: cs =>
    match coded? [a, b, c, d] with
    | some x => basic (x :: read) cs
    | none => none
  | '\\' :: 'U' :: a :: b :: c :: d :: e :: f :: g :: h :: cs =>
    match coded? [a, b, c, d, e, f, g, h] with
    | some x => basic (x :: read) cs
    | none => none
  | '\\' :: c :: cs =>
    match escaped? c with
    | some x => basic (x :: read) cs
    | none => none
  | c :: cs => if isPlain c && c ≠ '\\' then basic (c :: read) cs else none

/-- The rest of a literal string on one line. -/
def literal (read : List Char) : List Char → Option (String × List Char)
  | [] => none
  | '\'' :: cs => some (String.ofList read.reverse, cs)
  | c :: cs => if isPlain c then literal (c :: read) cs else none

/-- Whether a line ends here, but for blanks. -/
def endsLine (cs : List Char) : Bool :=
  match skipWs cs with
  | '\n' :: _ | '\r' :: '\n' :: _ => true
  | _ => false

/-- The rest of a basic string on many lines. A backslash at the end of a line joins it with what
follows: while `joining`, blanks and line ends are left out. Up to two quotes may stand right before
the closing ones. -/
def basicLines (joining : Bool) (read : List Char) : List Char → Option (String × List Char)
  | [] => none
  | '"' :: '"' :: '"' :: '"' :: '"' :: cs => some (String.ofList ('"' :: '"' :: read).reverse, cs)
  | '"' :: '"' :: '"' :: '"' :: cs => some (String.ofList ('"' :: read).reverse, cs)
  | '"' :: '"' :: '"' :: cs => some (String.ofList read.reverse, cs)
  | '\n' :: cs => basicLines joining (if joining then read else '\n' :: read) cs
  | '\r' :: '\n' :: cs => basicLines joining (if joining then read else '\n' :: read) cs
  | '\\' :: 'u' :: a :: b :: c :: d :: cs =>
    match coded? [a, b, c, d] with
    | some x => basicLines false (x :: read) cs
    | none => none
  | '\\' :: 'U' :: a :: b :: c :: d :: e :: f :: g :: h :: cs =>
    match coded? [a, b, c, d, e, f, g, h] with
    | some x => basicLines false (x :: read) cs
    | none => none
  | '\\' :: c :: cs =>
    if endsLine (c :: cs) then basicLines true read (c :: cs)
    else match escaped? c with
      | some x => basicLines false (x :: read) cs
      | none => none
  | c :: cs =>
    if joining && isWs c then basicLines true read cs
    else if isPlain c && c ≠ '\\' then basicLines false (c :: read) cs
    else none

/-- The rest of a literal string on many lines. -/
def literalLines (read : List Char) : List Char → Option (String × List Char)
  | [] => none
  | '\'' :: '\'' :: '\'' :: '\'' :: '\'' :: cs =>
    some (String.ofList ('\'' :: '\'' :: read).reverse, cs)
  | '\'' :: '\'' :: '\'' :: '\'' :: cs => some (String.ofList ('\'' :: read).reverse, cs)
  | '\'' :: '\'' :: '\'' :: cs => some (String.ofList read.reverse, cs)
  | '\n' :: cs => literalLines ('\n' :: read) cs
  | '\r' :: '\n' :: cs => literalLines ('\n' :: read) cs
  | c :: cs => if isPlain c then literalLines (c :: read) cs else none

/-- A line end right after the opening quotes does not belong to the string. -/
def skipNewline : List Char → List Char
  | '\n' :: cs => cs
  | '\r' :: '\n' :: cs => cs
  | cs => cs

/-- Reads a string of any form. -/
def quoted? : List Char → Option (String × List Char)
  | '"' :: '"' :: '"' :: cs => basicLines false [] (skipNewline cs)
  | '"' :: cs => basic [] cs
  | '\'' :: '\'' :: '\'' :: cs => literalLines [] (skipNewline cs)
  | '\'' :: cs => literal [] cs
  | _ => none

end UsagePolicy.Toml
