import UsagePolicy.Toml.Quoted
import UsagePolicy.Toml.Scalar
import UsagePolicy.Toml.Table

/-! TOML documents. -/
namespace UsagePolicy.Toml

/-! ### Space and keys -/

/-- The end of a line or of the document, after an optional comment. -/
def lineEnd? (cs : List Char) : Option (List Char) :=
  let cs := skipWs cs
  let cs := match cs with
    | '#' :: comment => comment.dropWhile isPlain
    | cs => cs
  match cs with
  | [] => some []
  | '\n' :: cs => some cs
  | '\r' :: '\n' :: cs => some cs
  | _ => none

/-- Skips blanks, comments and line ends inside an array. -/
def skipLines : (fuel : Nat) → List Char → List Char
  | 0, cs => cs
  | fuel + 1, cs =>
    match skipWs cs with
    | [] => []
    | c :: cs =>
      if c = '#' || c = '\n' || c = '\r' then
        match lineEnd? (c :: cs) with
        | some rest => skipLines fuel rest
        | none => c :: cs
      else c :: cs

def isKeyChar (c : Char) : Bool := c.isAlphanum || c = '-' || c = '_'

/-- Reads a key without dots, and the blanks around it. -/
def simpleKey? (cs : List Char) : Option (String × List Char) := do
  let cs := skipWs cs
  let (key, rest) ← match cs with
    | '"' :: cs => basic [] cs
    | '\'' :: cs => literal [] cs
    | cs =>
      let (key, rest) := cs.span isKeyChar
      if key.isEmpty then none else some (String.ofList key, rest)
  return (key, skipWs rest)

/-- How many parts a dotted key may have. -/
def maxKeyParts : Nat := 79

/-- Reads a dotted key as a path and its last part. -/
def key? : (room : Nat) → (path : List String) → List Char →
    Option ((List String × String) × List Char)
  | 0, _, _ => none
  | room + 1, path, cs => do
    let (key, cs) ← simpleKey? cs
    match cs with
    | '.' :: cs => key? room (path ++ [key]) cs
    | cs => some ((path, key), cs)

/-! ### Values -/

/-- How many arrays and inline tables may be nested. -/
def maxNesting : Nat := 79

mutual
/-- Reads a value with at most `room` nested arrays and inline tables; `fuel` is to exceed twice the
number of characters. -/
def value? : (fuel room : Nat) → List Char → Option (Json × List Char)
  | 0, _, _ => none
  | fuel + 1, room, cs =>
    match cs with
    | '"' :: _ | '\'' :: _ => (quoted? cs).map fun (s, cs) => (.str s, cs)
    | '[' :: cs => if room = 0 then none else array? fuel (room - 1) [] cs
    | '\x7b' :: cs =>
      if room = 0 then none
      else match skipWs cs with
        | '\x7d' :: cs => some (.obj [], cs)
        | cs => inline? fuel (room - 1) [] cs
    | cs =>
      let (w, rest) := word cs
      (scalar? w).map (·, rest)

/-- Reads the entries of an array that are still missing, and its end. -/
def array? : (fuel room : Nat) → (read : List Json) → List Char → Option (Json × List Char)
  | 0, _, _, _ => none
  | fuel + 1, room, read, cs =>
    match skipLines cs.length cs with
    | ']' :: cs => some (.arr read.reverse, cs)
    | cs => do
      let (v, cs) ← value? fuel room cs
      match skipLines cs.length cs with
      | ',' :: cs => array? fuel room (v :: read) cs
      | ']' :: cs => some (.arr (v :: read).reverse, cs)
      | _ => none

/-- Reads the entries of an inline table that are still missing, and its end. -/
def inline? : (fuel room : Nat) → (read : Entries) → List Char → Option (Json × List Char)
  | 0, _, _, _ => none
  | fuel + 1, room, read, cs => do
    let ((path, key), cs) ← key? maxKeyParts [] cs
    let '=' :: cs := cs | none
    let (v, cs) ← value? fuel room (skipWs cs)
    let read ← read.put path key v .header
    match skipWs cs with
    | ',' :: cs => inline? fuel room read cs
    | '\x7d' :: cs => some (read.toJson, cs)
    | _ => none
end

/-! ### Documents -/

/-- Reads one statement, which starts on this line. -/
def statement? (cs : List Char) : Option (Statement × List Char) :=
  match cs with
  | '[' :: '[' :: cs => do
    let ((path, key), cs) ← key? maxKeyParts [] cs
    let ']' :: ']' :: cs := cs | none
    return (.arrayHeader path key, cs)
  | '[' :: cs => do
    let ((path, key), cs) ← key? maxKeyParts [] cs
    let ']' :: cs := cs | none
    return (.header path key, cs)
  | cs => do
    let ((path, key), cs) ← key? maxKeyParts [] cs
    let '=' :: cs := cs | none
    let (v, cs) ← value? (2 * cs.length + 2) maxNesting (skipWs cs)
    return (.entry path key v, cs)

/-- Reads the statements of a document. -/
def statements? : (fuel : Nat) → (read : List Statement) → List Char → Option (List Statement)
  | 0, _, _ => none
  | fuel + 1, read, cs =>
    match skipLines cs.length cs with
    | [] => some read.reverse
    | cs => do
      let (s, cs) ← statement? cs
      statements? fuel (s :: read) (← lineEnd? cs)

/-- The value of a document; a byte order mark before it is ignored. -/
def parse? (input : String) : Option Json := do
  let cs := match input.toList with
    | '\ufeff' :: cs => cs
    | cs => cs
  let statements ← statements? (cs.length + 1) [] cs
  return (← assemble [] [] statements).toJson

end UsagePolicy.Toml
