import UsagePolicy.Text

/-! Patterns of ignore files. They work on the bytes of a path; only double stars that are whole
components cross slashes. -/
namespace UsagePolicy.Ignore

inductive Token where
  | literal (bytes : List UInt8)
  /-- One byte but a slash. -/
  | any
  /-- Any bytes but slashes. -/
  | star
  /-- Any components before the rest. -/
  | leading
  /-- Any components after the rest. -/
  | trailing
  /-- Any components between the two sides. -/
  | between
  | bytes (negated : Bool) (ranges : List (UInt8 × UInt8))
  | alternatives (branches : List (List Token))

/-! ### Matching -/

def slash : UInt8 := 47

/-- What stands behind the slashes. -/
def behindSlashes : List UInt8 → List (List UInt8)
  | [] => []
  | b :: bs => if b = slash then bs :: behindSlashes bs else behindSlashes bs

def suffixes : List UInt8 → List (List UInt8)
  | [] => [[]]
  | b :: bs => (b :: bs) :: suffixes bs

/-- What may be left after bytes that are no slashes. -/
def withinComponent : List UInt8 → List (List UInt8)
  | [] => [[]]
  | b :: bs => (b :: bs) :: if b = slash then [] else withinComponent bs

/-- Drops repetitions among the ends of one path. Their lengths tell them apart. -/
def distinct (ends : List (List UInt8)) : List (List UInt8) :=
  (ends.foldl (fun (lengths, kept) bs =>
    let n := bs.length
    if lengths.contains n then (lengths, kept) else (n :: lengths, bs :: kept)) ([], [])).2

mutual
/-- What may be left of some bytes after a token. -/
def Token.advance : Token → List UInt8 → List (List UInt8)
  | .literal bytes, bs => if bytes.isPrefixOf bs then [bs.drop bytes.length] else []
  | .any, bs =>
    match bs with
    | b :: bs => if b = slash then [] else [bs]
    | [] => []
  | .star, bs => withinComponent bs
  | .leading, bs => bs :: behindSlashes bs
  | .trailing, bs =>
    match bs with
    | b :: bs => if b = slash then suffixes bs else []
    | [] => []
  | .between, bs =>
    match bs with
    | b :: bs => if b = slash then bs :: behindSlashes bs else []
    | [] => []
  | .bytes negated ranges, bs =>
    match bs with
    | b :: bs => if ranges.any (fun (a, z) => a ≤ b && b ≤ z) != negated then [bs] else []
    | [] => []
  | .alternatives branches, bs => if branches.isEmpty then [bs] else advanceAny branches bs

def advanceAll : List Token → List (List UInt8) → List (List UInt8)
  | [], starts => starts
  | t :: ts, starts => advanceAll ts (distinct (starts.flatMap fun bs => t.advance bs))

def advanceAny : List (List Token) → List UInt8 → List (List UInt8)
  | [], _ => []
  | branch :: branches, bs => advanceAll branch [bs] ++ advanceAny branches bs
end

/-- Whether tokens match all bytes of a path. -/
def accepts (tokens : List Token) (path : List UInt8) : Bool :=
  match tokens with
  | [.leading] => true
  | _ => (advanceAll tokens [path]).contains []

/-! ### Reading -/

def bytesOf (c : Char) : List UInt8 := (String.singleton c).toUTF8.toList

/-- A pattern that is partly read. -/
structure State where
  /-- The tokens of the branch at hand, the latest first. -/
  current : List Token := []
  /-- For each group that is open: its finished branches and the tokens before it, the latest
  first. -/
  groups : List (List (List Token) × List Token) := []
  /-- Some bracket has not been closed, so that all from there on stand for themselves. -/
  plainBrackets : Bool := false

namespace State

def push (s : State) (t : Token) : State := { s with current := t :: s.current }

/-- Puts a double star in the place of the character before it. -/
def replaceLast (s : State) (t : Token) : State :=
  match s.current with
  | .leading :: _ | .trailing :: _ => s
  | _ :: ts => { s with current := t :: ts }
  | [] => s.push t

/-- A double star after some character: a whole component if that is a slash, or, in a group, what
would open a branch if it stood for itself. The result is what is left, and its first part that
counts as read. -/
def doubleStar (s : State) (before : Option Char) (cs : List Char) : State × Char × List Char :=
  let plain := ((s.push .star).push .star, '*', cs)
  if s.current.isEmpty then
    match cs with
    | [] => (s.push .leading, '*', [])
    | '/' :: cs => (s.push .leading, '/', cs)
    | _ => plain
  else if before ≠ some '/' && (s.groups.isEmpty || (before ≠ some ',' && before ≠ some '\x7b')) then plain
  else match cs with
    | [] => (s.replaceLast .trailing, '*', [])
    | '/' :: cs => (s.replaceLast .between, '/', cs)
    | c :: _ =>
      if (c = ',' || c = '\x7d') && !s.groups.isEmpty then (s.replaceLast .trailing, '*', cs)
      else plain

/-- Whether tokens are only groups without branches. -/
def isBlank (ts : List Token) : Bool :=
  ts.all fun
    | .alternatives [] => true
    | _ => false

/-- Opens a group. -/
def openGroup (s : State) : State := { s with current := [], groups := ([], s.current) :: s.groups }

/-- Starts a new branch, if a group is open. -/
def nextBranch? (s : State) : Option State :=
  match s.groups with
  | [] => none
  | (branches, outer) :: groups =>
    some { s with current := [], groups := (s.current.reverse :: branches, outer) :: groups }

/-- Closes a group; branches that match nothing but the empty text do not count. -/
def closeGroup? (s : State) : Option State :=
  match s.groups with
  | [] => none
  | (branches, outer) :: groups =>
    let branches := (s.current.reverse :: branches).reverse.filter (!isBlank ·)
    some { s with current := .alternatives branches :: outer, groups }

end State

/-- A class of characters that is partly read. -/
structure ClassState where
  /-- Nothing has been read yet, so that a closing bracket stands for itself. -/
  first : Bool := true
  /-- A dash has been read, and the latest range waits for its end. -/
  pending : Bool := false
  /-- The latest first. -/
  ranges : List (Char × Char) := []

inductive ClassReading where
  | closed (ranges : List (Char × Char)) (rest : List Char)
  | unclosed
  /-- A range whose ends are in the wrong order. -/
  | malformed

/-- Reads a class up to its closing bracket. -/
def readClass (s : ClassState) : List Char → ClassReading
  | [] => .unclosed
  | c :: cs =>
    if c = ']' && !s.first then
      .closed (if s.pending then ('-', '-') :: s.ranges else s.ranges).reverse cs
    else if c = '-' && !s.first && !s.pending then readClass { s with pending := true } cs
    else if s.pending then
      match s.ranges with
      | (a, _) :: ranges =>
        if c < a then .malformed
        else readClass { first := false, pending := false, ranges := (a, c) :: ranges } cs
      | [] => .malformed
    else readClass { first := false, pending := false, ranges := (c, c) :: s.ranges } cs

/-- A mark at its start negates a class. -/
def negation : List Char → Bool × List Char
  | '!' :: cs | '^' :: cs => (true, cs)
  | cs => (false, cs)

/-- The bytes in a range of characters. -/
def byteRanges (a z : Char) : List (UInt8 × UInt8) :=
  let single (bs : List UInt8) := bs.map fun b => (b, b)
  if a = z then single (bytesOf a)
  else
    let bs := bytesOf a
    match bytesOf z with
    | last :: rest => single bs.dropLast ++ (bs.getLastD last, last) :: single rest
    | [] => single bs

/-- Reads a pattern from some character on. -/
def readTokens? : (fuel : Nat) → (before : Option Char) → State → List Char → Option (List Token)
  | 0, _, _, _ => none
  | fuel + 1, before, s, cs =>
    let plain (c : Char) (cs : List Char) :=
      readTokens? fuel (some c) (s.push (.literal (bytesOf c))) cs
    match cs with
    | [] => if s.groups.isEmpty then some s.current.reverse else none
    | '*' :: '*' :: cs =>
      let (s, last, cs) := s.doubleStar before cs
      readTokens? fuel (some last) s cs
    | '*' :: cs => readTokens? fuel (some '*') (s.push .star) cs
    | '?' :: cs => readTokens? fuel (some '?') (s.push .any) cs
    | '[' :: cs =>
      if s.plainBrackets then plain '[' cs
      else
        let (negated, inside) := negation cs
        match readClass {} inside with
        | .closed ranges cs =>
          let ranges := ranges.flatMap fun (a, z) => byteRanges a z
          readTokens? fuel (some ']') (s.push (.bytes negated ranges)) cs
        | .unclosed =>
          let s := { s with plainBrackets := true }
          readTokens? fuel (some '[') (s.push (.literal (bytesOf '['))) cs
        | .malformed => none
    | '\x7b' :: cs => readTokens? fuel (some '\x7b') s.openGroup cs
    | '\x7d' :: cs => s.closeGroup?.bind fun s => readTokens? fuel (some '\x7d') s cs
    | ',' :: cs =>
      match s.nextBranch? with
      | some s => readTokens? fuel (some ',') s cs
      | none => plain ',' cs
    | ['\\'] => none
    | '\\' :: c :: cs => plain c cs
    | c :: cs => plain c cs

/-- The tokens of a pattern, if it is one. -/
def tokens? (cs : List Char) : Option (List Token) := readTokens? (cs.length + 1) none {} cs

end UsagePolicy.Ignore
