import UsagePolicy.Text

/-! Globs over paths. A star and a question mark also match slashes; a double star has to be a
whole component of the pattern and matches any number of components. -/
namespace UsagePolicy

namespace Glob

/-- A range of characters, both ends included. -/
structure Range where
  first : Char
  last : Char
deriving DecidableEq

inductive Token where
  | char (c : Char)
  /-- Any one character. -/
  | any
  /-- Any text. -/
  | star
  /-- Any number of whole components. -/
  | components
  | within (ranges : List Range)
  | except (ranges : List Range)
deriving DecidableEq

/-! ### Errors -/

inductive Fault where
  /-- More than two stars in a row. -/
  | stars
  /-- A double star that is only part of a component. -/
  | partialComponent
  /-- A bracket that is not closed. -/
  | bracket
deriving DecidableEq

/-- What is wrong with a pattern, and at which character. -/
structure Error where
  position : Nat
  fault : Fault
deriving DecidableEq

def Fault.message : Fault → String
  | stars => "wildcards are either regular `*` or recursive `**`"
  | partialComponent => "recursive wildcards must form a single path component"
  | bracket => "invalid range pattern"

def Error.message (e : Error) : String :=
  "Pattern syntax error near position " ++ toString e.position ++ ": " ++ e.fault.message

/-! ### Reading -/

/-- The ranges between two brackets. -/
def ranges : List Char → List Range
  | a :: '-' :: b :: cs => ⟨a, b⟩ :: ranges cs
  | c :: cs => ⟨c, c⟩ :: ranges cs
  | [] => []

/-- What stands before a closing bracket, and after it. The first character may be a bracket
itself. -/
def bracketed? : List Char → Option (List Char × List Char)
  | [] => none
  | c :: cs =>
    match cs.span (· ≠ ']') with
    | (inside, _ :: rest) => some (c :: inside, rest)
    | (_, []) => none

/-- A double star right after another one adds nothing. -/
def addComponents : List Token → List Token
  | .components :: t :: ts => .components :: t :: ts
  | ts => .components :: ts

/-- Reads a pattern from the character at some position on. `before` is the character in front of
it, and `read` are the tokens found so far, the latest first. -/
def readTokens : (fuel position : Nat) → (before : Option Char) → (read : List Token) → List Char →
    Except Error (List Token)
  | 0, _, _, read, _ => .ok read.reverse
  | fuel + 1, i, before, read, cs =>
    match cs with
    | [] => .ok read.reverse
    | '*' :: '*' :: '*' :: _ => .error ⟨i + 2, .stars⟩
    | '*' :: '*' :: cs =>
      if before.any (· ≠ '/') then .error ⟨i - 1, .partialComponent⟩
      else match cs with
        | [] => .ok (addComponents read).reverse
        | '/' :: cs => readTokens fuel (i + 3) (some '/') (addComponents read) cs
        | _ => .error ⟨i + 2, .partialComponent⟩
    | '*' :: cs => readTokens fuel (i + 1) (some '*') (.star :: read) cs
    | '?' :: cs => readTokens fuel (i + 1) (some '?') (.any :: read) cs
    | '[' :: '!' :: cs =>
      match bracketed? cs with
      | some (inside, rest) =>
        readTokens fuel (i + inside.length + 3) (some ']') (.except (ranges inside) :: read) rest
      | none => .error ⟨i, .bracket⟩
    | '[' :: cs =>
      match bracketed? cs with
      | some (inside, rest) =>
        readTokens fuel (i + inside.length + 2) (some ']') (.within (ranges inside) :: read) rest
      | none => .error ⟨i, .bracket⟩
    | c :: cs => readTokens fuel (i + 1) (some c) (.char c :: read) cs

/-! ### Matching -/

def Range.has (c : Char) (r : Range) : Bool := r.first ≤ c && c ≤ r.last

/-- Whether a token stands for one character that it accepts. -/
def Token.accepts (c : Char) : Token → Bool
  | char x => x = c
  | any => true
  | within ranges => ranges.any (·.has c)
  | except ranges => !ranges.any (·.has c)
  | star | components => false

/-- What may be left of a text after a star. -/
def suffixes : List Char → List (List Char)
  | [] => [[]]
  | c :: cs => (c :: cs) :: suffixes cs

/-- What stands behind the slashes of a text, and its end. -/
def behindSlashes : List Char → List (List Char)
  | [] => [[]]
  | c :: cs => if c = '/' then cs :: behindSlashes cs else behindSlashes cs

/-- What is left of a text after one character that a token accepts. -/
def Token.rest? (t : Token) : List Char → Option (List Char)
  | [] => none
  | c :: cs => if t.accepts c then some cs else none

/-- What may be left after a token, for a text of which several ends may be left before it. The first
of them is the longest, so that a star has to look at no other. -/
def Token.advance (t : Token) (ends : List (List Char)) : List (List Char) :=
  match t, ends with
  | _, [] => []
  | star, longest :: _ => suffixes longest
  | components, longest :: others => longest :: others ++ behindSlashes longest
  | t, ends => ends.filterMap t.rest?

/-- Whether tokens match a whole text. -/
def accepts (tokens : List Token) (cs : List Char) : Bool :=
  (tokens.foldl (fun ends t => t.advance ends) [cs]).contains []

end Glob

/-- A pattern of paths. -/
structure Glob where
  tokens : List Glob.Token
deriving DecidableEq

namespace Glob

def parse (pattern : String) : Except Error Glob :=
  let cs := pattern.toList
  (readTokens cs.length 0 none [] cs).map Glob.mk

def isMatch (g : Glob) (path : String) : Bool := accepts g.tokens path.toList

end Glob

end UsagePolicy
