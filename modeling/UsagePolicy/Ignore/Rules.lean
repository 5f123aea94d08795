import UsagePolicy.Ignore.Pattern
import UsagePolicy.Lines

/-! Ignore files: a pattern a line. The last pattern that matches decides, and one that starts with
an exclamation mark takes files back in. -/
namespace UsagePolicy.Ignore

structure Rule where
  tokens : List Token
  /-- The rule takes files back in. -/
  negated : Bool
  directoriesOnly : Bool

namespace Rule

/-- Drops the backslash before an exclamation mark or a number sign, or else reads the marks at the
start of a line: whether the rule is negated, and whether it is tied to its directory. -/
def marks (line : List Char) : Bool × Bool × List Char :=
  match line with
  | '\\' :: '!' :: cs => (false, false, '!' :: cs)
  | '\\' :: '#' :: cs => (false, false, '#' :: cs)
  | '!' :: '/' :: cs => (true, true, cs)
  | '!' :: cs => (true, false, cs)
  | '/' :: cs => (false, true, cs)
  | cs => (false, false, cs)

/-- A slash at the end asks for directories. -/
def directoryMark (cs : List Char) : Bool × List Char :=
  match cs.reverse with
  | '/' :: '\\' :: rest => (true, rest.reverse)
  | '/' :: rest => (true, rest.reverse)
  | _ => (false, cs)

/-- A pattern without a slash matches at any depth; one that ends in a double star matches what is
inside a directory, but not the directory. -/
def complete (anchored : Bool) (cs : List Char) : List Char :=
  let free := !anchored && !cs.contains '/' && cs ≠ ['*', '*']
  let cs := if free then '*' :: '*' :: '/' :: cs else cs
  if ['/', '*', '*'].isSuffixOf cs then cs ++ ['/', '*'] else cs

/-- The rule on a line that has one, if its pattern makes sense. -/
def ofPattern? (line : List Char) : Option Rule := do
  let (negated, anchored, cs) := marks line
  let (directoriesOnly, cs) := directoryMark cs
  let tokens ← tokens? (complete anchored cs)
  return { tokens, negated, directoriesOnly }

def applies (path : List UInt8) (isDirectory : Bool) (r : Rule) : Bool :=
  (isDirectory || !r.directoriesOnly) && accepts r.tokens path

end Rule

/-- Whether a path is left out or taken back in, if any rule says so. -/
def decide? (rules : List Rule) (path : String) (isDirectory : Bool) : Option Bool :=
  let bytes := path.toUTF8.toList
  (rules.reverse.find? (·.applies bytes isDirectory)).map (!·.negated)

/-! ### Files -/

/-- The pattern on a line, unless it is blank or a comment. Blanks at the end do not count, but all do
when the last one stands behind a backslash. -/
def patternOn? (line : List Char) : Option (List Char) :=
  if line.head? = some '#' then none
  else
    let line := if ['\\', ' '].isSuffixOf line then line else Text.trimEnd line
    if line.isEmpty then none else some line

/-- The patterns of a file, up to the first line that is no text; a byte order mark before them is
ignored. -/
def patternsIn (content : ByteArray) : List (List Char) :=
  let lines := match (Lines.texts (Lines.ofContent content)).map String.toList with
    | first :: lines => first.dropWhile (· = '\ufeff') :: lines
    | [] => []
  lines.filterMap patternOn?

/-- The rules of a file. -/
structure RuleFile where
  rules : List Rule := []
  /-- Whether all of its patterns make sense. -/
  isSound : Bool := true

/-- Reads a file; patterns that make no sense are left out. -/
def RuleFile.read (content : ByteArray) : RuleFile :=
  let found := (patternsIn content).map Rule.ofPattern?
  { rules := found.filterMap id, isSound := found.all Option.isSome }

end UsagePolicy.Ignore
