import UsagePolicy.Ignore.Rules
import UsagePolicy.Path

/-! The ignore file of a user, which counts in all repositories. A git configuration may say where it
is. -/
namespace UsagePolicy.Ignore

/-! ### Git configurations -/

/-- The blanks of a configuration. -/
def isSpace (c : Char) : Bool := c = ' ' || ('\t' ≤ c && c ≤ '\r')

/-- Whether a line ends here, after blanks. -/
def endsLine (cs : List Char) : Bool :=
  match cs.dropWhile fun c => isSpace c && c ≠ '\n' with
  | [] | '\n' :: _ => true
  | _ => false

/-- Whether a value may end here: at the end of a line, with a quote before it or without. -/
def endsValue (cs : List Char) : Bool :=
  endsLine cs ||
    match cs.dropWhile isSpace with
    | '"' :: cs => endsLine cs
    | _ => false

/-- The shortest word from here on that ends where a value may end. -/
def word? : List Char → Option (List Char)
  | [] => none
  | c :: cs =>
    if isSpace c then none
    else if endsValue cs then some [c]
    else (word? cs).map (c :: ·)

/-- The value behind an equals sign; a quote before it is dropped if that leaves a value. -/
def value? (cs : List Char) : Option (List Char) :=
  match cs.dropWhile isSpace with
  | '"' :: cs => (word? (cs.dropWhile isSpace)).or (word? ('"' :: cs))
  | cs => word? cs

/-- The value of a key, if it stands here. -/
def assigned? (key : List Char) (cs : List Char) : Option (List Char) :=
  let cs := cs.dropWhile isSpace
  if (cs.take key.length).map Char.toLower = key then
    match (cs.drop key.length).dropWhile isSpace with
    | '=' :: cs => value? cs
    | _ => none
  else none

/-- The value of a key on the first line where it has one; `atStart` tells whether a line starts
here. -/
def setting? (key : List Char) (atStart : Bool) : List Char → Option (List Char)
  | [] => none
  | c :: cs =>
    let here := if atStart then assigned? key (c :: cs) else none
    here.or (setting? key (c = '\n') cs)

/-! ### Places -/

/-- Puts the home directory in the place of tildes. -/
def expandTilde (home : String) (path : List Char) : String :=
  String.ofList (path.flatMap fun c => if c = '~' then home.toList else [c])

/-- The configurations below a home directory, the more important one first. -/
def configFiles (home : String) : List String :=
  [Path.join home ".gitconfig", Path.join home ".config/git/config"]

/-- The path of the user's ignore file. -/
def userFile (read? : String → Option ByteArray) (home : String) : String :=
  let named := (configFiles home).findSome? fun path => do
    let text ← (read? path).bind String.fromUTF8?
    setting? "excludesfile".toList true text.toList
  (named.map (expandTilde home)).getD (Path.join home ".config/git/ignore")

/-- The rules of the user's ignore file. -/
def userRules (read? : String → Option ByteArray) (home : Option String) : List Rule :=
  match home.bind fun home => read? (userFile read? home) with
  | some content => (RuleFile.read content).rules
  | none => []

end UsagePolicy.Ignore
