import UsagePolicy.FileTree
import UsagePolicy.Ignore.Rules

/-! The ignore files of directories. Each directory may have three: one for all tools, one for git,
and one that belongs to the git repository. In each of the three kinds, the nearest directory with a
decision counts. -/
namespace UsagePolicy.Ignore

/-! ### Repositories -/

/-- The first line of a file, if it has one; it has to be text. -/
def firstLine (content : ByteArray) : Except Unit (Option String) :=
  match Lines.ofContent content with
  | [] => .ok none
  | line :: _ =>
    match Lines.text? line with
    | some text => .ok (some text)
    | none => .error ()

/-- The place of the repository that a linked work tree belongs to. The tree names its own part of
the repository, and a file there names the common part. Both are seen from the current directory,
but a common part that starts with a dot is seen from the tree's own part. -/
def commonDirectory (reach : String → Option FileTree) (link : ByteArray) :
    Except Unit (Option String) := do
  let some line ← firstLine link | return none
  let mark := "gitdir: "
  if !Text.startsWith line mark then return none
  let own := String.ofList (line.toList.drop mark.length)
  match reach (Path.join own "commondir") with
  | none => return none
  | some (.directory _) => throw ()
  | some (.file content) =>
    let some common ← firstLine content | return none
    return some (if Text.startsWith common "." then Path.join own common else common)

/-- The ignore file of the repository in a directory. -/
def repositoryFile (reach : String → Option FileTree) (t : FileTree) :
    Except Unit (Option ByteArray) := do
  match t.entries.lookup ".git" with
  | some (.file link) =>
    let some place ← commonDirectory reach link | return none
    return (reach (Path.join place "info/exclude")).bind FileTree.content?
  | _ => return (t.find? [".git", "info", "exclude"]).bind FileTree.content?

/-! ### Directories -/

/-- The rules of one directory, by the kinds of files that hold them. -/
structure Layer where
  ignore : List Rule
  gitIgnore : List Rule
  gitExclude : List Rule
  /-- Whether everything could be read. -/
  isSound : Bool

/-- The rules of a directory. `reach` is what paths lead to from the current directory. -/
def Layer.ofDirectory (reach : String → Option FileTree) (t : FileTree) : Layer :=
  let file (name : String) : RuleFile :=
    (((t.find? [name]).bind FileTree.content?).map RuleFile.read).getD {}
  let ignore := file ".ignore"
  let gitIgnore := file ".gitignore"
  let gitExclude : RuleFile :=
    match repositoryFile reach t with
    | .ok content => (content.map RuleFile.read).getD {}
    | .error () => { isSound := false }
  { ignore := ignore.rules
    gitIgnore := gitIgnore.rules
    gitExclude := gitExclude.rules
    isSound := ignore.isSound && gitIgnore.isSound && gitExclude.isSound }

/-- The directories around an entry, the nearest first, each with its name and its rules. -/
abbrev Surroundings := List (String × Layer)

/-- The decision of the nearest directory that has one, for a path below the nearest of all. -/
def nearest? (rules : Layer → List Rule) (isDirectory : Bool) :
    (path : List String) → Surroundings → Option Bool
  | _, [] => none
  | path, (name, layer) :: outer =>
    (decide? (rules layer) (String.intercalate "/" path) isDirectory).or
      (nearest? rules isDirectory (name :: path) outer)

/-- Whether an entry of the nearest directory is left out or taken back in. -/
def verdict? (around : Surroundings) (name : String) (isDirectory : Bool) : Option Bool :=
  let decision (rules : Layer → List Rule) := nearest? rules isDirectory [name] around
  (decision Layer.ignore).or ((decision Layer.gitIgnore).or (decision Layer.gitExclude))

/-- The surroundings of what lies in the directory at the end of a path. -/
def surroundings (reach : String → Option FileTree) (around : Surroundings) (name : String) :
    (path : List String) → FileTree → Surroundings
  | [], t => (name, Layer.ofDirectory reach t) :: around
  | next :: path, t =>
    let around := (name, Layer.ofDirectory reach t) :: around
    match t.entries.lookup next with
    | some inner => surroundings reach around next path inner
    | none => around

end UsagePolicy.Ignore
