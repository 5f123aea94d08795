import UsagePolicy.Glob
import UsagePolicy.Ignore.Layer

/-! Finding the tree documents below a directory. -/
namespace UsagePolicy.Discovery

open Ignore (Rule Layer Surroundings)

/-- What a search looks at apart from the directories themselves. -/
structure Outlook where
  /-- What paths lead to from the current directory. -/
  reach : String → Option FileTree
  /-- The rules of the user, for paths as seen from the current directory. -/
  userRules : List Rule := []

/-- Whether an entry of the nearest directory, which is seen at some path, is left out. The rules of
the user count where no directory has a decision. -/
def isIgnored (o : Outlook) (around : Surroundings) (seen : String) (isDirectory : Bool)
    (name : String) : Bool :=
  ((Ignore.verdict? around name isDirectory).or
    (Ignore.decide? o.userRules (Path.join seen name) isDirectory)).getD false

mutual
/-- The files at and below an entry that no ignore file leaves out, by their paths from the entry on,
each with its content. -/
def files (o : Outlook) (around : Surroundings) (seen name : String) :
    FileTree → List (List String × ByteArray)
  | .file content => [([], content)]
  | .directory entries =>
    filesIn o ((name, Layer.ofDirectory o.reach (.directory entries)) :: around) seen entries

/-- The same for the entries of the nearest directory. -/
def filesIn (o : Outlook) (around : Surroundings) (seen : String) :
    List (String × FileTree) → List (List String × ByteArray)
  | [] => []
  | (name, t) :: rest =>
    (if isIgnored o around seen t.isDirectory name then []
      else (files o around (Path.join seen name) name t).map fun (path, content) =>
        (name :: path, content)) ++
      filesIn o around seen rest
end

/-- Tree documents have names that end like this. -/
def ending : String := ".ast.json"

/-- Whether a document is left out, by its path from the root or by its full path. -/
def isExcluded (excludes : List Glob) (root : String) (path : List String) : Bool :=
  let relative := String.intercalate "/" path
  excludes.any fun g => g.isMatch relative || g.isMatch (Path.below root path)

/-- The documents below a root, by their paths from there on; none if there is no such root, or if
the root is a directory and the ignore files above it cannot be read. -/
def documents? (disk : FileTree) (cwd : List String) (userRules : List Rule) (root : String)
    (excludes : List Glob) : Option (List (List String × ByteArray)) := do
  let o : Outlook := { reach := disk.locate? cwd, userRules }
  let place ← disk.resolve? cwd root
  let top ← disk.find? place
  let around := match place.getLast? with
    | none => []
    | some _ => Ignore.surroundings o.reach [] "" place.dropLast disk
  if top.isDirectory && around.any fun (_, layer) => !layer.isSound then none
  let found := files o around (Path.seenFrom (Path.ofPlace cwd) root) (place.getLastD "") top
  return found.filter fun (path, _) =>
    Text.endsWith (path.getLastD root) ending && !isExcluded excludes root path

end UsagePolicy.Discovery
