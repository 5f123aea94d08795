import UsagePolicy.Path

/-! Files and directories as a value. -/
namespace UsagePolicy

inductive FileTree where
  | file (content : ByteArray)
  | directory (entries : List (String × FileTree))

namespace FileTree

def empty : FileTree := .directory []

def isDirectory : FileTree → Bool
  | file _ => false
  | directory _ => true

def entries : FileTree → List (String × FileTree)
  | file _ => []
  | directory entries => entries

def content? : FileTree → Option ByteArray
  | file content => some content
  | directory _ => none

/-- What lies at the end of a path of names. -/
def find? : (path : List String) → FileTree → Option FileTree
  | [], t => some t
  | name :: path, t => (t.entries.lookup name).bind (find? path)

/-- Replaces or adds the entry with a name. -/
def setEntry (name : String) (t : FileTree) (entries : List (String × FileTree)) :
    List (String × FileTree) :=
  if (entries.lookup name).isSome then
    entries.map fun (n, old) => if n = name then (n, t) else (n, old)
  else entries ++ [(name, t)]

/-- Puts a file at the end of a path; directories that are missing on the way come about. -/
def write (content : ByteArray) : (path : List String) → FileTree → FileTree
  | [], _ => .file content
  | name :: path, t =>
    .directory (setEntry name (write content path ((t.entries.lookup name).getD empty)) t.entries)

/-- Makes a directory at the end of a path, unless there is one. -/
def makeDirectory : (path : List String) → FileTree → FileTree
  | [], t => .directory t.entries
  | name :: path, t =>
    .directory (setEntry name (makeDirectory path ((t.entries.lookup name).getD empty)) t.entries)

/-! ### Written paths -/

/-- Follows the pieces of a path from a directory, given from the root down. Each piece but the last
has to lead to a directory: nothing and a single dot stay there, two dots go up. -/
def follow (root : FileTree) : (pieces place : List String) → Option (List String)
  | [], place => some place
  | piece :: pieces, place =>
    match root.find? place with
    | some (.directory entries) =>
      if piece = "" || piece = "." then follow root pieces place
      else if piece = ".." then follow root pieces place.dropLast
      else if (entries.lookup piece).isSome then follow root pieces (place ++ [piece])
      else none
    | _ => none

/-- The place that a path leads to from a current directory. -/
def resolve? (root : FileTree) (cwd : List String) (path : String) : Option (List String) :=
  if path.isEmpty then none
  else
    let pieces := (Text.pieces '/' path.toList).map String.ofList
    follow root pieces (if Path.isAbsolute path then [] else cwd)

/-- What a path leads to. -/
def locate? (root : FileTree) (cwd : List String) (path : String) : Option FileTree :=
  (root.resolve? cwd path).bind root.find?

/-- The content of the file that a path leads to. -/
def read? (root : FileTree) (cwd : List String) (path : String) : Option ByteArray :=
  (root.locate? cwd path).bind content?

end FileTree

end UsagePolicy
