import UsagePolicy.Text

/-! Slash-separated paths, seen as the list of their components. -/
namespace UsagePolicy.Path

/-- The components of a path: empty ones and single dots name nothing and are dropped. -/
def components (path : String) : List String :=
  ((Text.pieces '/' path.toList).filter fun p => p ≠ [] && p ≠ ['.']).map String.ofList

def isAbsolute (path : String) : Bool := Text.startsWith path "/"

/-- The last component, unless it leads upwards. -/
def fileName? (path : String) : Option String := (components path).getLast?.filter (· ≠ "..")

/-- Puts a path behind another one; an absolute path stands for itself. -/
def join (base path : String) : String :=
  if isAbsolute path then path
  else if base.isEmpty || Text.endsWith base "/" then base ++ path
  else base ++ "/" ++ path

/-- The path of what lies below a root, by its names from there on; without names it is the root. -/
def below (root : String) (names : List String) : String :=
  if names.isEmpty then root else join root (String.intercalate "/" names)

/-- The place that a path leads to from a directory, both from the root down. -/
def place (cwd : List String) (path : String) : List String :=
  (components path).foldl (fun here name => if name = ".." then here.dropLast else here ++ [name])
    (if isAbsolute path then [] else cwd)

/-- The path of a place. -/
def ofPlace (place : List String) : String := "/" ++ String.intercalate "/" place

/-- What is left of a path behind a directory that it starts with; any other path stays whole. -/
def seenFrom (directory path : String) : String :=
  if Text.startsWith path directory then
    match path.toList.drop directory.length with
    | '/' :: rest => String.ofList rest
    | rest => String.ofList rest
  else path

/-- The order of paths: component by component, a path before all that lie below it. -/
def precedes : List String → List String → Bool
  | [], _ => true
  | _ :: _, [] => false
  | a :: as, b :: bs => a < b || (a == b && precedes as bs)

end UsagePolicy.Path
