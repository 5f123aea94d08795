import UsagePolicy.Json.Basic

/-! Tables of a TOML document while it is read. Tables come about in three ways, and which keys may
still be added to one depends on how it did. -/
namespace UsagePolicy.Toml

/-- How a table has come about. -/
inductive Origin where
  /-- By a header of its own. -/
  | header
  /-- By the header of a table below it. -/
  | implied
  /-- By a dotted key. -/
  | dotted
deriving DecidableEq

inductive Item where
  /-- A finished value, which nothing can be added to. -/
  | value (v : Json)
  | table (origin : Origin) (entries : List (String × Item))
  /-- An array of tables, the latest of them first. -/
  | tables (elements : List (List (String × Item)))

abbrev Entries := List (String × Item)

namespace Entries

def replace (entries : Entries) (key : String) (item : Item) : Entries :=
  entries.map fun (k, i) => if k = key then (k, item) else (k, i)

/-- Changes the table at the end of a path. Tables on the way that are not there yet come about as
`fresh`, and arrays of tables lead to their latest one. A dotted key may not lead through a table
that has a header. -/
def change (fresh : Origin) (f : Origin → Entries → Option Entries) :
    (path : List String) → Origin → Entries → Option Entries
  | [], origin, entries => f origin entries
  | key :: path, _, entries =>
    match entries.lookup key with
    | none => do
      let inner ← change fresh f path fresh []
      return entries ++ [(key, .table fresh inner)]
    | some (.table origin inner) =>
      if fresh = .dotted ∧ origin = .header then none
      else do
        let inner ← change fresh f path origin inner
        return replace entries key (.table origin inner)
    | some (.tables (latest :: earlier)) => do
      let latest ← change fresh f path .header latest
      return replace entries key (.tables (latest :: earlier))
    | some (.tables []) | some (.value _) => none

/-- Puts a value behind a key that is not taken. Dotted keys and plain ones cannot be mixed in one
table. -/
def put (path : List String) (key : String) (v : Json) (origin : Origin) (entries : Entries) :
    Option Entries :=
  change .dotted (fun origin entries =>
    if (origin = .dotted ↔ path = []) ∨ (entries.lookup key).isSome then none
    else some (entries ++ [(key, .value v)])) path origin entries

/-- Opens a table by its header. -/
def openTable (path : List String) (key : String) (entries : Entries) : Option Entries :=
  change .implied (fun _ entries =>
    match entries.lookup key with
    | none => some (entries ++ [(key, .table .header [])])
    | some (.table .implied inner) => some (replace entries key (.table .header inner))
    | some _ => none) path .header entries

/-- Opens the next table of an array. -/
def openNext (path : List String) (key : String) (entries : Entries) : Option Entries :=
  change .implied (fun _ entries =>
    match entries.lookup key with
    | none => some (entries ++ [(key, .tables [[]])])
    | some (.tables elements) => some (replace entries key (.tables ([] :: elements)))
    | some _ => none) path .header entries

end Entries

mutual
def Item.toJson : Item → Json
  | .value v => v
  | .table _ entries => .obj (fieldsOf entries)
  | .tables elements => .arr (arrayOf [] elements)

/-- The fields of a table. -/
def fieldsOf : List (String × Item) → List (String × Json)
  | [] => []
  | (key, item) :: rest => (key, item.toJson) :: fieldsOf rest

/-- The tables of an array, the earliest first. -/
def arrayOf (later : List Json) : List (List (String × Item)) → List Json
  | [] => later
  | entries :: rest => arrayOf (.obj (fieldsOf entries) :: later) rest
end

def Entries.toJson (entries : Entries) : Json := .obj (fieldsOf entries)

/-! ### Statements -/

/-- A line of a document that says something. -/
inductive Statement where
  | header (path : List String) (key : String)
  | arrayHeader (path : List String) (key : String)
  | entry (path : List String) (key : String) (v : Json)

/-- Follows a document line by line; `current` is the path of the table that entries go to. -/
def assemble (current : List String) (entries : Entries) : List Statement → Option Entries
  | [] => some entries
  | .header path key :: rest => do
    assemble (path ++ [key]) (← Entries.openTable path key entries) rest
  | .arrayHeader path key :: rest => do
    assemble (path ++ [key]) (← Entries.openNext path key entries) rest
  | .entry path key v :: rest => do
    let entries ← Entries.change .implied (Entries.put path key v) current .header entries
    assemble current entries rest

end UsagePolicy.Toml
