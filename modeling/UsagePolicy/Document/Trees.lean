import UsagePolicy.Document.Nodes
import UsagePolicy.Tree

/-! Tree documents as JSON. -/
namespace UsagePolicy.Tree

def fieldNames : List String := ["file", "symbols", "root", "generated"]

def toJson (t : Tree) : Json :=
  .obj ([("file", .str t.file), ("symbols", t.symbols.toJson), ("root", t.root.toJson)] ++
    if t.generated then [("generated", .bool true)] else [])

def ofJson? (v : Json) : Option Tree := do
  let r ← v.record? .json fieldNames
  return {
    file := ← r.required "file" Json.string?
    symbols := ← r.withDefault "symbols" {} SymbolTable.ofJson?
    root := ← r.required "root" Node.ofJson?
    generated := ← r.withDefault "generated" false Json.bool? }

/-- Drops the unknown fields of a tree document and of the spans of its nodes. -/
def outline : Json.Draft → Json.Draft
  | .arr items => .arr (items.mapIdx fun i d => if i = 2 then Node.outline d else d)
  | d => (d.keep fieldNames).inField "root" Node.outline

def ofText? (input : String) : Option Tree := (Json.parseOutline? outline input).bind ofJson?

end UsagePolicy.Tree
