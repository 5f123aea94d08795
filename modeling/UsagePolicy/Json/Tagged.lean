import UsagePolicy.Json.Record

/-! Tagged objects. Symbols and nodes are written as one object each, in which a tag names the kind
and the fields of the kind stand among the object's own. The order of the fields is free, and fields
that neither the object nor its kind knows are ignored. -/
namespace UsagePolicy.Json

/-- The kinds of an object, in order, with the fields of each. -/
abbrev Shapes := List (String × List String)

/-- A kind by its name or by its place. -/
def Shapes.find? (shapes : Shapes) : Json → Option (String × List String)
  | .str name => List.find? (·.1 == name) shapes
  | .num (.natural n) => shapes[n]?
  | _ => none

/-- The kind of a tagged object and its known fields; none of them may be repeated. -/
def tagged? (tag : String) (own : List String) (shapes : Shapes) (fields : List (String × Json)) :
    Option (String × Record) := do
  let (kind, names) ← shapes.find? (← fields.lookup tag)
  let r ← known? (tag :: own ++ names) fields
  return (kind, r)

end UsagePolicy.Json
