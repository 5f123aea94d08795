import UsagePolicy.Json.Tagged
import UsagePolicy.SymbolTable

/-! Symbols and symbol tables as JSON. -/
namespace UsagePolicy

namespace SymbolId

def toJson (id : SymbolId) : Json := .ofNat id.index.toNat

def ofJson? (v : Json) : Option SymbolId := (v.below? (Nat.pow 2 32)).map fun n => ⟨UInt32.ofNat n⟩

end SymbolId

namespace SymbolKind

def shapes : Json.Shapes :=
  [("namespace", []), ("type", ["type_args", "element"]), ("method", ["return_type", "parameters"]),
    ("property", ["value_type"]), ("field", ["field_type"]),
    ("delegate", ["return_type", "parameters", "type_args"]), ("attribute", []),
    ("parameter", ["param_type"])]

/-- A list of handles that is written only if there are any. -/
def handles (name : String) (ids : List SymbolId) : List (String × Json) :=
  if ids.isEmpty then [] else [(name, .ofList SymbolId.toJson ids)]

def fields : SymbolKind → List (String × Json)
  | nameSpace => [("kind", .str "namespace")]
  | type typeArgs element =>
    ("kind", .str "type") :: handles "type_args" typeArgs ++
      Json.fieldIf "element" SymbolId.toJson element
  | method returnType parameters =>
    [("kind", .str "method"), ("return_type", .ofOption SymbolId.toJson returnType),
      ("parameters", .ofList SymbolId.toJson parameters)]
  | property valueType =>
    [("kind", .str "property"), ("value_type", .ofOption SymbolId.toJson valueType)]
  | field fieldType =>
    [("kind", .str "field"), ("field_type", .ofOption SymbolId.toJson fieldType)]
  | delegate returnType parameters typeArgs =>
    [("kind", .str "delegate"), ("return_type", .ofOption SymbolId.toJson returnType),
      ("parameters", .ofList SymbolId.toJson parameters)] ++ handles "type_args" typeArgs
  | attributeConstructor => [("kind", .str "attribute")]
  | parameter paramType =>
    [("kind", .str "parameter"), ("param_type", .ofOption SymbolId.toJson paramType)]

def ofRecord? (kind : String) (r : Record) : Option SymbolKind :=
  let handle (name : String) := r.optional name SymbolId.ofJson?
  let handles (name : String) := r.withDefault name [] (Json.list? SymbolId.ofJson?)
  match kind with
  | "namespace" => some nameSpace
  | "type" => do return type (← handles "type_args") (← handle "element")
  | "method" => do return method (← handle "return_type") (← handles "parameters")
  | "property" => do return property (← handle "value_type")
  | "field" => do return field (← handle "field_type")
  | "delegate" => do
    return delegate (← handle "return_type") (← handles "parameters") (← handles "type_args")
  | "attribute" => some attributeConstructor
  | "parameter" => do return parameter (← handle "param_type")
  | _ => none

end SymbolKind

namespace Symbol

def toJson (s : Symbol) : Json :=
  .obj (("name", .str s.name) :: Json.fieldIf "namespace" .str s.nameSpace ++
    Json.fieldIf "containing_type" SymbolId.toJson s.owner ++ s.kind.fields)

def ofJson? (v : Json) : Option Symbol := do
  let (kind, r) ← Json.tagged? "kind" ["name", "namespace", "containing_type"]
    SymbolKind.shapes (← v.fields?)
  return {
    name := ← r.required "name" Json.string?
    nameSpace := ← r.optional "namespace" Json.string?
    owner := ← r.optional "containing_type" SymbolId.ofJson?
    kind := ← SymbolKind.ofRecord? kind r }

end Symbol

namespace SymbolTable

def toJson (t : SymbolTable) : Json := .ofList Symbol.toJson t.symbols.toList

def ofJson? (v : Json) : Option SymbolTable :=
  (v.list? Symbol.ofJson?).map fun symbols => ⟨symbols.toArray⟩

end SymbolTable

end UsagePolicy
