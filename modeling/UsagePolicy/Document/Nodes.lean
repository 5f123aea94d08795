import UsagePolicy.Document.Symbols
import UsagePolicy.Json.Draft
import UsagePolicy.Node

/-! Nodes as JSON. -/
namespace UsagePolicy

namespace Span

def fieldNames : List String := ["line", "column", "offset", "length"]

def fields (s : Span) : List (String × Json) :=
  [("line", .ofNat s.line.toNat), ("column", .ofNat s.column.toNat),
    ("offset", .ofNat s.offset.toNat), ("length", .ofNat s.length.toNat)]

def toJson (s : Span) : Json := .obj s.fields

def ofJson? (v : Json) : Option Span := do
  let r ← v.record? .json fieldNames
  return {
    line := ← r.required "line" Json.uint64?
    column := ← r.required "column" Json.uint64?
    offset := ← r.withDefault "offset" 0 Json.uint64?
    length := ← r.withDefault "length" 0 Json.uint64? }

end Span

namespace TypeRef

def toJson (t : TypeRef) : Json :=
  .obj [("ty", .ofOption SymbolId.toJson t.type), ("span", t.span.toJson)]

def ofJson? (v : Json) : Option TypeRef := do
  let r ← v.record? .json ["ty", "span"]
  return {
    type := ← r.optional "ty" SymbolId.ofJson?
    span := ← r.required "span" Span.ofJson? }

end TypeRef

namespace NodeKind

def shapes : Json.Shapes :=
  [("compilation-unit", []), ("namespace", ["name", "name_span", "symbol"]),
    ("type-declaration", ["symbol"]), ("method", ["symbol", "return_type"]),
    ("property", ["symbol", "type"]), ("indexer", ["symbol", "type"]), ("field", ["symbol", "type"]),
    ("local-variable", ["type"]), ("parameter", ["type"]), ("base-list", ["types"]),
    ("object-creation", ["ty"]), ("invocation", ["method"]), ("member-access", ["member"]),
    ("type-of", ["type"]), ("cast", ["type"]), ("as", ["type"]), ("generic-name", ["symbol"]),
    ("delegate", ["symbol", "identifier_span", "return_type_span", "parameter_list_span"]),
    ("attribute", ["constructor", "name_span"]), ("lambda", ["signature"]),
    ("using", ["namespace", "name_span"]), ("array-creation", ["element"]),
    ("implicit-array-creation", ["array_type"]), ("default", ["type"]), ("other", ["label"])]

/-- The fields of a kind without its tag. -/
def fields (k : NodeKind) : List (String × Json) :=
  let handle (name : String) (id : Option SymbolId) := (name, Json.ofOption SymbolId.toJson id)
  match k with
  | compilationUnit => []
  | nameSpace name nameSpan symbol =>
    [("name", .str name), ("name_span", nameSpan.toJson), handle "symbol" symbol]
  | typeDeclaration symbol => [handle "symbol" symbol]
  | method symbol returnType => [handle "symbol" symbol, ("return_type", returnType.toJson)]
  | property symbol type | indexer symbol type | field symbol type =>
    [handle "symbol" symbol, ("type", type.toJson)]
  | localVariable type | parameter type | typeOf type | cast type | asType type
  | defaultValue type => [("type", type.toJson)]
  | baseList types => [("types", .ofList TypeRef.toJson types)]
  | objectCreation type => [handle "ty" type]
  | invocation called => [handle "method" called]
  | memberAccess member => [handle "member" member]
  | genericName symbol => [handle "symbol" symbol]
  | delegate symbol identifierSpan returnTypeSpan parameterListSpan =>
    [handle "symbol" symbol, ("identifier_span", identifierSpan.toJson),
      ("return_type_span", returnTypeSpan.toJson), ("parameter_list_span", parameterListSpan.toJson)]
  | attributeUse ctor nameSpan => [handle "constructor" ctor, ("name_span", nameSpan.toJson)]
  | lambda signature => [handle "signature" signature]
  | usingDirective imported nameSpan => [handle "namespace" imported, ("name_span", nameSpan.toJson)]
  | arrayCreation element => [("element", element.toJson)]
  | implicitArrayCreation arrayType => [handle "array_type" arrayType]
  | other label => [("label", .ofOption .str label)]

def ofRecord? (kind : String) (r : Record) : Option NodeKind :=
  let handle (name : String) := r.optional name SymbolId.ofJson?
  let type := r.required "type" TypeRef.ofJson?
  let span (name : String) := r.required name Span.ofJson?
  match kind with
  | "compilation-unit" => some compilationUnit
  | "namespace" => do
    return nameSpace (← r.required "name" Json.string?) (← span "name_span") (← handle "symbol")
  | "type-declaration" => do return typeDeclaration (← handle "symbol")
  | "method" => do return method (← handle "symbol") (← r.required "return_type" TypeRef.ofJson?)
  | "property" => do return property (← handle "symbol") (← type)
  | "indexer" => do return indexer (← handle "symbol") (← type)
  | "field" => do return field (← handle "symbol") (← type)
  | "local-variable" => type.map localVariable
  | "parameter" => type.map parameter
  | "base-list" => (r.required "types" (Json.list? TypeRef.ofJson?)).map baseList
  | "object-creation" => (handle "ty").map objectCreation
  | "invocation" => (handle "method").map invocation
  | "member-access" => (handle "member").map memberAccess
  | "type-of" => type.map typeOf
  | "cast" => type.map cast
  | "as" => type.map asType
  | "generic-name" => (handle "symbol").map genericName
  | "delegate" => do
    return delegate (← handle "symbol") (← span "identifier_span") (← span "return_type_span")
      (← span "parameter_list_span")
  | "attribute" => do return attributeUse (← handle "constructor") (← span "name_span")
  | "lambda" => (handle "signature").map lambda
  | "using" => do return usingDirective (← handle "namespace") (← span "name_span")
  | "array-creation" => (r.required "element" TypeRef.ofJson?).map arrayCreation
  | "implicit-array-creation" => (handle "array_type").map implicitArrayCreation
  | "default" => type.map defaultValue
  | "other" => (r.optional "label" Json.string?).map other
  | _ => none

end NodeKind

namespace Node

mutual
def toJson : Node → Json
  | ⟨kind, span, children⟩ =>
    .obj (("node", .str kind.name) :: kind.fields ++ [("span", span.toJson)] ++
      match children with
      | [] => []
      | n :: ns => [("children", .arr (toJsonAll (n :: ns)))])

def toJsonAll : List Node → List Json
  | [] => []
  | n :: ns => n.toJson :: toJsonAll ns
end

/-- The kind and the span of a node. -/
def head? (fields : List (String × Json)) : Option (NodeKind × Span) := do
  let (kind, r) ← Json.tagged? "node" ["span", "children"] NodeKind.shapes fields
  return (← NodeKind.ofRecord? kind r, ← r.withDefault "span" {} Span.ofJson?)

mutual
def ofJson? : Json → Option Node
  | .obj fields => do
    let (kind, span) ← head? fields
    return { kind, span, children := ← childrenOf? fields }
  | _ => none

/-- The children among the fields of a node. -/
def childrenOf? : List (String × Json) → Option (List Node)
  | [] => some []
  | (name, v) :: rest =>
    if name = "children" then
      match v with
      | .arr items => ofJsonAll? items
      | _ => none
    else childrenOf? rest

def ofJsonAll? : List Json → Option (List Node)
  | [] => some []
  | v :: vs => do return (← ofJson? v) :: (← ofJsonAll? vs)
end

/-! ### Text -/

mutual
/-- Drops the unknown fields of the spans of a node and of all below it. -/
def outline : Json.Draft → Json.Draft
  | .obj fields => .obj (outlineFields fields)
  | d => d

def outlineFields : List (Option String × Json.Draft) → List (Option String × Json.Draft)
  | [] => []
  | (name, d) :: rest =>
    let d :=
      if name = some "span" then d.keep Span.fieldNames
      else if name = some "children" then
        match d with
        | .arr items => .arr (outlineAll items)
        | d => d
      else d
    (name, d) :: outlineFields rest

def outlineAll : List Json.Draft → List Json.Draft
  | [] => []
  | d :: ds => outline d :: outlineAll ds
end

def ofText? (input : String) : Option Node := (Json.parseOutline? outline input).bind ofJson?

end Node

end UsagePolicy
