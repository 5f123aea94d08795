import UsagePolicy.Span
import UsagePolicy.Symbol

/-! Nodes of a symbol-annotated syntax tree. Each kind of node carries the spans and handles that
its shape needs. -/
namespace UsagePolicy

/-- A type written in source, with its resolution if the host could bind it. -/
structure TypeRef where
  type : Option SymbolId := none
  span : Span
deriving DecidableEq

inductive NodeKind where
  | compilationUnit
  | nameSpace (name : String) (nameSpan : Span) (symbol : Option SymbolId)
  | typeDeclaration (symbol : Option SymbolId)
  | method (symbol : Option SymbolId) (returnType : TypeRef)
  | property (symbol : Option SymbolId) (type : TypeRef)
  | indexer (symbol : Option SymbolId) (type : TypeRef)
  | field (symbol : Option SymbolId) (type : TypeRef)
  | localVariable (type : TypeRef)
  | parameter (type : TypeRef)
  | baseList (types : List TypeRef)
  | objectCreation (type : Option SymbolId)
  | invocation (method : Option SymbolId)
  | memberAccess (member : Option SymbolId)
  | typeOf (type : TypeRef)
  | cast (type : TypeRef)
  | asType (type : TypeRef)
  | genericName (symbol : Option SymbolId)
  | delegate (symbol : Option SymbolId) (identifierSpan returnTypeSpan parameterListSpan : Span)
  | attributeUse (ctor : Option SymbolId) (nameSpan : Span)
  | lambda (signature : Option SymbolId)
  | usingDirective (imported : Option SymbolId) (nameSpan : Span)
  | arrayCreation (element : TypeRef)
  | implicitArrayCreation (arrayType : Option SymbolId)
  | defaultValue (type : TypeRef)
  /-- Anything without usages of its own; the label is for people. -/
  | other (label : Option String)
deriving DecidableEq

namespace NodeKind

def name : NodeKind → String
  | compilationUnit => "compilation-unit"
  | nameSpace .. => "namespace"
  | typeDeclaration .. => "type-declaration"
  | method .. => "method"
  | property .. => "property"
  | indexer .. => "indexer"
  | field .. => "field"
  | localVariable .. => "local-variable"
  | parameter .. => "parameter"
  | baseList .. => "base-list"
  | objectCreation .. => "object-creation"
  | invocation .. => "invocation"
  | memberAccess .. => "member-access"
  | typeOf .. => "type-of"
  | cast .. => "cast"
  | asType .. => "as"
  | genericName .. => "generic-name"
  | delegate .. => "delegate"
  | attributeUse .. => "attribute"
  | lambda .. => "lambda"
  | usingDirective .. => "using"
  | arrayCreation .. => "array-creation"
  | implicitArrayCreation .. => "implicit-array-creation"
  | defaultValue .. => "default"
  | other .. => "other"

/-- The symbol that a declaration makes the context of itself and of all below it. The outer option
tells declarations from other nodes, the inner one resolved declarations from unresolved ones. -/
def declared? : NodeKind → Option (Option SymbolId)
  | nameSpace _ _ symbol => some symbol
  | typeDeclaration symbol => some symbol
  | method symbol _ => some symbol
  | property symbol _ => some symbol
  | indexer symbol _ => some symbol
  | field symbol _ => some symbol
  | delegate symbol _ _ _ => some symbol
  | _ => none

end NodeKind

structure Node where
  kind : NodeKind
  span : Span := {}
  children : List Node := []

namespace Node

mutual
/-- The number of nodes in the tree below and including a node. -/
def size : Node → Nat
  | ⟨_, _, children⟩ => 1 + sizeAll children

def sizeAll : List Node → Nat
  | [] => 0
  | n :: ns => n.size + sizeAll ns
end

/-- Puts a node under `count` nodes that mean nothing. -/
def wrap : (count : Nat) → Node → Node
  | 0, n => n
  | count + 1, n => wrap count { kind := .other none, span := .start 1 1, children := [n] }

end Node

end UsagePolicy
