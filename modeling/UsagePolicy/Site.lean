import UsagePolicy.Span
import UsagePolicy.Symbol

/-! Usage sites: the places where a tree uses a namespace or a symbol, and what the rules judge. -/
namespace UsagePolicy

inductive UsageKind where
  /-- A namespace declared or imported inside another one. -/
  | nameSpace
  /-- A type, or the type of a member. -/
  | type
  /-- A type argument found on the way down into a generic type. -/
  | typeArgument
  /-- A delegate at its declaration. -/
  | delegate
  /-- The class of an applied attribute. -/
  | attributeUse
deriving DecidableEq

namespace UsageKind

def all : List UsageKind := [nameSpace, type, typeArgument, delegate, attributeUse]

/-- The kinds that usage rules can apply to. -/
def ofSymbols : List UsageKind := [type, typeArgument, delegate, attributeUse]

def name : UsageKind → String
  | nameSpace => "namespace"
  | type => "type"
  | typeArgument => "type-argument"
  | delegate => "delegate"
  | attributeUse => "attribute"

def ofName? (text : String) : Option UsageKind := all.find? (·.name == text)

end UsageKind

/-- What is used, and from where. Namespaces are kept as text, because nested declarations are
judged by their names as written. -/
inductive Subject where
  | nameSpace (outer inner : String)
  | symbol (context used : SymbolId)
deriving DecidableEq

structure Site where
  subject : Subject
  span : Span
  kind : UsageKind
deriving DecidableEq

namespace Site

def ofNamespaces (outer inner : String) (span : Span) : Site :=
  { subject := .nameSpace outer inner, span, kind := .nameSpace }

/-- The site of a symbol used from a context; there is none unless both are known. -/
def ofSymbols (kind : UsageKind) (context used : Option SymbolId) (span : Span) : List Site :=
  match context, used with
  | some context, some used => [{ subject := .symbol context used, span, kind }]
  | _, _ => []

end Site

end UsagePolicy
