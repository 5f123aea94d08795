import UsagePolicy.Symbol

/-! Symbol models: what answers questions about the symbols around a tree. Every answer may be
missing: a dangling handle leads to nothing, and the caller skips the usage. -/
namespace UsagePolicy

/-- The questions. A host may answer them in its own way. -/
class SymbolModel (M : Type) where
  symbol? : M → SymbolId → Option Symbol
  /-- The symbol behind a handle that has to be a namespace. -/
  nameSpace? : M → SymbolId → Option Symbol
  /-- The type that declares a symbol. -/
  owner? : M → SymbolId → Option SymbolId
  /-- The return type of a method or delegate. -/
  returnType? : M → SymbolId → Option SymbolId
  /-- The types of the parameters of a method or delegate. -/
  parameterTypes : M → SymbolId → List SymbolId
  /-- The type of the value of a property or indexer. -/
  valueType? : M → SymbolId → Option SymbolId
  /-- The element type of an array type. -/
  elementType? : M → SymbolId → Option SymbolId

namespace SymbolModel

variable {M : Type} [SymbolModel M] (m : M)

def isMethod (id : SymbolId) : Bool := (symbol? m id).any Symbol.isMethod

/-- Whether a handle leads to a symbol of a kind that can have type arguments. -/
def isGeneric (id : SymbolId) : Bool := (symbol? m id).any Symbol.isGeneric

/-- The namespace in which a symbol lives. Members without one of their own take that of the type
that declares them. -/
def namespaceOf (s : Symbol) : Option String :=
  match s.kind with
  | .nameSpace | .type .. | .delegate .. => s.nameSpace
  | _ => s.nameSpace <|> (s.owner.bind (symbol? m)).bind Symbol.nameSpace

end SymbolModel

end UsagePolicy
