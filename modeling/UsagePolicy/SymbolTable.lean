import UsagePolicy.SymbolModel

/-! Symbol tables: the symbol model that a tree document carries along. -/
namespace UsagePolicy

structure SymbolTable where
  symbols : Array Symbol := #[]
deriving DecidableEq

namespace SymbolTable

variable (t : SymbolTable)

def size : Nat := t.symbols.size

def isEmpty : Bool := t.symbols.isEmpty

def get? (id : SymbolId) : Option Symbol := t.symbols[id.index.toNat]?

/-- The handle that the next added symbol will have. -/
def nextId : SymbolId := ⟨UInt32.ofNat t.size⟩

def add (s : Symbol) : SymbolTable := ⟨t.symbols.push s⟩

/-- Puts a symbol behind an existing handle, which allows types that refer to themselves. -/
def replace? (id : SymbolId) (s : Symbol) : Option SymbolTable :=
  if id.index.toNat < t.size then some ⟨t.symbols.set! id.index.toNat s⟩ else none

/-! ### Lookups -/

def namespace? (id : SymbolId) : Option Symbol := (t.get? id).filter Symbol.isNamespace

/-- The declaring type of a symbol, if that type resolves as well. -/
def owner? (id : SymbolId) : Option SymbolId := do
  let owner ← (← t.get? id).owner
  let _ ← t.get? owner
  return owner

/-- The return type of a method or delegate, as written: it need not resolve. -/
def returnType? (id : SymbolId) : Option SymbolId := (t.get? id).bind Symbol.returnType?

/-- The types of the parameters of a method or delegate; a parameter without one is left out. -/
def parameterTypes (id : SymbolId) : List SymbolId :=
  (((t.get? id).map Symbol.parameters).getD []).filterMap fun p =>
    (t.get? p).bind Symbol.parameterType?

/-- The type of the value of a property or indexer. -/
def valueType? (id : SymbolId) : Option SymbolId := (t.get? id).bind Symbol.valueType?

/-- The element type of an array type. -/
def elementType? (id : SymbolId) : Option SymbolId := (t.get? id).bind Symbol.elementType?

end SymbolTable

instance : SymbolModel SymbolTable where
  symbol? := SymbolTable.get?
  nameSpace? := SymbolTable.namespace?
  owner? := SymbolTable.owner?
  returnType? := SymbolTable.returnType?
  parameterTypes := SymbolTable.parameterTypes
  valueType? := SymbolTable.valueType?
  elementType? := SymbolTable.elementType?

end UsagePolicy
