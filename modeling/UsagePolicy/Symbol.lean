import UsagePolicy.Text

/-! Symbols: the named entities that a host has resolved for a tree. Symbols refer to one another by
handles into a table; a handle may dangle, which means that the host could not resolve it. -/
namespace UsagePolicy

/-- A handle into a symbol table. -/
structure SymbolId where
  index : UInt32
deriving DecidableEq

/-- The handle as messages show it. -/
def SymbolId.label (id : SymbolId) : String := "#" ++ toString id.index.toNat

inductive SymbolKind where
  | nameSpace
  /-- A class, struct, interface, enum or array; `element` is set for arrays only. -/
  | type (typeArgs : List SymbolId) (element : Option SymbolId)
  /-- A method, a constructor or the signature of a lambda. -/
  | method (returnType : Option SymbolId) (parameters : List SymbolId)
  | property (valueType : Option SymbolId)
  | field (fieldType : Option SymbolId)
  | delegate (returnType : Option SymbolId) (parameters typeArgs : List SymbolId)
  /-- The constructor of an applied attribute; its owner is the attribute class. -/
  | attributeConstructor
  | parameter (paramType : Option SymbolId)
deriving DecidableEq

structure Symbol where
  name : String
  /-- The dotted path of the namespace that contains the symbol. -/
  nameSpace : Option String := none
  /-- The type that declares the symbol. -/
  owner : Option SymbolId := none
  kind : SymbolKind
deriving DecidableEq

namespace Symbol

/-- A type without arguments. -/
def ofTypeName (name : String) : Symbol := { name, kind := .type [] none }

/-- The namespace written as a dotted path: what stands before the last dot contains it. -/
def ofNamespacePath (path : String) : Symbol :=
  match Text.atLast '.' path.toList with
  | some (parent, name) =>
    { name := String.ofList name, nameSpace := some (String.ofList parent), kind := .nameSpace }
  | none => { name := path, kind := .nameSpace }

/-- The name behind its namespace; an empty namespace counts as none. -/
def qualifiedName (s : Symbol) : String :=
  match s.nameSpace with
  | some parent => if parent.isEmpty then s.name else parent ++ "." ++ s.name
  | none => s.name

/-- The type arguments of a constructed generic type or delegate. -/
def typeArgs (s : Symbol) : List SymbolId :=
  match s.kind with
  | .type args _ => args
  | .delegate _ _ args => args
  | _ => []

/-- The return type of a method or delegate. -/
def returnType? (s : Symbol) : Option SymbolId :=
  match s.kind with
  | .method returnType _ => returnType
  | .delegate returnType _ _ => returnType
  | _ => none

/-- The parameters of a method or delegate. -/
def parameters (s : Symbol) : List SymbolId :=
  match s.kind with
  | .method _ parameters => parameters
  | .delegate _ parameters _ => parameters
  | _ => []

/-- The type of a parameter. -/
def parameterType? (s : Symbol) : Option SymbolId :=
  match s.kind with
  | .parameter paramType => paramType
  | _ => none

/-- The type of the value of a property or indexer. -/
def valueType? (s : Symbol) : Option SymbolId :=
  match s.kind with
  | .property valueType => valueType
  | _ => none

/-- The element type of an array type. -/
def elementType? (s : Symbol) : Option SymbolId :=
  match s.kind with
  | .type _ element => element
  | _ => none

def isMethod (s : Symbol) : Bool :=
  match s.kind with
  | .method .. => true
  | _ => false

def isNamespace (s : Symbol) : Bool :=
  match s.kind with
  | .nameSpace => true
  | _ => false

/-- Whether the symbol is of a kind that can have type arguments. -/
def isGeneric (s : Symbol) : Bool :=
  match s.kind with
  | .type .. | .delegate .. => true
  | _ => false

end Symbol

end UsagePolicy
