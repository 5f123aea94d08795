import UsagePolicy.Node

/-! Scopes: the declarations around a node. -/
namespace UsagePolicy

structure Scope where
  /-- The symbol of the innermost declaration; none at the top, or if that one is unresolved. -/
  context : Option SymbolId := none
  /-- The symbol of the innermost namespace declaration. -/
  nameSpace : Option SymbolId := none
  /-- The name of the innermost namespace declaration, as written. -/
  namespaceName : Option String := none
deriving DecidableEq

namespace Scope

/-- The scope at the top of a file. -/
def top : Scope := {}

/-- The scope of the children of a node. -/
def enter (s : Scope) (n : Node) : Scope :=
  let context := n.kind.declared?.getD s.context
  match n.kind with
  | .nameSpace name _ symbol => { context, nameSpace := symbol, namespaceName := some name }
  | _ => { s with context }

end Scope

end UsagePolicy
