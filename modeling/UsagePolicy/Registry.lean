import UsagePolicy.Rule

/-! Registries: rules in order, with names that are unique over both families. -/
namespace UsagePolicy

structure Registry where
  namespaceRules : List NamespaceRule := []
  usageRules : List UsageRule := []
deriving DecidableEq

namespace Registry

/-- The registry that allows everything. -/
def empty : Registry := {}

def size (r : Registry) : Nat := r.namespaceRules.length + r.usageRules.length

def isEmpty (r : Registry) : Bool := r.size == 0

/-- The names of all rules, namespace rules first. -/
def names (r : Registry) : List String := r.namespaceRules.map (·.name) ++ r.usageRules.map (·.name)

/-- The entries of a list that occur earlier in it or in `seen`. -/
def repeated (seen : List String) : List String → List String
  | [] => []
  | n :: ns => if n ∈ seen then n :: repeated seen ns else repeated (n :: seen) ns

/-- A registry of the given rules, or an error for each rule whose name is taken. -/
def make (namespaceRules : List NamespaceRule) (usageRules : List UsageRule) :
    Except (List RuleError) Registry :=
  let r : Registry := { namespaceRules, usageRules }
  match repeated [] r.names with
  | [] => .ok r
  | names => .error (names.map .duplicateName)

/-- The rules of one registry before those of another. -/
def merge (a b : Registry) : Except (List RuleError) Registry :=
  make (a.namespaceRules ++ b.namespaceRules) (a.usageRules ++ b.usageRules)

end Registry

/-! ### Verdicts -/

/-- The judgement of a single usage. -/
inductive Verdict where
  | allowed
  /-- Forbidden by the first rule that matches. -/
  | forbidden (rule : String) (descriptor : Descriptor)
deriving DecidableEq

namespace Registry

/-- Judges a namespace inside another one. -/
def judgeNamespace (r : Registry) (outer inner : String) : Verdict :=
  match r.namespaceRules.find? (·.forbids outer inner) with
  | some rule => .forbidden rule.name rule.descriptor
  | none => .allowed

/-- Judges the use of a symbol in a context. -/
def judgeUsage {M : Type} [SymbolModel M] (r : Registry) (m : M) (context used : SymbolId)
    (kind : UsageKind) : Verdict :=
  match r.usageRules.find? (·.forbids m context used kind) with
  | some rule => .forbidden rule.name rule.descriptor
  | none => .allowed

end Registry

end UsagePolicy
