import UsagePolicy.Descriptor
import UsagePolicy.SymbolModel

/-! Rules. A namespace rule forbids namespaces inside others by the stems of their names; a usage
rule forbids symbols inside contexts by one matcher for each. The smart constructors refuse rules
that could never be told apart or never apply. -/
namespace UsagePolicy

/-! ### Validation -/

namespace RuleError

/-- Rules have names that are not blank. -/
def requireName (name : String) : Except RuleError Unit :=
  if Text.isAllBlank name then .error .emptyName else .ok ()

/-- Stems and the values of matchers are not empty. -/
def requireValue (field value : String) : Except RuleError Unit :=
  if value.isEmpty then .error (.emptyValue field) else .ok ()

end RuleError

/-! ### Namespace rules -/

structure NamespaceRule where
  name : String
  /-- Namespaces whose names start like this are guarded. -/
  outer : String
  /-- Namespaces whose names start like this are kept out. -/
  forbidden : String
  descriptor : Descriptor := .ofCategory .nameSpace
deriving DecidableEq

namespace NamespaceRule

def make (name outer forbidden : String) : Except RuleError NamespaceRule := do
  RuleError.requireName name
  RuleError.requireValue "outer" outer
  RuleError.requireValue "forbidden" forbidden
  return { name, outer, forbidden }

/-- Whether the rule forbids `inner` inside `outer`. -/
def forbids (r : NamespaceRule) (outer inner : String) : Bool :=
  Text.startsWith outer r.outer && Text.startsWith inner r.forbidden

end NamespaceRule

/-! ### Matchers -/

open SymbolModel

variable {M : Type} [SymbolModel M]

/-- A condition on the context of a usage. -/
inductive ContextMatcher where
  | any
  /-- The type that declares the context has this name. -/
  | declaringType (value : String)
  /-- The context itself has this name. -/
  | named (value : String)
  /-- The namespace of the context starts like this. -/
  | namespaceStem (stem : String)
deriving DecidableEq

namespace ContextMatcher

/-- The condition; an unresolved context meets none. -/
def accepts (m : M) (context : SymbolId) (matcher : ContextMatcher) : Bool :=
  match symbol? m context with
  | none => false
  | some symbol =>
    match matcher with
    | any => true
    | declaringType value => ((owner? m context).bind (symbol? m)).any (·.name == value)
    | named value => symbol.name == value
    | namespaceStem stem => (namespaceOf m symbol).any (Text.startsWith · stem)

def text : ContextMatcher → String
  | any => "any context"
  | declaringType value => "declared in type `" ++ value ++ "`"
  | named value => "context named `" ++ value ++ "`"
  | namespaceStem stem => "context in `" ++ stem ++ "*`"

def check : ContextMatcher → Except RuleError Unit
  | any => .ok ()
  | declaringType value => RuleError.requireValue "declaring-type" value
  | named value => RuleError.requireValue "name" value
  | namespaceStem stem => RuleError.requireValue "namespace-prefix" stem

end ContextMatcher

/-- A condition on the symbol that is used. -/
inductive UsedMatcher where
  | any
  | named (value : String)
  /-- The namespace of the symbol starts like this. -/
  | namespaceStem (stem : String)
deriving DecidableEq

namespace UsedMatcher

/-- The condition; an unresolved symbol meets none. -/
def accepts (m : M) (used : SymbolId) (matcher : UsedMatcher) : Bool :=
  match symbol? m used with
  | none => false
  | some symbol =>
    match matcher with
    | any => true
    | named value => symbol.name == value
    | namespaceStem stem => (namespaceOf m symbol).any (Text.startsWith · stem)

def text : UsedMatcher → String
  | any => "anything"
  | named value => "`" ++ value ++ "`"
  | namespaceStem stem => "`" ++ stem ++ "*`"

def check : UsedMatcher → Except RuleError Unit
  | any => .ok ()
  | named value => RuleError.requireValue "name" value
  | namespaceStem stem => RuleError.requireValue "namespace-prefix" stem

end UsedMatcher

/-! ### Usage rules -/

structure UsageRule where
  name : String
  category : Category
  context : ContextMatcher
  used : UsedMatcher
  /-- The kinds of usage that the rule judges. -/
  sites : List UsageKind
  descriptor : Descriptor
deriving DecidableEq

namespace UsageRule

/-- A usage rule with the sites and the descriptor of its category. -/
def make (name : String) (category : Category) (context : ContextMatcher) (used : UsedMatcher) :
    Except RuleError UsageRule := do
  RuleError.requireName name
  if category = .nameSpace then throw (.namespaceSite name)
  context.check
  used.check
  return { name, category, context, used, sites := category.sites, descriptor := .ofCategory category }

/-- Restricts the kinds of usage that a rule judges. -/
def withSites (r : UsageRule) (sites : List UsageKind) : Except RuleError UsageRule :=
  if sites.isEmpty then .error (.noSites r.name)
  else if sites.contains .nameSpace then .error (.namespaceSite r.name)
  else .ok { r with sites }

/-- Whether the rule forbids the use of a symbol in a context. -/
def forbids (m : M) (context used : SymbolId) (kind : UsageKind) (r : UsageRule) : Bool :=
  r.sites.contains kind && r.context.accepts m context && r.used.accepts m used

end UsageRule

end UsagePolicy
