import UsagePolicy.Registry

/-! Rule documents: rules as people write them, with most things left to defaults, and their
conversion into a registry. -/
namespace UsagePolicy

/-! ### Entries -/

/-- How a rule is to report; what is left out is up to its category. -/
structure DescriptorEntry where
  id : Option String := none
  message : Option String := none
  severity : Option String := none
  doc : Option String := none
deriving DecidableEq

structure NamespaceEntry where
  name : String
  outer : String
  forbidden : String
  descriptor : DescriptorEntry := {}
deriving DecidableEq

/-- A condition on the context: at most one key is set, and none stands for any context. -/
structure ContextEntry where
  declaringType : Option String := none
  name : Option String := none
  namespaceStem : Option String := none
deriving DecidableEq

/-- A condition on what is used: at most one key is set, and none stands for anything. -/
structure UsedEntry where
  name : Option String := none
  namespaceStem : Option String := none
deriving DecidableEq

structure UsageEntry where
  name : String
  category : String
  context : ContextEntry := {}
  used : UsedEntry := {}
  sites : Option (List UsageKind) := none
  descriptor : DescriptorEntry := {}
deriving DecidableEq

structure RuleDocument where
  namespaceRules : List NamespaceEntry := []
  usageRules : List UsageEntry := []
deriving DecidableEq

/-! ### Errors -/

/-- Why a rule document is refused. -/
inductive LoadError where
  | invalid (place : String) (error : RuleError)
  /-- A matcher sets more than one of its keys. -/
  | ambiguousMatcher (place keys : String)
  | unknownCategory (place value : String)
  | unknownSeverity (place value : String)
  /-- Every entry is valid, but names are repeated. -/
  | duplicates (errors : List RuleError)
deriving DecidableEq

def LoadError.message : LoadError → String
  | invalid place error => place ++ ": " ++ error.message
  | ambiguousMatcher place keys => place ++ ": matcher must set at most one of " ++ keys
  | unknownCategory place value =>
    place ++ ": unknown category `" ++ value ++ "`, expected: type, generic, delegate, attribute"
  | unknownSeverity place value =>
    place ++ ": unknown severity `" ++ value ++ "`, expected: error, warning, info"
  | duplicates errors =>
    "configuration validation errors:\n" ++
      String.intercalate "\n" (errors.map fun e => "  - " ++ e.message)

/-! ### Conversion -/

/-- Says where in a document a rule is wrong. -/
def LoadError.atPlace {α : Type} (place : String) : Except RuleError α → Except LoadError α
  | .ok a => .ok a
  | .error e => .error (.invalid place e)

/-- The descriptor of a rule of some category. -/
def DescriptorEntry.load (category : Category) (place : String) (d : DescriptorEntry) :
    Except LoadError Descriptor := do
  if d.id.any Text.isAllBlank then throw (.invalid (place ++ ".id") (.emptyValue "id"))
  let base ← LoadError.atPlace (place ++ ".message")
    ((Descriptor.ofCategory category).patch { id := d.id, template := d.message, docRef := d.doc })
  match d.severity with
  | none => return base
  | some name =>
    match Severity.ofName? name with
    | some severity => return { base with severity }
    | none => throw (.unknownSeverity place name)

def NamespaceEntry.load (place : String) (e : NamespaceEntry) : Except LoadError NamespaceRule := do
  let descriptor ← e.descriptor.load .nameSpace place
  let rule ← LoadError.atPlace place (NamespaceRule.make e.name e.outer e.forbidden)
  return { rule with descriptor }

def ContextEntry.load (place : String) : ContextEntry → Except LoadError ContextMatcher
  | ⟨none, none, none⟩ => .ok .any
  | ⟨some type, none, none⟩ => .ok (.declaringType type)
  | ⟨none, some name, none⟩ => .ok (.named name)
  | ⟨none, none, some stem⟩ => .ok (.namespaceStem stem)
  | _ => .error (.ambiguousMatcher (place ++ ".context") "declaring-type, name, namespace-prefix")

def UsedEntry.load (place : String) : UsedEntry → Except LoadError UsedMatcher
  | ⟨none, none⟩ => .ok .any
  | ⟨some name, none⟩ => .ok (.named name)
  | ⟨none, some stem⟩ => .ok (.namespaceStem stem)
  | ⟨some _, some _⟩ => .error (.ambiguousMatcher (place ++ ".used") "name, namespace-prefix")

/-- The category of a usage rule; namespaces have rules of their own. -/
def Category.load (place name : String) : Except LoadError Category :=
  match Category.ofName? name with
  | none | some .nameSpace => .error (.unknownCategory (place ++ ".category") name)
  | some category => .ok category

def UsageEntry.load (place : String) (e : UsageEntry) : Except LoadError UsageRule := do
  let category ← Category.load place e.category
  let context ← e.context.load place
  let used ← e.used.load place
  let descriptor ← e.descriptor.load category place
  let rule ← LoadError.atPlace place (UsageRule.make e.name category context used)
  let rule ← match e.sites with
    | none => .ok rule
    | some sites => LoadError.atPlace (place ++ ".sites") (rule.withSites sites)
  return { rule with descriptor }

/-- The place of an entry of a table. -/
def RuleDocument.place (table : String) (index : Nat) : String := table ++ "[" ++ toString index ++ "]"

/-- The registry of a document. The first invalid entry is the error, namespace rules before usage
rules; repeated names come last. -/
def RuleDocument.load (d : RuleDocument) : Except LoadError Registry := do
  let namespaceRules ← d.namespaceRules.zipIdx.mapM fun (e, i) => e.load (place "namespace-rule" i)
  let usageRules ← d.usageRules.zipIdx.mapM fun (e, i) => e.load (place "usage-rule" i)
  match Registry.make namespaceRules usageRules with
  | .ok registry => .ok registry
  | .error errors => .error (.duplicates errors)

end UsagePolicy
