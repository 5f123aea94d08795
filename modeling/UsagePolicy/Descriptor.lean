import UsagePolicy.Category
import UsagePolicy.RuleError
import UsagePolicy.Severity
import UsagePolicy.Template

/-! Descriptors: how a rule reports a forbidden usage. -/
namespace UsagePolicy

structure Descriptor where
  id : String
  severity : Severity := .error
  template : String
  /-- A design document that explains the rule. -/
  docRef : Option String := none
deriving DecidableEq

namespace Descriptor

/-- The descriptor of a category, at error severity. -/
def ofCategory (c : Category) : Descriptor := { id := c.id, template := c.template }

/-- Changes the template; one without both slots is refused. -/
def withTemplate (d : Descriptor) (template : String) : Except RuleError Descriptor :=
  if Template.hasSlots template then .ok { d with template }
  else .error (.invalidTemplate template)

/-- The message about a used name in a context. -/
def render (d : Descriptor) (used context : String) : String :=
  String.ofList (Template.fill used.toList context.toList d.template.toList)

end Descriptor

/-- Changes to a descriptor; what is left out stays as it is. -/
structure DescriptorPatch where
  id : Option String := none
  severity : Option Severity := none
  template : Option String := none
  docRef : Option String := none
deriving DecidableEq

/-- Applies a patch; only the template can be refused. -/
def Descriptor.patch (d : Descriptor) (p : DescriptorPatch) : Except RuleError Descriptor := do
  let d ← match p.template with
    | some template => d.withTemplate template
    | none => .ok d
  return { d with
    id := p.id.getD d.id
    severity := p.severity.getD d.severity
    docRef := p.docRef <|> d.docRef }

end UsagePolicy
