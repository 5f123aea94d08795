import UsagePolicy.Document.Reports
import UsagePolicy.RuleDocument
import UsagePolicy.Toml.Parse

/-! Rule documents as JSON values and as TOML text. -/
namespace UsagePolicy

namespace DescriptorEntry

def fieldNames : List String := ["id", "message", "severity", "doc"]

def ofRecord? (r : Record) : Option DescriptorEntry := do
  return {
    id := ← r.optional "id" Json.string?
    message := ← r.optional "message" Json.string?
    severity := ← r.optional "severity" Json.string?
    doc := ← r.optional "doc" Json.string? }

end DescriptorEntry

namespace NamespaceEntry

def ofJson? (v : Json) : Option NamespaceEntry := do
  let r ← Json.known? (["name", "outer", "forbidden"] ++ DescriptorEntry.fieldNames) (← v.fields?)
  return {
    name := ← r.required "name" Json.string?
    outer := ← r.required "outer" Json.string?
    forbidden := ← r.required "forbidden" Json.string?
    descriptor := ← DescriptorEntry.ofRecord? r }

end NamespaceEntry

namespace ContextEntry

def ofValue? (d : Json.Dialect) (v : Json) : Option ContextEntry := do
  let r ← v.closedRecord? d ["declaring-type", "name", "namespace-prefix"]
  return {
    declaringType := ← r.optional "declaring-type" Json.string?
    name := ← r.optional "name" Json.string?
    namespaceStem := ← r.optional "namespace-prefix" Json.string? }

end ContextEntry

namespace UsedEntry

def ofValue? (d : Json.Dialect) (v : Json) : Option UsedEntry := do
  let r ← v.closedRecord? d ["name", "namespace-prefix"]
  return {
    name := ← r.optional "name" Json.string?
    namespaceStem := ← r.optional "namespace-prefix" Json.string? }

end UsedEntry

namespace UsageEntry

def ofValue? (d : Json.Dialect) (v : Json) : Option UsageEntry := do
  let r ← Json.known?
    (["name", "category", "context", "used", "sites"] ++ DescriptorEntry.fieldNames) (← v.fields?)
  return {
    name := ← r.required "name" Json.string?
    category := ← r.required "category" Json.string?
    context := ← r.withDefault "context" {} (ContextEntry.ofValue? d)
    used := ← r.withDefault "used" {} (UsedEntry.ofValue? d)
    sites := ← r.optional "sites" (Json.list? (Json.choice? d UsageKind.ofName?))
    descriptor := ← DescriptorEntry.ofRecord? r }

end UsageEntry

namespace RuleDocument

def ofValue? (d : Json.Dialect) (v : Json) : Option RuleDocument := do
  let r ← v.record? d ["namespace-rule", "usage-rule"]
  return {
    namespaceRules := ← r.withDefault "namespace-rule" [] (Json.list? NamespaceEntry.ofJson?)
    usageRules := ← r.withDefault "usage-rule" [] (Json.list? (UsageEntry.ofValue? d)) }

def ofJson? : Json → Option RuleDocument := ofValue? .json

/-- The rules in a TOML document; its other parts are ignored. -/
def ofToml? (content : String) : Option RuleDocument :=
  (Toml.parse? content).bind (ofValue? .toml)

end RuleDocument

end UsagePolicy
