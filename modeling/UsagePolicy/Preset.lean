import UsagePolicy.Registry

/-! Built-in sets of rules. -/
namespace UsagePolicy

inductive Preset where
  /-- No system namespaces inside the product, no forbidden type inside a restricted class, and no
  input and output inside a sensitive method. -/
  | sample
deriving DecidableEq

namespace Preset

def all : List Preset := [sample]

def name : Preset → String
  | sample => "sample"

def ofName? (text : String) : Option Preset := all.find? (·.name == text)

def registry : Preset → Registry
  | sample => {
      namespaceRules := [
        { name := "no-system-in-product", outer := "Company.Product", forbidden := "System" }]
      usageRules := [
        { name := "no-forbidden-type-in-restricted-class"
          category := .type
          context := .declaringType "RestrictedClass"
          used := .named "ForbiddenType"
          sites := Category.type.sites
          descriptor := .ofCategory .type },
        { name := "no-io-in-sensitive-method"
          category := .type
          context := .named "SensitiveMethod"
          used := .namespaceStem "System.IO"
          sites := Category.type.sites
          descriptor := .ofCategory .type }] }

end Preset

end UsagePolicy
