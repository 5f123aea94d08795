/-! What can be wrong with a rule. -/
namespace UsagePolicy

inductive RuleError where
  | emptyName
  /-- A namespace stem or the value of a matcher is empty. -/
  | emptyValue (field : String)
  /-- A message template lacks a slot. -/
  | invalidTemplate (template : String)
  /-- A usage rule applies nowhere. -/
  | noSites (rule : String)
  /-- A usage rule is made to judge namespaces. -/
  | namespaceSite (rule : String)
  | duplicateName (name : String)
deriving DecidableEq

namespace RuleError

def message : RuleError → String
  | emptyName => "rule name must not be empty"
  | emptyValue field => "`" ++ field ++ "` must not be empty"
  | invalidTemplate template =>
    "message template `" ++ template ++ "` must contain `\x7b0\x7d` and `\x7b1\x7d`"
  | noSites rule => "usage rule `" ++ rule ++ "` applies to no usage kinds"
  | namespaceSite rule =>
    "usage rule `" ++ rule ++ "` cannot apply to namespace usages; use a namespace rule"
  | duplicateName name => "duplicate rule name `" ++ name ++ "`"

end RuleError

end UsagePolicy
