import UsagePolicy.Site

/-! Rule categories. A category settles how a rule reports and where it applies, as far as the rule
does not say so itself. -/
namespace UsagePolicy

inductive Category where
  | nameSpace
  | type
  | generic
  | delegate
  | attributeUse
deriving DecidableEq

namespace Category

def all : List Category := [nameSpace, type, generic, delegate, attributeUse]

/-- The name by which rule documents call a category. -/
def name : Category → String
  | nameSpace => "namespace"
  | type => "type"
  | generic => "generic"
  | delegate => "delegate"
  | attributeUse => "attribute"

def ofName? (text : String) : Option Category := all.find? (·.name == text)

/-- The diagnostic id of a category. -/
def id : Category → String
  | nameSpace => "NS001"
  | type => "TU001"
  | generic => "GT001"
  | delegate => "DL001"
  | attributeUse => "AT001"

def title : Category → String
  | nameSpace => "Namespace usage violation"
  | type => "Type usage violation"
  | generic => "Generic type violation"
  | delegate => "Delegate usage violation"
  | attributeUse => "Attribute usage violation"

/-- The message template of a category: slot 0 is for the used name, slot 1 for the context. -/
def template : Category → String
  | nameSpace => "Namespace '\x7b0\x7d' is not allowed in namespace '\x7b1\x7d'"
  | type => "Usage of type '\x7b0\x7d' is not allowed in '\x7b1\x7d'"
  | generic => "Usage of generic type '\x7b0\x7d' is not allowed in '\x7b1\x7d'"
  | delegate => "Usage of delegate '\x7b0\x7d' is not allowed in '\x7b1\x7d'"
  | attributeUse => "Usage of attribute '\x7b0\x7d' is not allowed in '\x7b1\x7d'"

/-- The kinds of usage that a rule of the category judges. -/
def sites : Category → List UsageKind
  | nameSpace => [.nameSpace]
  | type => UsageKind.ofSymbols
  | generic => [.typeArgument]
  | delegate => [.delegate]
  | attributeUse => [.attributeUse]

end Category

end UsagePolicy
