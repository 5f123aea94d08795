import UsagePolicy.Text

/-! Message templates. A template has two slots, written as the digits 0 and 1 in braces; they are
filled in one pass from left to right, so that what is put into a slot is never looked at again. -/
namespace UsagePolicy.Template

/-- The slot of the used name. -/
def usedSlot : List Char := ['\x7b', '0', '\x7d']

/-- The slot of the context name. -/
def contextSlot : List Char := ['\x7b', '1', '\x7d']

/-- Puts the two names into all slots of a template. -/
def fill (used context : List Char) : List Char → List Char
  | '\x7b' :: '0' :: '\x7d' :: cs => used ++ fill used context cs
  | '\x7b' :: '1' :: '\x7d' :: cs => context ++ fill used context cs
  | c :: cs => c :: fill used context cs
  | [] => []

/-- Whether a template has both slots. -/
def hasSlots (template : String) : Bool :=
  Text.occurs usedSlot template.toList && Text.occurs contextSlot template.toList

end UsagePolicy.Template
