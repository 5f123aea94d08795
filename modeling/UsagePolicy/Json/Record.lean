import UsagePolicy.Json.Basic

/-! Records in JSON: objects with known fields, or arrays of the fields in their order. Choices are
written by their names. Values may also come from other formats, whose conventions differ a little. -/
namespace UsagePolicy

/-- The fields of a record, each at most once. -/
abbrev Record := List (String × Json)

/-- Whether no name stands twice. -/
def Record.isProper (r : Record) : Bool := decide (r.map (·.1)).Nodup

namespace Json

/-! ### Conventions of formats -/

def isNull : Json → Bool
  | .null => true
  | _ => false

def isEmptyContainer : Json → Bool
  | .obj [] | .arr [] => true
  | _ => false

/-- Where formats differ. -/
structure Dialect where
  /-- Whether a value stands for the empty content of a choice. -/
  isNothing : Json → Bool
  /-- Whether an array that stands for a record may go on behind its last field. -/
  allowsSurplus : Bool

/-- JSON itself. -/
def Dialect.json : Dialect := { isNothing := isNull, allowsSurplus := false }

/-- TOML, which has no null. -/
def Dialect.toml : Dialect := { isNothing := isEmptyContainer, allowsSurplus := true }

/-! ### Records -/

/-- The known fields of an object; a repeated one is refused, unknown ones are left out. -/
def known? (names : List String) (fields : List (String × Json)) : Option Record :=
  let r : Record := fields.filter fun (name, _) => names.contains name
  if r.isProper then some r else none

/-- A record written as an object or as an array; the array may end early. -/
def record? (d : Dialect) (names : List String) : Json → Option Record
  | .obj fields => known? names fields
  | .arr items =>
    if d.allowsSurplus || items.length ≤ names.length then some (names.zip items) else none
  | _ => none

/-- A record that has known fields only. -/
def closedRecord? (d : Dialect) (names : List String) (v : Json) : Option Record :=
  match v with
  | .obj fields => if fields.all fun (name, _) => names.contains name then v.record? d names else none
  | _ => v.record? d names

/-! ### Choices -/

/-- One of finitely many things: its name, or an object whose only field has that name and holds
nothing. -/
def choice? {α : Type} (d : Dialect) (ofName? : String → Option α) : Json → Option α
  | .str name => ofName? name
  | .obj [(name, v)] => if d.isNothing v then ofName? name else none
  | _ => none

end Json

namespace Record

variable {α : Type} (r : Record)

/-- A field that has to be there. -/
def required (name : String) (decode : Json → Option α) : Option α :=
  (r.lookup name).bind decode

/-- A field that may be missing or null. -/
def optional (name : String) (decode : Json → Option α) : Option (Option α) :=
  match r.lookup name with
  | none | some .null => some none
  | some v => (decode v).map some

/-- A field that may be missing, but not null. -/
def withDefault (name : String) (value : α) (decode : Json → Option α) : Option α :=
  match r.lookup name with
  | none => some value
  | some v => decode v

end Record

end UsagePolicy
