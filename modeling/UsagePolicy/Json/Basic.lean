/-! JSON values. Numbers are exact naturals, which is all that documents of this library contain;
any other number is kept as it was written. Objects keep their fields in order, repeated ones too. -/
namespace UsagePolicy

inductive Number where
  | natural (n : Nat)
  | other (literal : String)
deriving DecidableEq

def Number.text : Number → String
  | .natural n => toString n
  | .other literal => literal

inductive Json where
  | null
  | bool (b : Bool)
  | num (n : Number)
  | str (s : String)
  | arr (items : List Json)
  | obj (fields : List (String × Json))

namespace Json

def ofNat (n : Nat) : Json := .num (.natural n)

/-- A missing value is written as null. -/
def ofOption {α : Type} (encode : α → Json) : Option α → Json
  | none => .null
  | some a => encode a

def ofList {α : Type} (encode : α → Json) (as : List α) : Json := .arr (as.map encode)

/-- The field of an object that is there only if the value is. -/
def fieldIf {α : Type} (name : String) (encode : α → Json) : Option α → List (String × Json)
  | none => []
  | some a => [(name, encode a)]

/-! ### Simple values -/

def string? : Json → Option String
  | .str s => some s
  | _ => none

def bool? : Json → Option Bool
  | .bool b => some b
  | _ => none

/-- A natural number below a bound. -/
def below? (bound : Nat) : Json → Option Nat
  | .num (.natural n) => if n < bound then some n else none
  | _ => none

def uint64? (v : Json) : Option UInt64 := (v.below? (Nat.pow 2 64)).map UInt64.ofNat

def items? : Json → Option (List Json)
  | .arr items => some items
  | _ => none

/-- A list, all of whose entries can be read. -/
def list? {α : Type} (decode : Json → Option α) (v : Json) : Option (List α) :=
  v.items?.bind (·.mapM decode)

def fields? : Json → Option (List (String × Json))
  | .obj fields => some fields
  | _ => none

/-- A field of an object. -/
def get? (v : Json) (name : String) : Option Json := v.fields?.bind (·.lookup name)

end Json

end UsagePolicy
