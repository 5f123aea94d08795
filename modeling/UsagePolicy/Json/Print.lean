import UsagePolicy.Json.Basic

/-! JSON text of values: on one line, or indented by two blanks a level. -/
namespace UsagePolicy.Json

/-! ### Strings -/

def hexDigit (n : Nat) : Char := (Nat.toDigits 16 n).getLastD '0'

/-- A character as it stands between quotes. -/
def escape (c : Char) : List Char :=
  match c with
  | '"' => ['\\', '"']
  | '\\' => ['\\', '\\']
  | '\n' => ['\\', 'n']
  | '\r' => ['\\', 'r']
  | '\t' => ['\\', 't']
  | c =>
    if c.toNat = 8 then ['\\', 'b']
    else if c.toNat = 12 then ['\\', 'f']
    else if c.toNat < 0x20 then ['\\', 'u', '0', '0', hexDigit (c.toNat / 16), hexDigit (c.toNat % 16)]
    else [c]

def quote (s : String) : String := "\"" ++ String.ofList (s.toList.flatMap escape) ++ "\""

/-! ### One line -/

mutual
/-- The text of a value without any space. -/
def compact : Json → String
  | .null => "null"
  | .bool b => if b then "true" else "false"
  | .num n => n.text
  | .str s => quote s
  | .arr items => "[" ++ String.intercalate "," (compactItems items) ++ "]"
  | .obj fields => "\x7b" ++ String.intercalate "," (compactFields fields) ++ "\x7d"

def compactItems : List Json → List String
  | [] => []
  | v :: vs => v.compact :: compactItems vs

def compactFields : List (String × Json) → List String
  | [] => []
  | (name, v) :: vs => (quote name ++ ":" ++ v.compact) :: compactFields vs
end

/-! ### Indented -/

def newline (depth : Nat) : String := "\n" ++ String.ofList (List.replicate (2 * depth) ' ')

/-- Entries on lines of their own between brackets; without entries there is one line. -/
def bracket (opening closing : String) (depth : Nat) (entries : List String) : String :=
  if entries.isEmpty then opening ++ closing
  else
    opening ++ newline (depth + 1) ++ String.intercalate ("," ++ newline (depth + 1)) entries ++
      newline depth ++ closing

mutual
/-- The text of a value that starts on a line at some depth. -/
def prettyAt (depth : Nat) : Json → String
  | .arr items => bracket "[" "]" depth (prettyItems (depth + 1) items)
  | .obj fields => bracket "\x7b" "\x7d" depth (prettyFields (depth + 1) fields)
  | v => v.compact

def prettyItems (depth : Nat) : List Json → List String
  | [] => []
  | v :: vs => v.prettyAt depth :: prettyItems depth vs

def prettyFields (depth : Nat) : List (String × Json) → List String
  | [] => []
  | (name, v) :: vs => (quote name ++ ": " ++ v.prettyAt depth) :: prettyFields depth vs
end

def pretty (v : Json) : String := v.prettyAt 0

end UsagePolicy.Json
