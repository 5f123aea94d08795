import UsagePolicy.Text

/-! Switches of a command line. The words are read from left to right, and the first thing that is
wrong with them, or that asks for help or the version, ends the reading. -/
namespace UsagePolicy.Cli

/-- What a switch does. -/
inductive Effect where
  | flag
  /-- Takes a value of some form; some switches may be given more than once. -/
  | value (accepts : String → Bool) (isRepeatable : Bool)
  | help
  | version

structure Switch where
  long : String
  short : Option Char := none
  effect : Effect := .flag

/-- Why reading ends early. -/
inductive Stop where
  /-- The words make no sense. -/
  | usage
  | help
  | version
deriving DecidableEq

/-- What has been read. -/
structure Reading where
  /-- The switches with their values; flags have an empty one. -/
  given : List (String × String) := []
  /-- All other words. -/
  words : List String := []

namespace Reading

def has (r : Reading) (name : String) : Bool := (r.given.lookup name).isSome

def value? (r : Reading) (name : String) : Option String := r.given.lookup name

def values (r : Reading) (name : String) : List String :=
  r.given.filterMap fun (n, v) => if n = name then some v else none

/-- Adds a flag. -/
def addFlag (r : Reading) (s : Switch) : Except Stop Reading :=
  match s.effect with
  | .help => .error .help
  | .version => .error .version
  | .value .. => .error .usage
  | .flag => if r.has s.long then .error .usage else .ok { r with given := r.given ++ [(s.long, "")] }

/-- Adds a switch with its value. -/
def addValue (r : Reading) (s : Switch) (v : String) : Except Stop Reading :=
  match s.effect with
  | .value accepts isRepeatable =>
    if accepts v && (isRepeatable || !r.has s.long) then
      .ok { r with given := r.given ++ [(s.long, v)] }
    else .error .usage
  | _ => .error .usage

def addWord (r : Reading) (w : String) : Reading := { r with words := r.words ++ [w] }

end Reading

def Switch.takesValue (s : Switch) : Bool :=
  match s.effect with
  | .value .. => true
  | _ => false

/-! ### Single words -/

/-- Reads the letters of short switches. The last one may still want its value. -/
def readShort (switches : List Switch) (r : Reading) : List Char → Except Stop (Reading × Option Switch)
  | [] => .ok (r, none)
  | c :: cs =>
    match switches.find? (·.short = some c) with
    | none => .error .usage
    | some s =>
      if s.takesValue then
        match cs with
        | [] => .ok (r, some s)
        | '=' :: v => (r.addValue s (String.ofList v)).map (·, none)
        | v => (r.addValue s (String.ofList v)).map (·, none)
      else do readShort switches (← r.addFlag s) cs

/-- Reads a long switch, which may still want its value. -/
def readLong (switches : List Switch) (r : Reading) (cs : List Char) :
    Except Stop (Reading × Option Switch) :=
  let (name, rest) := cs.span (· ≠ '=')
  match switches.find? (·.long = String.ofList name) with
  | none => .error .usage
  | some s =>
    match rest with
    | _ :: v => (r.addValue s (String.ofList v)).map (·, none)
    | [] => if s.takesValue then .ok (r, some s) else (r.addFlag s).map (·, none)

/-- Whether a word is written like a switch. -/
def isSwitch (w : String) : Bool := Text.startsWith w "-" && w ≠ "-"

/-- Reads a word that is written like a switch. -/
def readSwitch (switches : List Switch) (r : Reading) (w : String) :
    Except Stop (Reading × Option Switch) :=
  match w.toList with
  | '-' :: '-' :: cs => readLong switches r cs
  | _ :: cs => readShort switches r cs
  | [] => .error .usage

/-! ### All words -/

/-- What to do with a word that is no switch. -/
inductive WordUse where
  /-- It belongs to the command. -/
  | take
  /-- Reading ends before it. -/
  | leave
  | refuse
deriving DecidableEq

/-- Reads words after which there are no more switches. -/
def readWords (use : Reading → String → WordUse) (r : Reading) (words : List String) :
    Except Stop Reading :=
  words.foldlM (fun r w => if use r w = .take then .ok (r.addWord w) else .error .usage) r

/-- Reads the words of a command, and gives back those that it leaves. After two dashes there are no
more switches. -/
def read (switches : List Switch) (use : Reading → String → WordUse) (r : Reading) :
    List String → Except Stop (Reading × List String)
  | [] => .ok (r, [])
  | w :: rest =>
    if w = "--" then (readWords use r rest).map (·, [])
    else if isSwitch w then
      match readSwitch switches r w with
      | .error stop => .error stop
      | .ok (r, none) => read switches use r rest
      | .ok (r, some s) =>
        match rest with
        | [] => .error .usage
        | v :: rest =>
          if isSwitch v then .error .usage
          else match r.addValue s v with
            | .error stop => .error stop
            | .ok r => read switches use r rest
    else match use r w with
      | .take => read switches use (r.addWord w) rest
      | .leave => .ok (r, w :: rest)
      | .refuse => .error .usage

end UsagePolicy.Cli
