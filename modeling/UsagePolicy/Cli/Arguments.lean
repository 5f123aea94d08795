import UsagePolicy.Cli.Switch

/-! The arguments of the program. -/
namespace UsagePolicy.Cli

inductive Format where
  /-- For people. -/
  | text
  | json
  /-- A line for each diagnostic. -/
  | compact
deriving DecidableEq

namespace Format

def all : List Format := [text, json, compact]

def name : Format → String
  | text => "text"
  | json => "json"
  | compact => "compact"

def ofName? (s : String) : Option Format := all.find? (·.name == s)

end Format

inductive Command where
  /-- Checks the documents below a path. `only` lists the ids to report, between commas. -/
  | check (path : String) (format : Format) (only : Option String) (exclude : List String)
  | listRules
  | init (force : Bool)
deriving DecidableEq

structure Arguments where
  /-- The configuration file to use. -/
  config : Option String := none
  command : Command
deriving DecidableEq

namespace Arguments

def helpSwitch : Switch := { long := "help", short := some 'h', effect := .help }

/-- Switches that stand before a command or after it. -/
def sharedSwitches : List Switch := [
  { long := "verbose", short := some 'v' },
  { long := "config", short := some 'c', effect := .value (!·.isEmpty) false },
  helpSwitch]

def topSwitches : List Switch :=
  { long := "version", short := some 'V', effect := .version } :: sharedSwitches

def checkSwitches : List Switch := [
  { long := "format", short := some 'f', effect := .value (Format.ofName? · |>.isSome) false },
  { long := "only", effect := .value (fun _ => true) false },
  { long := "exclude", short := some 'e', effect := .value (fun _ => true) true }] ++ sharedSwitches

def initSwitches : List Switch := { long := "force" } :: sharedSwitches

/-- A check takes one path that is not empty; no other command takes words. -/
def checkWord (r : Reading) (w : String) : WordUse :=
  if r.words.isEmpty && !w.isEmpty then .take else .refuse

def noWord (_ : Reading) (_ : String) : WordUse := .refuse

/-- A command, and the configuration file that is named after it. -/
def readCommand (name : String) (rest : List String) : Except Stop (Command × Option String) :=
  match name with
  | "check" => do
    let (r, _) ← read checkSwitches checkWord {} rest
    let format := ((r.value? "format").bind Format.ofName?).getD .text
    let command := .check (r.words.headD ".") format (r.value? "only") (r.values "exclude")
    return (command, r.value? "config")
  | "list-rules" => do
    let (r, _) ← read sharedSwitches noWord {} rest
    return (.listRules, r.value? "config")
  | "init" => do
    let (r, _) ← read initSwitches noWord {} rest
    return (.init (r.has "force"), r.value? "config")
  | "help" =>
    match rest with
    | [] => .error .help
    | [topic] =>
      .error (if ["check", "list-rules", "init", "help"].contains topic then .help else .usage)
    | _ => .error .usage
  | _ => .error .usage

/-- Reads the arguments of a run. What is named after the command wins over what is named before
it. -/
def parse (words : List String) : Except Stop Arguments := do
  match ← read topSwitches (fun _ _ => .leave) {} words with
  | (_, []) => throw .usage
  | (top, name :: rest) =>
    let (command, config) ← readCommand name rest
    return { config := config.or (top.value? "config"), command }

end Arguments

end UsagePolicy.Cli
