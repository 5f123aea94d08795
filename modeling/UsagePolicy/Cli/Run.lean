import UsagePolicy.Analyzer
import UsagePolicy.Cli.Output
import UsagePolicy.ConfigFile
import UsagePolicy.Ignore.Global

/-! A run of the program, as a function of its arguments and of the files around it. -/
namespace UsagePolicy.Cli

structure Environment where
  disk : FileTree
  /-- The current directory, from the root down. -/
  cwd : List String
  home : Option String := none
  /-- A directory for the configuration of last resort, in place of the one below `home`. -/
  configDir : Option String := none

namespace Environment

def cwdPath (e : Environment) : String := Path.ofPlace e.cwd

def contains (e : Environment) (path : String) : Bool := (e.disk.locate? e.cwd path).isSome

def read? (e : Environment) (path : String) : Option ByteArray := e.disk.read? e.cwd path

end Environment

structure Outcome where
  exit : Nat := 0
  output : String := ""
  /-- Why the run has failed. -/
  failure : Option String := none
  /-- Files to write below the current directory. -/
  written : List (String × String) := []
deriving DecidableEq

/-- A run that fails after some output. -/
def Outcome.failed (output message : String) : Outcome :=
  { exit := 1, output, failure := some message }

/-! ### Configuration -/

def configNames : List String := ["usage-guard.toml", ".usage-guard.toml"]

/-- The configuration of last resort. -/
def globalConfig? (e : Environment) : Option String :=
  (e.configDir.or (e.home.map (Path.join · ".usage-guard"))).map (Path.join · "config.toml")

/-- The configuration file for a project: one that is asked for, one in the project's directory, or
the global one. -/
def configPath? (e : Environment) (project : String) (asked : Option String) : Option String :=
  asked.or (((configNames.map (Path.join project)).find? e.contains).or
    ((globalConfig? e).filter e.contains))

/-- Loads a configuration; without a file there are no rules. -/
def loadConfig (e : Environment) (path : Option String) : Except String (Config × Registry) :=
  match path with
  | none => .ok ({}, .empty)
  | some path =>
    match Config.load (e.read? path) with
    | .ok loaded => .ok loaded
    | .error _ => .error ("Failed to load config: " ++ path)

/-! ### Commands -/

/-- The report of a check. -/
def checkReport (e : Environment) (path : String) (exclude : List String) (config : Config)
    (registry : Registry) : Except String Report :=
  match Analyzer.make e.cwdPath { root := some path, registry, excludes := exclude, config } with
  | .error _ => .error "Failed to build analyzer"
  | .ok analyzer =>
    match analyzer.analyze e.disk e.cwd (Ignore.userRules e.read? e.home) with
    | .error _ => .error "Analysis failed"
    | .ok report => .ok report

/-- Keeps what an optional list of ids asks for. -/
def selected (only : Option String) (r : Report) : Report :=
  match only with
  | none => r
  | some ids => r.only (idList ids)

def check (e : Environment) (asked : Option String) (path : String) (format : Format)
    (only : Option String) (exclude : List String) : Outcome :=
  let report := do
    let (config, registry) ← loadConfig e (configPath? e path asked)
    checkReport e path exclude config registry
  match report with
  | .error message => .failed "" message
  | .ok report =>
    let report := selected only report
    { exit := if report.hasErrors then 1 else 0, output := render format report }

def listRules (e : Environment) (asked : Option String) : Outcome :=
  match loadConfig e (configPath? e e.cwdPath asked) with
  | .error message => .failed categoryTable message
  | .ok (_, registry) => { output := categoryTable ++ ruleTable registry ++ ruleHints }

def init (e : Environment) (force : Bool) : Outcome :=
  match e.disk.locate? e.cwd "usage-guard.toml" with
  | some (.directory _) => if force then .failed "" "Is a directory (os error 21)" else refused
  | some (.file _) => if force then create else refused
  | none => create
where
  create : Outcome := { output := nextSteps, written := [("usage-guard.toml", starter)] }
  refused : Outcome := .failed ""
    "Configuration file already exists at usage-guard.toml. Use --force to overwrite."

/-- The files that a run may look at apart from documents, and whether it looks at documents. -/
def lookups (e : Environment) (words : List String) : List String × Bool :=
  match Arguments.parse words with
  | .error _ => ([], false)
  | .ok { config, command } =>
    let configs (project : String) :=
      config.toList ++ configNames.map (Path.join project) ++ (globalConfig? e).toList
    match command with
    | .check path .. => (configs path ++ (e.home.map Ignore.configFiles).getD [], true)
    | .listRules => (configs e.cwdPath, false)
    | .init _ => (["usage-guard.toml"], false)

/-- Runs the program. Arguments that make no sense exit with 2. -/
def run (e : Environment) (words : List String) : Outcome :=
  match Arguments.parse words with
  | .error .usage => { exit := 2 }
  | .error .help => { output := help }
  | .error .version => { output := version }
  | .ok { config, command } =>
    match command with
    | .check path format only exclude => check e config path format only exclude
    | .listRules => listRules e config
    | .init force => init e force

/-- The files after a run. -/
def Outcome.applyTo (o : Outcome) (e : Environment) : FileTree :=
  o.written.foldl (fun disk (name, text) => disk.write text.toUTF8 (e.cwd ++ [name])) e.disk

end UsagePolicy.Cli
