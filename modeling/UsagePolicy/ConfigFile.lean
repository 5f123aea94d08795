import UsagePolicy.Document.Configs
import UsagePolicy.Document.Rules
import UsagePolicy.Preset

/-! Configuration files: a configuration and the rules that stand in the same text, perhaps behind
those of a preset. -/
namespace UsagePolicy

/-! ### Rules -/

/-- Why the rules of a document cannot be used. -/
inductive RulesError where
  /-- The text is no TOML, or an entry is not of the right form. -/
  | malformed
  | load (error : LoadError)
  | unknownPreset (name : String)
deriving DecidableEq

/-- What is said about rules that can be read but not used. -/
def RulesError.message? : RulesError → Option String
  | malformed => none
  | load error => some error.message
  | unknownPreset name =>
    some ("unknown preset `" ++ name ++ "`, expected: " ++
      String.intercalate ", " (Preset.all.map Preset.name))

/-- The registry of the rules in a TOML document. -/
def Registry.ofToml (content : String) : Except RulesError Registry :=
  match RuleDocument.ofToml? content with
  | none => .error .malformed
  | some document =>
    match document.load with
    | .ok registry => .ok registry
    | .error e => .error (.load e)

/-- Puts the rules of a configured preset before others. -/
def Config.withPreset (c : Config) (own : Registry) : Except RulesError Registry :=
  match c.preset with
  | none => .ok own
  | some name =>
    match Preset.ofName? name with
    | none => .error (.unknownPreset name)
    | some preset =>
      match preset.registry.merge own with
      | .ok registry => .ok registry
      | .error errors => .error (.load (.duplicates errors))

/-- The registry of a configuration and the rules in its document. -/
def Config.registry (c : Config) (content : String) : Except RulesError Registry := do
  c.withPreset (← Registry.ofToml content)

/-! ### Files -/

inductive ConfigError where
  /-- There is no such file, or it holds no text. -/
  | unreadable
  | malformed
  | rules (error : RulesError)
deriving DecidableEq

def ConfigError.message? : ConfigError → Option String
  | rules error => error.message?.map ("Invalid rules: " ++ ·)
  | _ => none

/-- The text of a file that has been read. -/
def textOf? (bytes : Option ByteArray) : Option String := bytes.bind String.fromUTF8?

namespace Config

/-- The configuration in a file. -/
def ofFile (bytes : Option ByteArray) : Except ConfigError Config :=
  match textOf? bytes with
  | none => .error .unreadable
  | some content =>
    match ofToml? content with
    | none => .error .malformed
    | some config => .ok config

/-- The configuration in a file, and its registry. -/
def load (bytes : Option ByteArray) : Except ConfigError (Config × Registry) := do
  let config ← ofFile bytes
  match config.registry ((textOf? bytes).getD "") with
  | .ok registry => return (config, registry)
  | .error e => throw (.rules e)

end Config

end UsagePolicy
