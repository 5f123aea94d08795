import UsagePolicy.Cli.Arguments
import UsagePolicy.Document.Reports
import UsagePolicy.Json.Print
import UsagePolicy.Preset

/-! What the program prints. -/
namespace UsagePolicy

namespace Cli

def unlines (lines : List String) : String := String.join (lines.map (· ++ "\n"))

/-! ### Reports -/

/-- The ids in a list between commas; blanks around them and empty ones do not count. -/
def idList (ids : String) : List String :=
  (((Text.pieces ',' ids.toList).map Text.trim).filter (· ≠ [])).map String.ofList

/-- A text in a colour of the terminal. -/
def colored (code text : String) : String := "\x1b[" ++ code ++ "m" ++ text ++ "\x1b[0m"

def colorOf : Severity → String
  | .error => "31"
  | .warning => "33"
  | .info => "34"

/-- A diagnostic for people, with an empty line after it. -/
def diagnosticLines (d : Diagnostic) : List String :=
  let place := d.location.file ++ ":" ++ toString d.location.span.line.toNat ++ ":" ++
    toString d.location.span.column.toNat
  [d.id ++ " " ++ d.rule ++ " at " ++ place,
    "  " ++ colored (colorOf d.severity) d.severity.name ++ ": " ++ d.message] ++
    (d.docRef.map ("  = see: " ++ ·)).toList ++ [""]

/-- The last line of a report for people. -/
def summary (r : Report) : String :=
  let errors := r.count .error
  let warnings := r.count .warning
  let color := if 0 < errors then "31" else if 0 < warnings then "33" else "32"
  colored color ("Found " ++ toString errors ++ " error(s), " ++ toString warnings ++
    " warning(s), " ++ toString (r.count .info) ++ " info(s) in " ++ toString r.filesChecked ++
    " file(s)")

def render (format : Format) (r : Report) : String :=
  match format with
  | .text => unlines (r.diagnostics.flatMap diagnosticLines ++ [summary r])
  | .json => r.toJson.pretty ++ "\n"
  | .compact => unlines (r.diagnostics.map Diagnostic.text)

/-! ### Lists of rules -/

def row (a b c : String) : String := Text.padRight 8 a ++ " " ++ Text.padRight 12 b ++ " " ++ c

def categoryTable : String :=
  unlines (["Rule categories:", "", row "Id" "Category" "Title",
    String.ofList (List.replicate 60 '-')] ++
    Category.all.map fun c => row c.id c.name c.title)

/-- What a rule forbids, behind its id and its name. -/
def ruleLine (id name forbids : String) : String :=
  "  " ++ Text.padRight 8 id ++ " " ++ Text.padRight 40 name ++ " " ++ forbids

def ruleTable (r : Registry) : String :=
  unlines (["", "Configured rules:", ""] ++ (if r.isEmpty then ["  (none)"] else []) ++
    (r.namespaceRules.map fun n => ruleLine n.descriptor.id n.name
      ("`" ++ n.forbidden ++ "*` inside `" ++ n.outer ++ "*`")) ++
    (r.usageRules.map fun u => ruleLine u.descriptor.id u.name
      (u.used.text ++ " in " ++ u.context.text)))

def ruleHints : String :=
  unlines (["", "Presets:"] ++ (Preset.all.map fun p => "  " ++ p.name) ++
    ["", "Use --only to filter reported ids, e.g.:", "  usage-guard check --only NS001,TU001"])

/-! ### Fixed texts -/

def version : String := "usage-guard 0.1.0\n"

def help : String :=
  unlines ["Usage-restriction policy checker for symbol-annotated syntax trees", "",
    "Usage: usage-guard [OPTIONS] <COMMAND>", "",
    "Commands:",
    "  check       Check tree documents against the configured policies",
    "  list-rules  List rule categories and the configured rules",
    "  init        Initialize configuration file",
    "  help        Print this message or the help of the given subcommand(s)", "",
    "Options:",
    "  -v, --verbose          Enable verbose output",
    "  -c, --config <CONFIG>  Path to configuration file",
    "  -h, --help             Print help",
    "  -V, --version          Print version"]

/-- What to do with a new configuration. -/
def nextSteps : String :=
  unlines ["Created usage-guard.toml", "", "Next steps:",
    "  1. Edit usage-guard.toml to configure rules",
    "  2. Export *.ast.json tree documents from your build",
    "  3. Run: usage-guard check"]

/-- The configuration to start from. -/
def starter : String :=
  unlines ["# usage-guard configuration", "",
    "# Start from the built-in sample policies",
    "preset = \"sample\"", "",
    "[analyzer]",
    "# Directory holding *.ast.json tree documents (default: current directory)",
    "# root = \"./trees\"", "",
    "# Glob patterns to exclude, relative to root",
    "exclude = [",
    "    \"**/generated/**\",",
    "]", "",
    "# Bound on nested generic argument checks",
    "# max_generic_depth = 32", "",
    "# Check generated sources (*.g.cs, *.designer.cs, or flagged by the host)",
    "# analyze_generated = false", "",
    "# Per-category overrides, keyed by diagnostic id",
    "# [categories.GT001]",
    "# enabled = false",
    "#",
    "# [categories.TU001]",
    "# severity = \"warning\"", "",
    "# Namespaces starting with `forbidden` may not appear inside namespaces",
    "# starting with `outer`",
    "# [[namespace-rule]]",
    "# name = \"no-microsoft-in-core\"",
    "# outer = \"Company.Core\"",
    "# forbidden = \"Microsoft\"", "",
    "# Types matching `used` may not appear in contexts matching `context`.",
    "# context: declaring-type | name | namespace-prefix (omit for any)",
    "# used:    name | namespace-prefix (omit for any)",
    "# [[usage-rule]]",
    "# name = \"no-io-in-domain\"",
    "# category = \"type\"",
    "# context = \x7b namespace-prefix = \"Company.Domain\" \x7d",
    "# used = \x7b namespace-prefix = \"System.IO\" \x7d",
    "# doc = \"docs/architecture.md\""]

end Cli

end UsagePolicy
