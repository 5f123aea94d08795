import UsagePolicy.Severity
import UsagePolicy.Span
import UsagePolicy.Text

/-! Diagnostics and reports: what an analysis tells its user. -/
namespace UsagePolicy

/-- A place in a file. -/
structure Location where
  file : String
  span : Span
deriving DecidableEq

structure Diagnostic where
  id : String
  /-- The name of the rule that was broken. -/
  rule : String
  severity : Severity
  location : Location
  message : String
  docRef : Option String := none
deriving DecidableEq

namespace Diagnostic

/-- The diagnostic on one line. -/
def text (d : Diagnostic) : String :=
  d.location.file ++ ":" ++ toString d.location.span.line.toNat ++ ":" ++
    toString d.location.span.column.toNat ++ ": " ++ d.severity.name ++ " [" ++ d.id ++ "] " ++
    d.message ++
    match d.docRef with
    | some doc => " (see: " ++ doc ++ ")"
    | none => ""

end Diagnostic

/-- What takes diagnostics, in the order in which they are reported. -/
class DiagnosticSink (S : Type) where
  report : S → Diagnostic → S

instance : DiagnosticSink (Array Diagnostic) := ⟨Array.push⟩

/-- The outcome of an analysis: its diagnostics in order, and how many documents were checked. -/
@[ext] structure Report where
  diagnostics : List Diagnostic := []
  filesChecked : Nat := 0
deriving DecidableEq

namespace Report

def count (r : Report) (s : Severity) : Nat := r.diagnostics.countP (·.severity == s)

def hasErrors (r : Report) : Bool := r.diagnostics.any (·.severity == .error)

/-- The diagnostics with a given id. -/
def withId (r : Report) (id : String) : List Diagnostic := r.diagnostics.filter (·.id == id)

/-- Keeps the diagnostics with the listed ids, in which the case of letters does not matter. -/
def only (ids : List String) (r : Report) : Report :=
  { r with diagnostics := r.diagnostics.filter fun d => ids.any (Text.sameLetters d.id) }

end Report

end UsagePolicy
