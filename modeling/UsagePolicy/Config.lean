import UsagePolicy.Diagnostic

/-! Configurations: where to look for documents, how to check them, and what to do with diagnostics
by their ids. Rules live in the same text. -/
namespace UsagePolicy

structure AnalyzerConfig where
  root : String := "."
  /-- Globs of documents to leave out. -/
  exclude : List String := []
  maxGenericDepth : Nat := 32
  parallelism : Option Nat := none
  /-- Whether generated files are checked as well. -/
  analyzeGenerated : Bool := false
deriving DecidableEq

/-- What to do with diagnostics of one id. -/
structure CategoryConfig where
  enabled : Option Bool := none
  severity : Option Severity := none
deriving DecidableEq

structure Config where
  preset : Option String := none
  analyzer : AnalyzerConfig := {}
  /-- By diagnostic id. -/
  categories : List (String × CategoryConfig) := []
deriving DecidableEq

namespace Config

/-- Whether diagnostics with an id are reported. -/
def isEnabled (c : Config) (id : String) : Bool :=
  ((c.categories.lookup id).bind CategoryConfig.enabled).getD true

/-- The severity that diagnostics with an id get. -/
def severity? (c : Config) (id : String) : Option Severity :=
  (c.categories.lookup id).bind CategoryConfig.severity

/-- Gives a diagnostic the severity that its id gets. -/
def override (c : Config) (d : Diagnostic) : Diagnostic :=
  { d with severity := (c.severity? d.id).getD d.severity }

@[simp] theorem override_id (c : Config) (d : Diagnostic) : (c.override d).id = d.id := rfl

/-- The severity of an id is the same once it has been given. -/
@[simp] theorem override_override (c : Config) (d : Diagnostic) :
    c.override (c.override d) = c.override d := by
  cases h : c.severity? d.id <;> simp [override, h]

/-- Leaves out disabled diagnostics and changes the severity of the others. -/
def adjust (c : Config) (ds : List Diagnostic) : List Diagnostic :=
  (ds.filter fun d => c.isEnabled d.id).map c.override

end Config

end UsagePolicy
