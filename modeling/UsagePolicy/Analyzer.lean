import UsagePolicy.Config
import UsagePolicy.Discovery
import UsagePolicy.Document.Trees
import UsagePolicy.Engine

/-! The analyzer checks many documents and puts their diagnostics together. -/
namespace UsagePolicy

/-- Why a document cannot be checked. -/
inductive DocumentFault where
  /-- It is no text. -/
  | unreadable
  /-- It is no tree. -/
  | malformed
deriving DecidableEq

/-- A document by its path, with the tree in it. -/
structure Document where
  path : List String
  tree : Except DocumentFault Tree

/-- Reads a document. -/
def Document.read (path : List String) (content : ByteArray) : Document where
  path := path
  tree :=
    match String.fromUTF8? content with
    | none => .error .unreadable
    | some text =>
      match Tree.ofText? text with
      | none => .error .malformed
      | some tree => .ok tree

/-- Documents in the order of their paths. -/
def Document.sorted (documents : List Document) : List Document :=
  documents.mergeSort fun x y => Path.precedes x.path y.path

/-! ### Errors -/

/-- Which document cannot be checked, by its path from the root on, and why. -/
structure DocumentError where
  path : List String
  fault : DocumentFault
deriving DecidableEq

/-- Why there is no report, and the full path of what is at fault. The path is implicit: a look at the
cause alone need not name it. -/
inductive AnalysisError where
  /-- The root is missing, or the ignore files above it cannot be read. -/
  | walk {root : String}
  | document {path : String} (fault : DocumentFault)
deriving DecidableEq

/-- The error of an analysis that fails with a document below its root. -/
def AnalysisError.ofDocument (root : String) (e : DocumentError) : AnalysisError :=
  @document (Path.below root e.path) e.fault

/-! ### Workers -/

/-- How workers share a list: the sizes of the jobs into which they cut it, by its length. A job is a
run of consecutive entries, and what no job takes is done at the end. -/
structure Pool where
  sizes : Nat → List Nat := fun _ => []

namespace Pool

/-- Applies a function job by job and puts the results of the jobs together in their order. -/
def inJobs {α β : Type} (f : α → β) : (sizes : List Nat) → List α → List β
  | [], as => as.map f
  | n :: sizes, as => (as.take n).map f ++ inJobs f sizes (as.drop n)

theorem inJobs_eq_map {α β : Type} (f : α → β) (sizes : List Nat) (as : List α) :
    inJobs f sizes as = as.map f := by
  induction sizes generalizing as with
  | nil => rfl
  | cons n sizes ih => rw [inJobs, ih, ← List.map_append, List.take_append_drop]

def map {α β : Type} (p : Pool) (f : α → β) (as : List α) : List β := inJobs f (p.sizes as.length) as

/-- Sharing the work does not show in the results. -/
@[simp] theorem map_eq_map {α β : Type} (p : Pool) (f : α → β) (as : List α) :
    p.map f as = as.map f := inJobs_eq_map f _ as

end Pool

/-! ### Analyzers -/

structure Analyzer where
  /-- The root as written, behind the current directory. -/
  root : String
  engine : Engine
  excludes : List Glob := []
  /-- The number of workers that check documents; the machine decides if there is none. -/
  parallelism : Option Nat := none
  /-- The workers for a number of them. -/
  pool : Option Nat → Pool := fun _ => {}
  config : Config := {}
  /-- Whether a document that cannot be checked fails the analysis. -/
  strict : Bool := false

/-- What an analyzer is made of. -/
structure AnalyzerOptions where
  root : Option String := none
  registry : Registry := {}
  /-- Globs before those of the configuration. -/
  excludes : List String := []
  parallelism : Option Nat := none
  config : Config := {}
  strict : Bool := false

namespace Analyzer

/-- Makes an analyzer for a current directory; the first bad glob is the error. -/
def make (cwd : String) (o : AnalyzerOptions) : Except Glob.Error Analyzer := do
  let excludes ← (o.excludes ++ o.config.analyzer.exclude).mapM Glob.parse
  return {
    root := Path.join cwd (o.root.getD o.config.analyzer.root)
    engine := { registry := o.registry, maxDepth := o.config.analyzer.maxGenericDepth }
    excludes
    parallelism := o.parallelism.or o.config.analyzer.parallelism
    config := o.config
    strict := o.strict }

/-- Whether a tree is checked: generated ones are so only on demand. -/
def covers (a : Analyzer) (t : Tree) : Bool := a.config.analyzer.analyzeGenerated || !t.isGenerated

/-- The diagnostics of the engine for a tree that is checked. -/
def check? (a : Analyzer) (t : Tree) : Option (List Diagnostic) :=
  if a.covers t then some (a.engine.diagnostics t) else none

/-- Puts the diagnostics of one more file before a report, as the configuration wants them. -/
def prepend (a : Analyzer) (ds : List Diagnostic) (r : Report) : Report where
  diagnostics := a.config.adjust ds ++ r.diagnostics
  filesChecked := r.filesChecked + 1

/-- The report on trees in their order. -/
def analyzeTrees (a : Analyzer) (trees : List Tree) : Report :=
  (((a.pool none).map a.check? trees).filterMap id).foldr a.prepend {}

/-- What comes of a document: diagnostics, nothing if its tree is not checked, or an error. -/
abbrev Outcome := Except DocumentError (Option (List Diagnostic))

def checkDocument (a : Analyzer) (d : Document) : Outcome :=
  match d.tree with
  | .ok t => .ok (a.check? t)
  | .error fault => .error ⟨d.path, fault⟩

/-- The report on documents by their outcomes. When strict, the first failure is the error; otherwise
failures are passed over. -/
def gather (a : Analyzer) : List Outcome → Except DocumentError Report
  | [] => .ok {}
  | .ok none :: outcomes => a.gather outcomes
  | .ok (some ds) :: outcomes => (a.gather outcomes).map (a.prepend ds)
  | .error e :: outcomes => if a.strict then .error e else a.gather outcomes

/-- The report on documents, in the order of their paths. -/
def analyzeDocuments (a : Analyzer) (documents : List Document) : Except DocumentError Report :=
  a.gather ((a.pool a.parallelism).map a.checkDocument (Document.sorted documents))

/-- The report on all documents below the root that the user's rules and the ignore files around them
leave in. -/
def analyze (a : Analyzer) (disk : FileTree) (cwd : List String) (userRules : List Ignore.Rule) :
    Except AnalysisError Report :=
  match Discovery.documents? disk cwd userRules a.root a.excludes with
  | none => .error (@AnalysisError.walk a.root)
  | some found =>
    (a.analyzeDocuments (found.map fun (path, content) => Document.read path content)).mapError
      (AnalysisError.ofDocument a.root)

end Analyzer

end UsagePolicy
