import UsagePolicy.Descent
import UsagePolicy.Diagnostic
import UsagePolicy.Extraction
import UsagePolicy.Registry
import UsagePolicy.Tree

/-! The engine judges the usage sites of trees by a registry. -/
namespace UsagePolicy

/-- A forbidden usage. -/
structure Finding where
  rule : String
  descriptor : Descriptor
  /-- The name of what is used. -/
  used : String
  /-- The name of where it is used. -/
  context : String
  span : Span
deriving DecidableEq

/-- The report of a finding in a file. -/
def Finding.diagnostic (file : String) (f : Finding) : Diagnostic where
  id := f.descriptor.id
  rule := f.rule
  severity := f.descriptor.severity
  location := { file, span := f.span }
  message := f.descriptor.render f.used f.context
  docRef := f.descriptor.docRef

/-- Hands findings in a file to a sink, in order. -/
def emit {S : Type} [DiagnosticSink S] (file : String) (found : List Finding) (sink : S) : S :=
  found.foldl (fun sink f => DiagnosticSink.report sink (f.diagnostic file)) sink

/-- The finding that a verdict amounts to, if it is one. -/
def Verdict.finding? (used context : String) (span : Span) : Verdict → Option Finding
  | .allowed => none
  | .forbidden rule descriptor => some { rule, descriptor, used, context, span }

structure Engine where
  registry : Registry
  /-- How far the descent into type arguments goes. -/
  maxDepth : Nat := 32

namespace Engine

open SymbolModel

variable {M : Type} [SymbolModel M]

/-- Judges one occurrence of a symbol in a context with a name. -/
def judge (e : Engine) (m : M) (context : SymbolId) (contextName : String) (span : Span)
    (o : Occurrence) : Option Finding :=
  (symbol? m o.used).bind fun used =>
    (e.registry.judgeUsage m context o.used o.kind).finding? used.name contextName span

/-- The findings at a site: for a symbol, those of the symbol and then those of its type arguments,
depth first. -/
def evaluate (e : Engine) (m : M) (s : Site) : List Finding :=
  match s.subject with
  | .nameSpace outer inner =>
    ((e.registry.judgeNamespace outer inner).finding? inner outer s.span).toList
  | .symbol context used =>
    match symbol? m context with
    | none => []
    | some symbol =>
      (Descent.occurrences m e.maxDepth s.kind used).filterMap (e.judge m context symbol.name s.span)

/-- The findings of a node alone. -/
def checkNode (e : Engine) (m : M) (scope : Scope) (n : Node) : List Finding :=
  (n.sites m scope).flatMap (e.evaluate m)

/-! ### Walking a tree -/

/-- The children of a node with the scope that it opens for them. -/
def opened (scope : Scope) (n : Node) : List (Node × Scope) := n.children.map (·, scope.enter n)

/-- The number of nodes that are still to be visited. -/
def weight : List (Node × Scope) → Nat
  | [] => 0
  | (n, _) :: rest => n.size + weight rest

theorem weight_append (a b : List (Node × Scope)) : weight (a ++ b) = weight a + weight b := by
  induction a with
  | nil => simp [weight]
  | cons w a ih => simp [weight, ih, Nat.add_assoc]

theorem weight_children (scope : Scope) (children : List Node) :
    weight (children.map (·, scope)) = Node.sizeAll children := by
  induction children with
  | nil => rfl
  | cons n ns ih => simp [weight, Node.sizeAll, ih]

theorem weight_opened (scope : Scope) (n : Node) : weight (opened scope n) + 1 = n.size := by
  obtain ⟨kind, span, children⟩ := n
  rw [opened, weight_children, Node.size, Nat.add_comm]

/-- Works a list of nodes off from the front. A visited node is replaced by its children, which
keeps source order; the findings go behind those that are there already. -/
def walk (e : Engine) (m : M) (found : Array Finding) :
    List (Node × Scope) → Array Finding
  | [] => found
  | (n, scope) :: rest =>
    walk e m (found ++ (e.checkNode m scope n).toArray) (opened scope n ++ rest)
termination_by work => weight work
decreasing_by
  have h := weight_opened scope n
  rw [weight_append, weight]
  omega

/-- The findings of a node and of all below it, in source order. -/
def checkRoot (e : Engine) (m : M) (root : Node) : List Finding :=
  (e.walk m #[] [(root, .top)]).toList

/-! ### Reporting -/

variable {S : Type} [DiagnosticSink S]

/-- Reports the findings of a node alone, for hosts that walk a tree themselves and keep the scope
current. -/
def reportNode (e : Engine) (m : M) (file : String) (scope : Scope) (n : Node) (sink : S) : S :=
  emit file (e.checkNode m scope n) sink

/-- Reports the findings of a node and of all below it, once all of them are known. -/
def reportRoot (e : Engine) (m : M) (file : String) (root : Node) (sink : S) : S :=
  emit file (e.checkRoot m root) sink

/-- The diagnostics of a tree document. -/
def diagnostics (e : Engine) (t : Tree) : List Diagnostic :=
  (e.reportRoot t.symbols t.file t.root (#[] : Array Diagnostic)).toList

end Engine

/-! ### Visiting nodes one by one -/

namespace Node

mutual
/-- A node and all below it in source order, each with its scope. -/
def visits (scope : Scope) : Node → List (Node × Scope)
  | ⟨kind, span, children⟩ =>
    (⟨kind, span, children⟩, scope) :: visitsAll (scope.enter ⟨kind, span, children⟩) children

def visitsAll (scope : Scope) : List Node → List (Node × Scope)
  | [] => []
  | n :: ns => n.visits scope ++ visitsAll scope ns
end

end Node

end UsagePolicy
