import UsagePolicy.Proofs.Walk

/-! What a registry is asked about a tree. The walk, the extraction of sites and the descent into
type arguments raise questions, in order, and none of them looks at a rule; the registry answers each
question on its own. The main result: the diagnostics of a tree are the answers to its questions. -/
namespace UsagePolicy

open SymbolModel Descent

/-- Whether a namespace may stand inside another one, or an occurrence of a symbol in a context. -/
inductive Question where
  | nameSpace (outer inner : String) (span : Span)
  | usage (context : SymbolId) (contextName : String) (span : Span) (o : Occurrence)
deriving DecidableEq

variable {M : Type} [SymbolModel M]

/-- The finding that answers a question, if a rule forbids what is asked. -/
def Registry.answer (r : Registry) (m : M) : Question → Option Finding
  | .nameSpace outer inner span => (r.judgeNamespace outer inner).finding? inner outer span
  | .usage context contextName span o =>
    (symbol? m o.used).bind fun used =>
      (r.judgeUsage m context o.used o.kind).finding? used.name contextName span

theorem Registry.answer_nameSpace {r : Registry} {m : M} {outer inner : String} {span : Span}
    {f : Finding} : r.answer m (.nameSpace outer inner span) = some f ↔
      ∃ rule, r.namespaceRules.find? (·.forbids outer inner) = some rule ∧
        f = ⟨rule.name, rule.descriptor, inner, outer, span⟩ := by
  simp only [answer, judgeNamespace]
  cases r.namespaceRules.find? (·.forbids outer inner) <;> simp [Verdict.finding?, eq_comm]

theorem Registry.answer_usage {r : Registry} {m : M} {context : SymbolId} {contextName : String}
    {span : Span} {o : Occurrence} {f : Finding} :
    r.answer m (.usage context contextName span o) = some f ↔
      ∃ used rule, symbol? m o.used = some used ∧
        r.usageRules.find? (·.forbids m context o.used o.kind) = some rule ∧
        f = ⟨rule.name, rule.descriptor, used.name, contextName, span⟩ := by
  simp only [answer, judgeUsage]
  cases symbol? m o.used with
  | none => simp
  | some used =>
    cases r.usageRules.find? (·.forbids m context o.used o.kind) <;>
      simp [Verdict.finding?, eq_comm]

/-- The questions of a site; there are none if its context does not resolve. -/
def Site.questions (m : M) (maxDepth : Nat) (s : Site) : List Question :=
  match s.subject with
  | .nameSpace outer inner => [.nameSpace outer inner s.span]
  | .symbol context used =>
    match symbol? m context with
    | none => []
    | some symbol =>
      (occurrences m maxDepth s.kind used).map (.usage context symbol.name s.span)

theorem Site.mem_questions_nameSpace {m : M} {maxDepth : Nat} {s : Site} {outer inner : String}
    (hs : s.subject = .nameSpace outer inner) {q : Question} :
    q ∈ s.questions m maxDepth ↔ q = .nameSpace outer inner s.span := by
  simp [questions, hs]

theorem Site.mem_questions_symbol {m : M} {maxDepth : Nat} {s : Site} {context used : SymbolId}
    (hs : s.subject = .symbol context used) {q : Question} :
    q ∈ s.questions m maxDepth ↔ ∃ symbol, symbol? m context = some symbol ∧
      ∃ o ∈ occurrences m maxDepth s.kind used, q = .usage context symbol.name s.span o := by
  simp only [questions, hs]
  cases symbol? m context <;> simp [eq_comm]

/-- The questions of a document, node by node. -/
def Tree.questions (t : Tree) (maxDepth : Nat) : List Question :=
  (t.root.placed []).flatMap fun p =>
    (p.2.sites t.symbols (Scope.below p.1)).flatMap (·.questions t.symbols maxDepth)

theorem Tree.mem_questions {t : Tree} {maxDepth : Nat} {q : Question} :
    q ∈ t.questions maxDepth ↔ ∃ above n, (above, n) ∈ t.root.placed [] ∧
      ∃ site ∈ n.sites t.symbols (Scope.below above), q ∈ site.questions t.symbols maxDepth := by
  simp [questions]

namespace Engine

theorem evaluate_eq_filterMap_answer (e : Engine) (m : M) (s : Site) :
    e.evaluate m s = (s.questions m e.maxDepth).filterMap (e.registry.answer m) := by
  obtain ⟨subject, span, kind⟩ := s
  cases subject with
  | nameSpace outer inner =>
    simp only [evaluate, Site.questions, List.filterMap_cons, List.filterMap_nil, Registry.answer]
    cases (e.registry.judgeNamespace outer inner).finding? inner outer span <;> rfl
  | symbol context used =>
    simp only [evaluate, Site.questions]
    cases symbol? m context with
    | none => rfl
    | some symbol =>
      dsimp only
      rw [List.filterMap_map]
      rfl

theorem checkNode_eq_filterMap (e : Engine) (m : M) (scope : Scope) (n : Node) :
    e.checkNode m scope n =
      ((n.sites m scope).flatMap (·.questions m e.maxDepth)).filterMap (e.registry.answer m) := by
  rw [checkNode, List.filterMap_flatMap, funext (e.evaluate_eq_filterMap_answer m)]

/-- The diagnostics are the answers to the questions, in order; which questions there are does not
depend on the rules. -/
theorem diagnostics_eq_filterMap (e : Engine) (t : Tree) :
    e.diagnostics t = (t.questions e.maxDepth).filterMap fun q =>
      (e.registry.answer t.symbols q).map (Finding.diagnostic t.file) := by
  have hfound : e.checkRoot t.symbols t.root =
      (t.questions e.maxDepth).filterMap (e.registry.answer t.symbols) := by
    simp only [checkRoot_eq_flatMap, ← Scope.below_nil, Node.visits_below, List.flatMap_map,
      Tree.questions, List.filterMap_flatMap, checkNode_eq_filterMap]
  rw [diagnostics_eq_map, hfound, List.map_filterMap]

theorem mem_diagnostics (e : Engine) (t : Tree) {d : Diagnostic} :
    d ∈ e.diagnostics t ↔ ∃ q ∈ t.questions e.maxDepth, ∃ f,
      e.registry.answer t.symbols q = some f ∧ d = f.diagnostic t.file := by
  simp only [diagnostics_eq_filterMap, List.mem_filterMap, Option.map_eq_some_iff,
    eq_comm (a := d)]

end Engine

end UsagePolicy
