import Mathlib.Data.List.Induction
import UsagePolicy.Proofs.Walk

/-! Where the sites of a node come from: which declarations around it make its scope, which spans
they point at, and in which context they use what they use. -/
namespace UsagePolicy

open SymbolModel

/-! ### The innermost declaration -/

/-- The name and the symbol of a namespace declaration. -/
def NodeKind.namespaceHead? : NodeKind → Option (String × Option SymbolId)
  | nameSpace name _ symbol => some (name, symbol)
  | _ => none

/-- What the innermost of some nodes tells, the outermost one standing first; nodes that tell nothing
are passed over. -/
def Node.innermost? {α : Type} (tells : NodeKind → Option α) (ns : List Node) : Option α :=
  ns.reverse.findSome? fun n => tells n.kind

theorem Node.innermost?_concat {α : Type} (tells : NodeKind → Option α) (ns : List Node) (n : Node) :
    innermost? tells (ns ++ [n]) = (tells n.kind).or (innermost? tells ns) := by
  rw [innermost?, List.reverse_append]
  cases h : tells n.kind <;> simp [h, innermost?]

namespace Scope

/-- A scope knows the innermost declaration and the innermost namespace. -/
theorem below_eq (above : List Node) : below above = {
    context := (Node.innermost? NodeKind.declared? above).join
    nameSpace := (Node.innermost? NodeKind.namespaceHead? above).bind Prod.snd
    namespaceName := (Node.innermost? NodeKind.namespaceHead? above).map Prod.fst } := by
  induction above using List.reverseRecOn with
  | nil => rfl
  | append_singleton above n ih =>
    rw [below_concat, ih, Node.innermost?_concat, Node.innermost?_concat]
    obtain ⟨kind, span, children⟩ := n
    cases kind <;> rfl

end Scope

namespace Node

/-- The context of a node is the symbol of the innermost declaration among the node and those above
it. -/
theorem contextIn_below (above : List Node) (n : Node) :
    n.contextIn (Scope.below above) = (innermost? NodeKind.declared? (above ++ [n])).join := by
  rw [contextIn, Scope.below_eq, innermost?_concat]
  cases n.kind.declared? <;> rfl

/-! ### Spans -/

end Node

/-- The spans that a kind of node carries besides that of the node. -/
def NodeKind.spans : NodeKind → List Span
  | nameSpace _ nameSpan _ | attributeUse _ nameSpan | usingDirective _ nameSpan => [nameSpan]
  | delegate _ identifierSpan returnTypeSpan parameterListSpan =>
    [identifierSpan, returnTypeSpan, parameterListSpan]
  | method _ type | property _ type | indexer _ type | field _ type | localVariable type
  | parameter type | typeOf type | cast type | asType type | arrayCreation type
  | defaultValue type => [type.span]
  | baseList types => types.map (·.span)
  | compilationUnit | typeDeclaration _ | objectCreation _ | invocation _ | memberAccess _
  | genericName _ | lambda _ | implicitArrayCreation _ | other _ => []

/-- The span of a node and those that its kind carries. -/
def Node.spans (n : Node) : List Span := n.span :: n.kind.spans

/-! ### Sites -/

variable {M : Type} [SymbolModel M] {m : M}

/-- The pair of namespaces that a node is about: a declaration stands with its name in the innermost
namespace by the name that is written there, an import brings the namespace of its symbol into that
of the symbol of the innermost one. -/
inductive NodeKind.Nests (m : M) (above : List Node) : NodeKind → String → String → Prop
  | declared {outer name : String} {outerSymbol symbol : Option SymbolId} {nameSpan : Span}
    (houter : Node.innermost? namespaceHead? above = some (outer, outerSymbol)) :
    Nests m above (.nameSpace name nameSpan symbol) outer name
  | imported {written : String} {a b : SymbolId} {outer inner : Symbol} {nameSpan : Span}
    (houter : Node.innermost? namespaceHead? above = some (written, some a))
    (ha : nameSpace? m a = some outer) (hb : nameSpace? m b = some inner) :
    Nests m above (.usingDirective (some b) nameSpan) outer.qualifiedName inner.qualifiedName

/-- The node declares a namespace or imports one. -/
def NodeKind.isAboutNamespaces : NodeKind → Bool
  | nameSpace .. | usingDirective .. => true
  | _ => false

/-- As what the other nodes use symbols. -/
def NodeKind.usageKinds : NodeKind → List UsageKind
  | delegate .. => [.delegate, .type]
  | attributeUse .. => [.attributeUse]
  | _ => [.type]

/-- The site uses a symbol in a context, at one of some spans. -/
def Site.IsUsage (context : Option SymbolId) (spans : List Span) (s : Site) : Prop :=
  ∃ c u, context = some c ∧ s.subject = .symbol c u ∧ s.span ∈ spans

theorem Site.isUsage_of_mem_ofSymbols {kind : UsageKind} {kinds : List UsageKind}
    {context used : Option SymbolId} {span : Span} {spans : List Span} (hkind : kind ∈ kinds)
    (hspan : span ∈ spans) :
    ∀ s ∈ Site.ofSymbols kind context used span, s.IsUsage context spans ∧ s.kind ∈ kinds := by
  intro s hs
  cases context with
  | none => cases hs
  | some c =>
    cases used with
    | none => cases hs
    | some u =>
      obtain rfl := List.mem_singleton.mp hs
      exact ⟨⟨c, u, rfl, rfl, hspan⟩, hkind⟩

theorem isUsage_of_mem_signatureSites {kinds : List UsageKind} {context : Option SymbolId}
    {callable : SymbolId} {returnSpan parametersSpan : Span} {spans : List Span}
    (htype : .type ∈ kinds) (hreturn : returnSpan ∈ spans) (hparameters : parametersSpan ∈ spans) :
    ∀ s ∈ signatureSites m context callable returnSpan parametersSpan,
      s.IsUsage context spans ∧ s.kind ∈ kinds := by
  intro s hs
  rcases List.mem_append.mp hs with hs | hs
  · exact Site.isUsage_of_mem_ofSymbols htype hreturn s hs
  · obtain ⟨p, -, hs⟩ := List.mem_flatMap.mp hs
    exact Site.isUsage_of_mem_ofSymbols htype hparameters s hs

/-- Whatever the scope, a site of a node that is not about namespaces uses a symbol in the context of
the node, as the node uses symbols, and points at a span of the node. -/
theorem Node.isUsage_of_mem_sites {n : Node} {scope : Scope} {s : Site}
    (hn : n.kind.isAboutNamespaces = false) (hs : s ∈ n.sites m scope) :
    s.IsUsage (n.contextIn scope) n.spans ∧ s.kind ∈ n.kind.usageKinds := by
  obtain ⟨kind, span, children⟩ := n
  simp only [sites] at hs
  cases kind with
  | nameSpace _ _ _ | usingDirective _ _ => cases hn
  | compilationUnit | typeDeclaration _ | other _ => cases hs
  | objectCreation type =>
    exact Site.isUsage_of_mem_ofSymbols (by simp [NodeKind.usageKinds]) (by simp [spans]) s hs
  | invocation method =>
    dsimp only at hs
    split at hs
    next =>
      rcases List.mem_append.mp hs with hs | hs
      · exact Site.isUsage_of_mem_ofSymbols (by simp [NodeKind.usageKinds]) (by simp [spans]) s hs
      · exact isUsage_of_mem_signatureSites (by simp [NodeKind.usageKinds]) (by simp [spans])
          (by simp [spans]) s hs
    next => cases hs
  | memberAccess member =>
    rcases List.mem_append.mp hs with hs | hs
    · exact Site.isUsage_of_mem_ofSymbols (by simp [NodeKind.usageKinds]) (by simp [spans]) s hs
    · exact Site.isUsage_of_mem_ofSymbols (by simp [NodeKind.usageKinds]) (by simp [spans]) s hs
  | method _ type | property _ type | indexer _ type | field _ type =>
    exact Site.isUsage_of_mem_ofSymbols (by simp [NodeKind.usageKinds])
      (by simp [spans, NodeKind.spans]) s hs
  | localVariable type | parameter type | typeOf type | cast type | asType type
  | defaultValue type | arrayCreation type =>
    exact Site.isUsage_of_mem_ofSymbols (by simp [NodeKind.usageKinds])
      (by simp [spans, NodeKind.spans]) s hs
  | baseList types =>
    obtain ⟨type, htype, hs⟩ := List.mem_flatMap.mp hs
    refine Site.isUsage_of_mem_ofSymbols (by simp [NodeKind.usageKinds]) ?_ s hs
    exact List.mem_cons_of_mem _ (List.mem_map_of_mem htype)
  | genericName symbol =>
    exact Site.isUsage_of_mem_ofSymbols (by simp [NodeKind.usageKinds]) (by simp [spans]) s hs
  | delegate symbol identifierSpan returnTypeSpan parameterListSpan =>
    dsimp only at hs
    split at hs
    next =>
      rcases List.mem_append.mp hs with hs | hs
      · exact Site.isUsage_of_mem_ofSymbols (by simp [NodeKind.usageKinds])
          (by simp [spans, NodeKind.spans]) s hs
      · exact isUsage_of_mem_signatureSites (by simp [NodeKind.usageKinds])
          (by simp [spans, NodeKind.spans]) (by simp [spans, NodeKind.spans]) s hs
    next => cases hs
  | attributeUse ctor nameSpan =>
    exact Site.isUsage_of_mem_ofSymbols (by simp [NodeKind.usageKinds])
      (by simp [spans, NodeKind.spans]) s hs
  | lambda signature =>
    dsimp only at hs
    split at hs
    next =>
      exact isUsage_of_mem_signatureSites (by simp [NodeKind.usageKinds]) (by simp [spans])
        (by simp [spans]) s hs
    next => cases hs
  | implicitArrayCreation arrayType =>
    exact Site.isUsage_of_mem_ofSymbols (by simp [NodeKind.usageKinds]) (by simp [spans]) s hs

theorem Node.exists_namespaces_of_mem_sites {n : Node} {scope : Scope} {s : Site}
    (hn : n.kind.isAboutNamespaces) (hs : s ∈ n.sites m scope) :
    ∃ outer inner, ∃ span ∈ n.spans, s = Site.ofNamespaces outer inner span := by
  obtain ⟨kind, span, children⟩ := n
  cases kind with
  | nameSpace name nameSpan symbol =>
    simp only [sites] at hs
    split at hs
    next outer _ => exact ⟨outer, name, nameSpan, by simp [spans, NodeKind.spans], by simpa using hs⟩
    next => cases hs
  | usingDirective imported nameSpan =>
    simp only [sites, importSites] at hs
    split at hs
    next inner outer _ _ =>
      exact ⟨outer.qualifiedName, inner.qualifiedName, nameSpan, by simp [spans, NodeKind.spans],
        by simpa using hs⟩
    next => cases hs
  | _ => cases hn

/-- A site of a node is about the namespaces of the node, or uses a symbol in its context; and it
points at a span of the node. -/
theorem Node.sites_cases {above : List Node} {n : Node} {s : Site}
    (hs : s ∈ n.sites m (Scope.below above)) :
    (∃ outer inner, s.subject = .nameSpace outer inner ∧ s.span ∈ n.spans ∧
      n.kind.Nests m above outer inner) ∨ s.IsUsage (n.contextIn (Scope.below above)) n.spans := by
  obtain ⟨kind, span, children⟩ := n
  cases kind with
  | nameSpace name nameSpan symbol =>
    left
    simp only [sites, Scope.below_eq] at hs
    cases houter : innermost? NodeKind.namespaceHead? above with
    | none => simp [houter] at hs
    | some head =>
      obtain ⟨outer, outerSymbol⟩ := head
      rw [houter] at hs
      obtain rfl := List.mem_singleton.mp hs
      exact ⟨outer, name, rfl, by simp [spans, NodeKind.spans, Site.ofNamespaces], .declared houter⟩
  | usingDirective imported nameSpan =>
    left
    simp only [sites, importSites, Scope.below_eq] at hs
    split at hs
    next inner outer himported henclosing =>
      obtain rfl := List.mem_singleton.mp hs
      obtain ⟨b, rfl, hb⟩ := Option.bind_eq_some_iff.mp himported
      obtain ⟨a, hhead, ha⟩ := Option.bind_eq_some_iff.mp henclosing
      obtain ⟨⟨written, -⟩, houter, rfl⟩ := Option.bind_eq_some_iff.mp hhead
      exact ⟨outer.qualifiedName, inner.qualifiedName, rfl,
        by simp [spans, NodeKind.spans, Site.ofNamespaces], .imported houter ha hb⟩
    next => cases hs
  | _ => exact .inr (isUsage_of_mem_sites rfl hs).1

end UsagePolicy
