import UsagePolicy.Proofs.Resolution.Simulation
import UsagePolicy.Proofs.Walk

/-! Trees that the engine cannot tell apart. Nodes are alike if they have the same shape and spans,
and handles that a simulation links. Alike nodes open alike scopes and have the same findings, so
alike trees have the same findings in the same order. -/
namespace UsagePolicy

open SymbolModel

variable {M M' : Type} [SymbolModel M] [SymbolModel M']

/-! ### Alike nodes -/

structure TypeRef.Alike (m : M) (m' : M') (R : SymbolId → SymbolId → Prop) (t t' : TypeRef) :
    Prop where
  type : Linked m m' R t.type t'.type
  span : t.span = t'.span

/-- The same shape with linked handles. Labels are not compared, and of an implicit array only the
element types are. -/
inductive NodeKind.Alike (m : M) (m' : M') (R : SymbolId → SymbolId → Prop) :
    NodeKind → NodeKind → Prop
  | compilationUnit : Alike m m' R .compilationUnit .compilationUnit
  | nameSpace (name : String) (nameSpan : Span) {s s' : Option SymbolId} (hs : Linked m m' R s s') :
    Alike m m' R (.nameSpace name nameSpan s) (.nameSpace name nameSpan s')
  | typeDeclaration {s s' : Option SymbolId} (hs : Linked m m' R s s') :
    Alike m m' R (.typeDeclaration s) (.typeDeclaration s')
  | method {s s' : Option SymbolId} {t t' : TypeRef} (hs : Linked m m' R s s')
    (ht : t.Alike m m' R t') : Alike m m' R (.method s t) (.method s' t')
  | property {s s' : Option SymbolId} {t t' : TypeRef} (hs : Linked m m' R s s')
    (ht : t.Alike m m' R t') : Alike m m' R (.property s t) (.property s' t')
  | indexer {s s' : Option SymbolId} {t t' : TypeRef} (hs : Linked m m' R s s')
    (ht : t.Alike m m' R t') : Alike m m' R (.indexer s t) (.indexer s' t')
  | field {s s' : Option SymbolId} {t t' : TypeRef} (hs : Linked m m' R s s')
    (ht : t.Alike m m' R t') : Alike m m' R (.field s t) (.field s' t')
  | localVariable {t t' : TypeRef} (ht : t.Alike m m' R t') :
    Alike m m' R (.localVariable t) (.localVariable t')
  | parameter {t t' : TypeRef} (ht : t.Alike m m' R t') : Alike m m' R (.parameter t) (.parameter t')
  | baseList {ts ts' : List TypeRef} (hts : List.Forall₂ (TypeRef.Alike m m' R) ts ts') :
    Alike m m' R (.baseList ts) (.baseList ts')
  | objectCreation {s s' : Option SymbolId} (hs : Linked m m' R s s') :
    Alike m m' R (.objectCreation s) (.objectCreation s')
  | invocation {s s' : Option SymbolId} (hs : Linked m m' R s s') :
    Alike m m' R (.invocation s) (.invocation s')
  | memberAccess {s s' : Option SymbolId} (hs : Linked m m' R s s') :
    Alike m m' R (.memberAccess s) (.memberAccess s')
  | typeOf {t t' : TypeRef} (ht : t.Alike m m' R t') : Alike m m' R (.typeOf t) (.typeOf t')
  | cast {t t' : TypeRef} (ht : t.Alike m m' R t') : Alike m m' R (.cast t) (.cast t')
  | asType {t t' : TypeRef} (ht : t.Alike m m' R t') : Alike m m' R (.asType t) (.asType t')
  | genericName {s s' : Option SymbolId} (hs : Linked m m' R s s') :
    Alike m m' R (.genericName s) (.genericName s')
  | delegate {s s' : Option SymbolId} (hs : Linked m m' R s s')
    (identifierSpan returnTypeSpan parameterListSpan : Span) :
    Alike m m' R (.delegate s identifierSpan returnTypeSpan parameterListSpan)
      (.delegate s' identifierSpan returnTypeSpan parameterListSpan)
  | attributeUse {s s' : Option SymbolId} (hs : Linked m m' R s s') (nameSpan : Span) :
    Alike m m' R (.attributeUse s nameSpan) (.attributeUse s' nameSpan)
  | lambda {s s' : Option SymbolId} (hs : Linked m m' R s s') :
    Alike m m' R (.lambda s) (.lambda s')
  | usingDirective {s s' : Option SymbolId} (hs : Linked m m' R s s') (nameSpan : Span) :
    Alike m m' R (.usingDirective s nameSpan) (.usingDirective s' nameSpan)
  | arrayCreation {t t' : TypeRef} (ht : t.Alike m m' R t') :
    Alike m m' R (.arrayCreation t) (.arrayCreation t')
  | implicitArrayCreation {s s' : Option SymbolId}
    (hs : Linked m m' R (s.bind (elementType? m)) (s'.bind (elementType? m'))) :
    Alike m m' R (.implicitArrayCreation s) (.implicitArrayCreation s')
  | defaultValue {t t' : TypeRef} (ht : t.Alike m m' R t') :
    Alike m m' R (.defaultValue t) (.defaultValue t')
  | other (label label' : Option String) : Alike m m' R (.other label) (.other label')

mutual
inductive Node.Alike (m : M) (m' : M') (R : SymbolId → SymbolId → Prop) : Node → Node → Prop
  | mk {kind kind' : NodeKind} (span : Span) {children children' : List Node}
    (hkind : kind.Alike m m' R kind') (hchildren : Node.AlikeAll m m' R children children') :
    Node.Alike m m' R ⟨kind, span, children⟩ ⟨kind', span, children'⟩

inductive Node.AlikeAll (m : M) (m' : M') (R : SymbolId → SymbolId → Prop) :
    List Node → List Node → Prop
  | nil : Node.AlikeAll m m' R [] []
  | cons {n n' : Node} {ns ns' : List Node} (hn : Node.Alike m m' R n n')
    (hns : Node.AlikeAll m m' R ns ns') : Node.AlikeAll m m' R (n :: ns) (n' :: ns')
end

structure Scope.Alike (m : M) (m' : M') (R : SymbolId → SymbolId → Prop) (s s' : Scope) : Prop where
  context : Linked m m' R s.context s'.context
  nameSpace : Linked m m' R s.nameSpace s'.nameSpace
  namespaceName : s.namespaceName = s'.namespaceName

variable {m : M} {m' : M'} {R : SymbolId → SymbolId → Prop}

theorem Scope.Alike.top : Scope.top.Alike m m' R .top := ⟨.dead rfl rfl, .dead rfl rfl, rfl⟩

/-- Alike nodes declare linked symbols, or nothing. -/
theorem NodeKind.Alike.declared {kind kind' : NodeKind} (h : kind.Alike m m' R kind') :
    Option.Rel (Linked m m' R) kind.declared? kind'.declared? := by
  cases h with
  | nameSpace _ _ hs | typeDeclaration hs | method hs _ | property hs _ | indexer hs _
  | field hs _ | delegate hs => exact .some hs
  | _ => exact .none

theorem NodeKind.Alike.context {kind kind' : NodeKind} (h : kind.Alike m m' R kind')
    {scope scope' : Scope} (hscope : scope.Alike m m' R scope') :
    Linked m m' R (kind.declared?.getD scope.context) (kind'.declared?.getD scope'.context) := by
  have hdeclared := h.declared
  generalize kind.declared? = d at hdeclared ⊢
  generalize kind'.declared? = d' at hdeclared ⊢
  cases hdeclared with
  | some hs => exact hs
  | none => exact hscope.context

theorem Scope.Alike.enter {scope scope' : Scope} (hscope : scope.Alike m m' R scope') {n n' : Node}
    (hkind : n.kind.Alike m m' R n'.kind) :
    (scope.enter n).Alike m m' R (scope'.enter n') := by
  have hcontext := hkind.context hscope
  obtain ⟨kind, span, children⟩ := n
  obtain ⟨kind', span', children'⟩ := n'
  cases hkind with
  | nameSpace name _ hs => exact ⟨hs, hs, rfl⟩
  | _ => exact ⟨hcontext, hscope.nameSpace, hscope.namespaceName⟩

/-! ### Findings of alike nodes -/

/-- An import is judged by the names of the two namespaces. -/
theorem Engine.flatMap_importSites (e : Engine) (m : M) (scope : Scope)
    (imported : Option SymbolId) (span : Span) :
    (Node.importSites m scope imported span).flatMap (e.evaluate m) =
      match (imported.bind (nameSpace? m)).map Symbol.qualifiedName,
        (scope.nameSpace.bind (nameSpace? m)).map Symbol.qualifiedName with
      | some inner, some outer =>
        ((e.registry.judgeNamespace outer inner).finding? inner outer span).toList
      | _, _ => [] := by
  rw [Node.importSites]
  cases imported.bind (nameSpace? m) with
  | none => rfl
  | some inner =>
    cases scope.nameSpace.bind (nameSpace? m) with
    | none => rfl
    | some outer => exact List.flatMap_singleton ..

/-- Nodes that ask further only where they find a symbol have the same findings if they find paired
ones. -/
theorem flatMap_option_eq (e : Engine) {sites sites' : SymbolId → List Site}
    (heq : ∀ a a', R a a' → (sites a).flatMap (e.evaluate m) = (sites' a').flatMap (e.evaluate m'))
    {o o' : Option SymbolId} :
    Option.Rel R o o' → List.flatMap (e.evaluate m) (match o with | some a => sites a | none => []) =
      List.flatMap (e.evaluate m') (match o' with | some a => sites' a | none => []) := by
  rintro (hr | _)
  · exact heq _ _ hr
  · rfl

namespace Simulation

variable (h : Simulation m m' R)
include h

theorem flatMap_typeRef_eq (e : Engine) {context context' : Option SymbolId}
    (hc : Linked m m' R context context') {t t' : TypeRef} (ht : t.Alike m m' R t') :
    (t.sites context).flatMap (e.evaluate m) = (t'.sites context').flatMap (e.evaluate m') := by
  rw [TypeRef.sites, TypeRef.sites, ht.span]
  exact h.flatMap_ofSymbols_eq e .type hc ht.type t'.span

/-- One node: alike nodes in alike scopes have the same findings. -/
theorem checkNode_eq (e : Engine) {scope scope' : Scope} (hscope : scope.Alike m m' R scope')
    {n n' : Node} (hkind : n.kind.Alike m m' R n'.kind) (hspan : n.span = n'.span) :
    e.checkNode m scope n = e.checkNode m' scope' n' := by
  have hc : Linked m m' R (n.contextIn scope) (n'.contextIn scope') := hkind.context hscope
  obtain ⟨kind, span, children⟩ := n
  obtain ⟨kind', span', children'⟩ := n'
  obtain rfl : span = span' := hspan
  rw [Engine.checkNode, Engine.checkNode]
  cases hkind with
  | compilationUnit | typeDeclaration _ | other _ _ => rfl
  | nameSpace name nameSpan _ =>
    simp only [Node.sites, hscope.namespaceName]
    cases scope'.namespaceName <;> rfl
  | usingDirective hs nameSpan =>
    simp only [Node.sites, e.flatMap_importSites, h.nameSpace hs, h.nameSpace hscope.nameSpace]
  | objectCreation hs => exact h.flatMap_ofSymbols_eq e .type hc hs span
  | invocation hs =>
    refine flatMap_option_eq e (fun a a' hr => ?_) (h.filter_any (·.isMethod) hs)
    have howner : Linked m m' R (owner? m a) (owner? m' a') := h.owner (.live hr)
    rw [List.flatMap_append, List.flatMap_append, h.flatMap_ofSymbols_eq e .type hc howner,
      h.flatMap_signatureSites_eq e hc hr]
  | memberAccess hs =>
    simp only [Node.sites, List.flatMap_append]
    rw [h.flatMap_ofSymbols_eq e .type hc (h.owner hs),
      h.flatMap_ofSymbols_eq e .type hc (h.valueType hs)]
  | method _ ht | property _ ht | indexer _ ht | field _ ht | localVariable ht | parameter ht
  | typeOf ht | cast ht | asType ht | defaultValue ht | arrayCreation ht =>
    exact h.flatMap_typeRef_eq e hc ht
  | baseList hts =>
    simp only [Node.sites, List.flatMap_assoc]
    exact flatMap_eq_of_forall₂ hts fun t t' ht => h.flatMap_typeRef_eq e hc ht
  | genericName hs =>
    exact h.flatMap_ofSymbols_eq e .type hc (.of_rel (h.filter_any (·.isGeneric) hs)) span
  | delegate hs identifierSpan returnTypeSpan parameterListSpan =>
    refine flatMap_option_eq e (fun a a' hr => ?_) (hs.filter_resolves fun _ _ => h.resolves_eq)
    rw [List.flatMap_append, List.flatMap_append, h.flatMap_ofSymbols_eq e .delegate hc (.live hr),
      h.flatMap_signatureSites_eq e hc hr]
  | attributeUse hs nameSpan => exact h.flatMap_ofSymbols_eq e .attributeUse hc (h.owner hs) nameSpan
  | lambda hs =>
    refine flatMap_option_eq e (fun a a' hr => ?_) (h.filter_any (·.isMethod) hs)
    exact h.flatMap_signatureSites_eq e hc hr span span
  | implicitArrayCreation hs => exact h.flatMap_ofSymbols_eq e .type hc hs span

end Simulation

/-! ### Findings of alike trees -/

/-- A visit of an alike node in an alike scope. -/
structure Node.VisitAlike (m : M) (m' : M') (R : SymbolId → SymbolId → Prop) (v v' : Node × Scope) :
    Prop where
  kind : v.1.kind.Alike m m' R v'.1.kind
  span : v.1.span = v'.1.span
  scope : v.2.Alike m m' R v'.2

mutual
theorem Node.Alike.visits {n n' : Node} (hn : Node.Alike m m' R n n') {scope scope' : Scope}
    (hscope : scope.Alike m m' R scope') :
    List.Forall₂ (Node.VisitAlike m m' R) (n.visits scope) (n'.visits scope') := by
  cases hn with
  | mk span hkind hchildren =>
    rw [Node.visits, Node.visits]
    exact .cons ⟨hkind, rfl, hscope⟩ (hchildren.visitsAll (hscope.enter hkind))

theorem Node.AlikeAll.visitsAll {ns ns' : List Node} (hns : Node.AlikeAll m m' R ns ns')
    {scope scope' : Scope} (hscope : scope.Alike m m' R scope') :
    List.Forall₂ (Node.VisitAlike m m' R) (Node.visitsAll scope ns) (Node.visitsAll scope' ns') := by
  cases hns with
  | nil => exact .nil
  | cons hn hns => exact List.rel_append (hn.visits hscope) (hns.visitsAll hscope)
end

theorem Simulation.checkRoot_eq (h : Simulation m m' R) (e : Engine) {root root' : Node}
    (hroot : root.Alike m m' R root') : e.checkRoot m root = e.checkRoot m' root' := by
  rw [Engine.checkRoot_eq_flatMap, Engine.checkRoot_eq_flatMap]
  exact flatMap_eq_of_forall₂ (hroot.visits .top) fun v v' hv =>
    h.checkNode_eq e hv.scope hv.kind hv.span

/-- The documents of a file whose symbols a simulation relates and whose trees are alike have the
same diagnostics. -/
theorem Simulation.diagnostics_eq (e : Engine) {t t' : Tree}
    (h : Simulation t.symbols t'.symbols R) (hfile : t.file = t'.file)
    (hroot : t.root.Alike t.symbols t'.symbols R t'.root) : e.diagnostics t = e.diagnostics t' := by
  rw [Engine.diagnostics_eq_map, Engine.diagnostics_eq_map, h.checkRoot_eq e hroot, hfile]

end UsagePolicy
