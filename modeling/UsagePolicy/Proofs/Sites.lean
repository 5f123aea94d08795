import UsagePolicy.Proofs.Extraction
import UsagePolicy.Proofs.Resolution.Tables

/-! What can be said of the sites of a node, in whatever scope it stands and whatever model answers.
A node is about namespaces or about symbols, and its sites are of that family alone; those of symbols
all have the one context that the node opens for its children. Callables spread into a site for each
type of their signature. -/
namespace UsagePolicy

open SymbolModel

/-! ### Single sites -/

theorem Scope.context_enter (scope : Scope) (n : Node) :
    (scope.enter n).context = n.contextIn scope := by
  obtain ⟨kind, span, children⟩ := n
  cases kind <;> rfl

/-- The site is one that the node can have in a scope. -/
structure Node.Admits (n : Node) (scope : Scope) (s : Site) : Prop where
  nameSpace_iff : (∃ outer inner, s.subject = .nameSpace outer inner) ↔ s.kind = .nameSpace
  node_iff : s.kind = .nameSpace ↔
    (∃ name nameSpan symbol, n.kind = .nameSpace name nameSpan symbol) ∨
      ∃ imported nameSpan, n.kind = .usingDirective imported nameSpan
  ne_typeArgument : s.kind ≠ .typeArgument
  delegate : s.kind = .delegate →
    ∃ symbol identifierSpan returnTypeSpan parameterListSpan,
      n.kind = .delegate symbol identifierSpan returnTypeSpan parameterListSpan
  attributeUse : s.kind = .attributeUse → ∃ ctor nameSpan, n.kind = .attributeUse ctor nameSpan
  /-- A declaration is its own context, every other node has that of the scope. -/
  context : ∀ c u, s.subject = .symbol c u → (scope.enter n).context = some c
  span : s.span ∈ n.spans

theorem NodeKind.isAboutNamespaces_iff {kind : NodeKind} : kind.isAboutNamespaces ↔
    (∃ name nameSpan symbol, kind = .nameSpace name nameSpan symbol) ∨
      ∃ imported nameSpan, kind = .usingDirective imported nameSpan := by
  cases kind <;> simp [isAboutNamespaces]

theorem NodeKind.exists_of_delegate_mem {kind : NodeKind} (h : .delegate ∈ kind.usageKinds) :
    ∃ symbol identifierSpan returnTypeSpan parameterListSpan,
      kind = .delegate symbol identifierSpan returnTypeSpan parameterListSpan := by
  cases kind <;> simp [usageKinds] at h ⊢

theorem NodeKind.exists_of_attributeUse_mem {kind : NodeKind}
    (h : .attributeUse ∈ kind.usageKinds) : ∃ ctor nameSpan, kind = .attributeUse ctor nameSpan := by
  cases kind <;> simp [usageKinds] at h ⊢

theorem NodeKind.usageKinds_subset (kind : NodeKind) :
    kind.usageKinds ⊆ [.type, .delegate, .attributeUse] := by
  cases kind <;> simp [usageKinds]

variable {M : Type} [SymbolModel M] {m : M}

theorem Node.admits_of_mem_sites {n : Node} {scope : Scope} {s : Site} (hs : s ∈ n.sites m scope) :
    n.Admits scope s := by
  cases hn : n.kind.isAboutNamespaces with
  | true =>
    obtain ⟨outer, inner, span, hspan, rfl⟩ := exists_namespaces_of_mem_sites hn hs
    exact {
      nameSpace_iff := ⟨fun _ => rfl, fun _ => ⟨outer, inner, rfl⟩⟩
      node_iff := ⟨fun _ => NodeKind.isAboutNamespaces_iff.mp hn, fun _ => rfl⟩
      ne_typeArgument := nofun
      delegate := nofun
      attributeUse := nofun
      context := nofun
      span := hspan }
  | false =>
    obtain ⟨⟨c, u, hcontext, hsubject, hspan⟩, hkind⟩ := isUsage_of_mem_sites hn hs
    have hkinds := n.kind.usageKinds_subset hkind
    have hne : s.kind ≠ .nameSpace := by
      rintro h
      simp [h] at hkinds
    exact {
      nameSpace_iff := ⟨fun ⟨_, _, h⟩ => (nomatch hsubject.symm.trans h), fun h => absurd h hne⟩
      node_iff := ⟨fun h => absurd h hne, fun h => by
        rw [← NodeKind.isAboutNamespaces_iff, hn] at h
        cases h⟩
      ne_typeArgument := by
        rintro h
        simp [h] at hkinds
      delegate := fun h => NodeKind.exists_of_delegate_mem (h ▸ hkind)
      attributeUse := fun h => NodeKind.exists_of_attributeUse_mem (h ▸ hkind)
      context := by
        intro c' u' h
        obtain ⟨rfl, rfl⟩ := Subject.symbol.inj (hsubject.symm.trans h)
        rw [Scope.context_enter, hcontext]
      span := hspan }

/-! ### Signatures -/

/-- The types that come along with a callable. -/
structure Signature where
  owner : Option SymbolId
  returnType : Option SymbolId
  parameterTypes : List SymbolId

namespace Signature

/-- The signature that a model tells of. -/
def answered (m : M) (f : SymbolId) : Signature where
  owner := owner? m f
  returnType := returnType? m f
  parameterTypes := SymbolModel.parameterTypes m f

/-- The signature as symbols spell it: the owner counts if it resolves, the return type as it stands,
and of the parameters those that resolve to a parameter with a type. -/
def written (m : M) (s : Symbol) : Signature where
  owner := s.owner.filter (resolves m)
  returnType := s.returnType?
  parameterTypes := s.parameters.filterMap fun p => (symbol? m p).bind Symbol.parameterType?

end Signature

/-- The model tells of signatures what its symbols spell. -/
def SymbolModel.ReadsSymbols (m : M) : Prop :=
  ∀ f s, symbol? m f = some s → Signature.answered m f = .written m s

theorem SymbolTable.readsSymbols (t : SymbolTable) : ReadsSymbols t := by
  intro f s hs
  have howner : t.owner? f = s.owner.filter (resolves t) := owner?_of_get? hs
  rw [symbol?_eq_get?] at hs
  have hreturn : t.returnType? f = s.returnType? := by simp [returnType?, hs]
  have hparameters : t.parameterTypes f =
      s.parameters.filterMap fun p => (t.get? p).bind Symbol.parameterType? := by
    simp [parameterTypes, hs]
  simp only [Signature.answered, Signature.written, SymbolModel.owner?, SymbolModel.returnType?,
    SymbolModel.parameterTypes, symbol?_eq_get?, howner, hreturn, hparameters]

/-- The site of a type that is used in a context. -/
def Site.ofType (context : SymbolId) (span : Span) (used : SymbolId) : Site where
  subject := .symbol context used
  span := span
  kind := .type

/-- The sites of a node that calls, takes or declares a callable: one for each type that comes along,
in order. -/
structure Node.Spreads (n : Node) (context f : SymbolId) (symbol : Symbol) (σ : Signature)
    (sites : List Site) : Prop where
  invocation : n.kind = .invocation (some f) → symbol.isMethod →
    sites = (σ.owner.toList ++ σ.returnType.toList ++ σ.parameterTypes).map (.ofType context n.span)
  lambda : n.kind = .lambda (some f) → symbol.isMethod →
    sites = (σ.returnType.toList ++ σ.parameterTypes).map (.ofType context n.span)
  /-- The delegate itself comes first, and return type and parameters have spans of their own. -/
  delegate : ∀ identifierSpan returnTypeSpan parameterListSpan,
    n.kind = .delegate (some f) identifierSpan returnTypeSpan parameterListSpan →
    sites = ⟨.symbol context f, identifierSpan, .delegate⟩ ::
      (σ.returnType.toList.map (.ofType context returnTypeSpan) ++
        σ.parameterTypes.map (.ofType context parameterListSpan))

theorem Site.ofSymbols_type (c : SymbolId) (used : Option SymbolId) (span : Span) :
    Site.ofSymbols .type (some c) used span = used.toList.map (.ofType c span) := by
  cases used <;> rfl

theorem signatureSites_some (c f : SymbolId) (returnSpan parametersSpan : Span) :
    signatureSites m (some c) f returnSpan parametersSpan =
      (Signature.answered m f).returnType.toList.map (.ofType c returnSpan) ++
        (Signature.answered m f).parameterTypes.map (.ofType c parametersSpan) := by
  have hparameters : (parameterTypes m f).flatMap
      (fun p => Site.ofSymbols .type (some c) (some p) parametersSpan) =
        (parameterTypes m f).map (.ofType c parametersSpan) := List.map_eq_flatMap.symm
  rw [signatureSites, Site.ofSymbols_type, hparameters]
  rfl

theorem Node.sites_spread {n : Node} {scope : Scope} {c f : SymbolId} {symbol : Symbol}
    (hcontext : (scope.enter n).context = some c) (hf : symbol? m f = some symbol) :
    n.Spreads c f symbol (.answered m f) (n.sites m scope) := by
  obtain ⟨kind, span, children⟩ := n
  rw [Scope.context_enter] at hcontext
  constructor
  · rintro rfl hmethod
    have hkept : (some f).filter (isMethod m) = some f := by simp [isMethod, hf, hmethod]
    simp only [sites, hcontext, hkept, Site.ofSymbols_type, signatureSites_some, List.map_append,
      List.append_assoc]
    rfl
  · rintro rfl hmethod
    have hkept : (some f).filter (isMethod m) = some f := by simp [isMethod, hf, hmethod]
    simp only [sites, hcontext, hkept, signatureSites_some, List.map_append]
  · rintro identifierSpan returnTypeSpan parameterListSpan rfl
    have hkept : (some f).filter (fun s => (symbol? m s).isSome) = some f := by simp [hf]
    simp only [sites, hcontext, hkept, signatureSites_some]
    rfl

/-- A delegate is used as such once, before the types of its signature. -/
theorem Node.delegate_first {n : Node} {scope : Scope} {before after : List Site} {s : Site}
    (hsites : n.sites m scope = before ++ s :: after) (hs : s.kind = .delegate) : before = [] := by
  have hmem : s ∈ n.sites m scope := by simp [hsites]
  obtain ⟨symbol, identifierSpan, returnTypeSpan, parameterListSpan, hkind⟩ :=
    (admits_of_mem_sites hmem).delegate hs
  have hcontext : (scope.enter n).context = symbol := by
    rw [Scope.context_enter, contextIn, hkind]
    rfl
  cases hresolved : symbol.filter fun d => (symbol? m d).isSome with
  | none => simp [sites, hkind, hresolved] at hmem
  | some d =>
    obtain ⟨rfl, hd⟩ := Option.filter_eq_some_iff.mp hresolved
    obtain ⟨callable, hcallable⟩ := Option.isSome_iff_exists.mp hd
    have hspread := (sites_spread hcontext hcallable).delegate _ _ _ hkind
    cases before with
    | nil => rfl
    | cons first before =>
      -- all that comes after the first site is used as a type
      rw [hsites, List.cons_append] at hspread
      have htype : s ∈ before ++ s :: after := by simp
      rw [(List.cons.inj hspread).2, List.mem_append] at htype
      rcases htype with htype | htype
      · obtain ⟨u, -, rfl⟩ := List.mem_map.mp htype
        cases hs
      · obtain ⟨u, -, rfl⟩ := List.mem_map.mp htype
        cases hs

/-- Without a context nothing is used but namespaces. -/
theorem Node.kind_of_context_none {n : Node} {scope : Scope} {s : Site}
    (hcontext : (scope.enter n).context = none) (hs : s ∈ n.sites m scope) : s.kind = .nameSpace := by
  have hadmits := admits_of_mem_sites hs
  cases hsubject : s.subject with
  | nameSpace outer inner => exact hadmits.nameSpace_iff.mp ⟨outer, inner, hsubject⟩
  | symbol c u => cases hcontext.symm.trans (hadmits.context c u hsubject)

/-- The sites of a node are well formed, whatever the model and the scope; a delegate is used as such
in the first site alone; callables spread into one site for each type that the model tells of, or,
if it reads symbols, that they spell; and without a context there are sites of namespaces only. -/
theorem Node.sites_well_formed (m : M) (scope : Scope) (n : Node) :
    (∀ s ∈ n.sites m scope, n.Admits scope s) ∧
    (∀ before s after, n.sites m scope = before ++ s :: after → s.kind = .delegate → before = []) ∧
    (∀ c f symbol, (scope.enter n).context = some c → symbol? m f = some symbol →
      n.Spreads c f symbol (.answered m f) (n.sites m scope) ∧
      (ReadsSymbols m → n.Spreads c f symbol (.written m symbol) (n.sites m scope))) ∧
    ((scope.enter n).context = none → ∀ s ∈ n.sites m scope, s.kind = .nameSpace) := by
  refine ⟨fun s => admits_of_mem_sites, fun before s after => delegate_first, ?_,
    fun hcontext s => kind_of_context_none hcontext⟩
  intro c f symbol hcontext hf
  have hspread := sites_spread (m := m) hcontext hf
  refine ⟨hspread, fun hreads => ?_⟩
  rwa [← hreads f symbol hf]

/-- A type `Tool` with a method that returns something unknown and takes a `Tool`, then something
that is no parameter, then a parameter without a type. -/
def toolbox : SymbolTable where
  symbols := #[
    { name := "Tool", kind := .type [] none },
    { name := "Run", owner := some ⟨0⟩, kind := .method (some ⟨9⟩) [⟨2⟩, ⟨0⟩, ⟨3⟩] },
    { name := "tool", kind := .parameter (some ⟨0⟩) },
    { name := "rest", kind := .parameter none }]

theorem Node.sites_well_formed_toolbox :
    ({ kind := .invocation (some ⟨1⟩), span := .start 4 9 } : Node).sites toolbox
        { context := some ⟨1⟩ } =
      [.ofType ⟨1⟩ (.start 4 9) ⟨0⟩, .ofType ⟨1⟩ (.start 4 9) ⟨9⟩, .ofType ⟨1⟩ (.start 4 9) ⟨0⟩] := by
  obtain ⟨-, -, hspread, -⟩ := sites_well_formed toolbox { context := some ⟨1⟩ }
    { kind := .invocation (some ⟨1⟩), span := .start 4 9 }
  exact ((hspread ⟨1⟩ ⟨1⟩ _ rfl rfl).2 toolbox.readsSymbols).invocation rfl rfl

end UsagePolicy
