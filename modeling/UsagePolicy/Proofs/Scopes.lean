import UsagePolicy.Proofs.Extraction

/-! The law of scopes: entering nodes one after the other leaves, of all declarations, the innermost
one, and of all namespaces the innermost one, whether the host has resolved them or not. -/
namespace UsagePolicy

/-! ### Declarations -/

namespace NodeKind

/-- The kinds of nodes that declare something, each with the symbol of what it declares. -/
inductive Declares : NodeKind → Option SymbolId → Prop
  | nameSpace (name : String) (nameSpan : Span) (symbol : Option SymbolId) :
    Declares (.nameSpace name nameSpan symbol) symbol
  | typeDeclaration (symbol : Option SymbolId) : Declares (.typeDeclaration symbol) symbol
  | method (symbol : Option SymbolId) (returnType : TypeRef) :
    Declares (.method symbol returnType) symbol
  | property (symbol : Option SymbolId) (type : TypeRef) : Declares (.property symbol type) symbol
  | indexer (symbol : Option SymbolId) (type : TypeRef) : Declares (.indexer symbol type) symbol
  | field (symbol : Option SymbolId) (type : TypeRef) : Declares (.field symbol type) symbol
  | delegate (symbol : Option SymbolId) (identifierSpan returnTypeSpan parameterListSpan : Span) :
    Declares (.delegate symbol identifierSpan returnTypeSpan parameterListSpan) symbol

def IsDeclaration (kind : NodeKind) : Prop := ∃ symbol, kind.Declares symbol

def IsNamespace (kind : NodeKind) : Prop :=
  ∃ name nameSpan symbol, kind = .nameSpace name nameSpan symbol

theorem declared?_eq_some_iff {kind : NodeKind} {symbol : Option SymbolId} :
    kind.declared? = some symbol ↔ kind.Declares symbol := by
  constructor
  · intro h
    cases kind <;> cases h <;> constructor
  · intro h
    cases h <;> rfl

theorem declared?_eq_none {kind : NodeKind} (h : ¬ kind.IsDeclaration) : kind.declared? = none := by
  cases hdeclared : kind.declared? with
  | none => rfl
  | some symbol => exact absurd ⟨symbol, declared?_eq_some_iff.mp hdeclared⟩ h

theorem namespaceHead?_eq_none {kind : NodeKind} (h : ¬ kind.IsNamespace) :
    kind.namespaceHead? = none := by
  cases kind with
  | nameSpace name nameSpan symbol => exact absurd ⟨name, nameSpan, symbol, rfl⟩ h
  | _ => rfl

end NodeKind

/-! ### The innermost node -/

namespace Node

variable {α : Type} {tells : NodeKind → Option α}

theorem innermost?_eq_none {ns : List Node} (h : ∀ n ∈ ns, tells n.kind = none) :
    innermost? tells ns = none := by
  rw [innermost?, List.findSome?_eq_none_iff]
  intro n hn
  exact h n (List.mem_reverse.mp hn)

/-- Nodes that tell nothing do not hide the one before them, and that one hides all others. -/
theorem innermost?_append_cons (outer : List Node) {n : Node} {inner : List Node} {a : α}
    (hn : tells n.kind = some a) (hinner : ∀ i ∈ inner, tells i.kind = none) :
    innermost? tells (outer ++ n :: inner) = some a := by
  have hnone : inner.reverse.findSome? (fun i => tells i.kind) = none := innermost?_eq_none hinner
  rw [innermost?, List.reverse_append, List.reverse_cons, List.append_assoc, List.findSome?_append,
    hnone, Option.none_or, List.singleton_append, List.findSome?_cons, hn]

end Node

/-! ### Scopes -/

namespace Scope

/-- The scope knows the innermost declaration and the innermost namespace among some nodes. -/
structure KnowsInnermost (above : List Node) (s : Scope) : Prop where
  context : ∀ outer n inner symbol, above = outer ++ n :: inner → n.kind.Declares symbol →
    (∀ i ∈ inner, ¬ i.kind.IsDeclaration) → s.context = symbol
  context_none : (∀ n ∈ above, ¬ n.kind.IsDeclaration) → s.context = none
  /-- Symbol and name are those of the same node. -/
  nameSpace : ∀ outer n inner name nameSpan symbol, above = outer ++ n :: inner →
    n.kind = .nameSpace name nameSpan symbol → (∀ i ∈ inner, ¬ i.kind.IsNamespace) →
    s.nameSpace = symbol ∧ s.namespaceName = some name
  nameSpace_none : (∀ n ∈ above, ¬ n.kind.IsNamespace) →
    s.nameSpace = none ∧ s.namespaceName = none

theorem knowsInnermost_below (above : List Node) : (below above).KnowsInnermost above where
  context := by
    rintro outer n inner symbol rfl hn hinner
    have hlast : Node.innermost? NodeKind.declared? (outer ++ n :: inner) = some symbol :=
      Node.innermost?_append_cons outer (NodeKind.declared?_eq_some_iff.mpr hn)
        fun i hi => NodeKind.declared?_eq_none (hinner i hi)
    rw [below_eq, hlast]
    rfl
  context_none := by
    intro hnone
    rw [below_eq, Node.innermost?_eq_none fun n hn => NodeKind.declared?_eq_none (hnone n hn)]
    rfl
  nameSpace := by
    rintro outer n inner name nameSpan symbol rfl hn hinner
    have hhead : n.kind.namespaceHead? = some (name, symbol) := by rw [hn]; rfl
    have hlast : Node.innermost? NodeKind.namespaceHead? (outer ++ n :: inner) =
        some (name, symbol) :=
      Node.innermost?_append_cons outer hhead
        fun i hi => NodeKind.namespaceHead?_eq_none (hinner i hi)
    rw [below_eq, hlast]
    exact ⟨rfl, rfl⟩
  nameSpace_none := by
    intro hnone
    rw [below_eq, Node.innermost?_eq_none fun n hn => NodeKind.namespaceHead?_eq_none (hnone n hn)]
    exact ⟨rfl, rfl⟩

/-- The scope behind any nodes knows the innermost declaration and the innermost namespace among
them. So a declaration that is not resolved hides all that stand around it, and so does a
namespace. -/
theorem innermost_law (above : List Node) :
    (below above).KnowsInnermost above ∧
    ∀ (n : Node) (inner : List Node),
      (n.kind.Declares none → (∀ i ∈ inner, ¬ i.kind.IsDeclaration) →
        (below (above ++ n :: inner)).context = none) ∧
      ∀ name nameSpan, n.kind = .nameSpace name nameSpan none →
        (∀ i ∈ inner, ¬ i.kind.IsNamespace) → (below (above ++ n :: inner)).nameSpace = none := by
  refine ⟨knowsInnermost_below above, fun n inner => ⟨fun hn hinner => ?_, ?_⟩⟩
  · exact (knowsInnermost_below _).context above n inner none rfl hn hinner
  · intro name nameSpan hn hinner
    exact ((knowsInnermost_below _).nameSpace above n inner name nameSpan none rfl hn hinner).1

/-- A type in the namespace `Company`, both resolved. -/
def resolvedNodes : List Node :=
  [{ kind := .nameSpace "Company" (.start 1 11) (some ⟨0⟩) },
    { kind := .typeDeclaration (some ⟨1⟩) }]

/-- A namespace that is not resolved hides the type around it, and its namespace, from what lies
deeper. -/
theorem innermost_law_unresolved :
    (below resolvedNodes).context = some ⟨1⟩ ∧
    (below (resolvedNodes ++ [{ kind := .nameSpace "Tools" (.start 3 15) none },
      { kind := .other none }])).context = none ∧
    (below (resolvedNodes ++ [{ kind := .nameSpace "Tools" (.start 3 15) none },
      { kind := .other none }])).nameSpace = none := by
  obtain ⟨hknows, hhides⟩ := innermost_law resolvedNodes
  obtain ⟨hcontext, hnamespace⟩ :=
    hhides { kind := .nameSpace "Tools" (.start 3 15) none } [{ kind := .other none }]
  have hinner :=
    hknows.context [_] { kind := .typeDeclaration (some ⟨1⟩) } [] _ rfl (.typeDeclaration _) nofun
  refine ⟨hinner, hcontext (.nameSpace _ _ _) ?_, hnamespace _ _ rfl ?_⟩
  · rintro i hi ⟨symbol, hdeclares⟩
    obtain rfl := List.mem_singleton.mp hi
    cases hdeclares
  · rintro i hi ⟨name, nameSpan, symbol, hkind⟩
    obtain rfl := List.mem_singleton.mp hi
    cases hkind

end Scope

end UsagePolicy
