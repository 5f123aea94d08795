import UsagePolicy.Proofs.Resolution.Rebinding

/-! What the engine does not read. Labels are for people, nobody asks for the type of a field, and
only an array creation without a written type asks for the element of an array. So these may differ
between two documents that are judged, and the diagnostics are the same. -/
namespace UsagePolicy

open SymbolModel

/-! ### Leaving out what is not read -/

def SymbolKind.stripped : SymbolKind → SymbolKind
  | type args _ => type args none
  | field _ => field none
  | kind => kind

/-- The symbol without the element of an array and without the type of a field. -/
def Symbol.stripped (s : Symbol) : Symbol := { s with kind := s.kind.stripped }

def SymbolTable.stripped (t : SymbolTable) : SymbolTable := ⟨t.symbols.map Symbol.stripped⟩

theorem SymbolTable.get?_stripped (t : SymbolTable) (a : SymbolId) :
    t.stripped.get? a = (t.get? a).map Symbol.stripped := by
  simp [stripped, get?]

def NodeKind.unlabelled : NodeKind → NodeKind
  | other _ => other none
  | kind => kind

theorem NodeKind.unlabelled_eq_or (kind : NodeKind) :
    kind.unlabelled = kind ∨ ∃ label, kind = .other label := by
  cases kind with
  | other label => exact .inr ⟨label, rfl⟩
  | _ => exact .inl rfl

/-- Nodes that differ in labels only are the same, or both of them have one. -/
theorem NodeKind.eq_or_other {kind kind' : NodeKind} (h : kind.unlabelled = kind'.unlabelled) :
    kind = kind' ∨ ∃ label label', kind = .other label ∧ kind' = .other label' := by
  rcases kind.unlabelled_eq_or with hk | ⟨label, rfl⟩
  · rcases kind'.unlabelled_eq_or with hk' | ⟨label', rfl⟩
    · exact .inl (hk ▸ hk' ▸ h)
    · exact .inr ⟨none, label', hk.symm.trans h, rfl⟩
  · rcases kind'.unlabelled_eq_or with hk' | ⟨label', rfl⟩
    · exact .inr ⟨label, none, rfl, hk'.symm.trans h.symm⟩
    · exact .inr ⟨label, label', rfl, rfl⟩

namespace Node

mutual
/-- The node without the labels in it and below it. -/
def unlabelled : Node → Node
  | ⟨kind, span, children⟩ => ⟨kind.unlabelled, span, unlabelledAll children⟩

def unlabelledAll : List Node → List Node
  | [] => []
  | n :: ns => n.unlabelled :: unlabelledAll ns
end

end Node

/-! ### Tables that agree in what is read -/

/-- A handle that resolves, paired with itself. -/
def Itself (t : SymbolTable) (a a' : SymbolId) : Prop := a = a' ∧ resolves t a

namespace SymbolTable

variable {t t' : SymbolTable} (h : t.stripped = t'.stripped)
include h

theorem map_stripped_get? (a : SymbolId) :
    (t.get? a).map Symbol.stripped = (t'.get? a).map Symbol.stripped := by
  rw [← t.get?_stripped, ← t'.get?_stripped, h]

theorem resolves_eq_of_stripped (a : SymbolId) : resolves t a = resolves t' a := by
  have hget := congrArg Option.isSome (map_stripped_get? h a)
  simpa [resolves, symbol?_eq_get?] using hget

theorem linked_itself (o : Option SymbolId) : Linked t t' (Itself t) o o := by
  cases o with
  | none => exact .dead rfl rfl
  | some a =>
    cases ha : resolves t a with
    | true => exact .live ⟨rfl, ha⟩
    | false =>
      have ha' : resolves t' a = false := by rw [← resolves_eq_of_stripped h, ha]
      exact .dead (resolves_eq_false.mp ha) (resolves_eq_false.mp ha')

theorem linkedAll_itself (as : List SymbolId) : LinkedAll t t' (Itself t) as as := by
  rw [LinkedAll, funext (resolves_eq_of_stripped h)]
  refine List.forall₂_same.mpr fun a ha => ⟨rfl, ?_⟩
  rw [resolves_eq_of_stripped h]
  exact (List.mem_filter.mp ha).2

theorem symbolKind_alike {kind kind' : SymbolKind} (hkind : kind.stripped = kind'.stripped) :
    kind.Alike t t' (Itself t) kind' := by
  have hlink := linked_itself h
  have hlinks := linkedAll_itself h
  -- equal constructors remain, and of their fields all but elements and types of fields are equal
  cases kind <;> cases kind' <;> cases hkind
  · exact .nameSpace
  · exact .type (hlinks _) _ _
  · exact .method (hlink _) (hlinks _)
  · exact .property (hlink _)
  · exact .field _ _
  · exact .delegate (hlink _) (hlinks _) (hlinks _)
  · exact .attributeConstructor
  · exact .parameter (hlink _)

theorem pairsAlike_of_stripped : PairsAlike t t' (Itself t) := by
  rintro a _ ⟨rfl, ha⟩
  obtain ⟨s, hs⟩ := Option.isSome_iff_exists.mp ha
  have hget := map_stripped_get? h a
  rw [← symbol?_eq_get?, hs, Option.map_some] at hget
  obtain ⟨s', hs', hstripped⟩ := Option.map_eq_some_iff.mp hget.symm
  obtain ⟨name, nameSpace, owner, kind⟩ := s
  obtain ⟨name', nameSpace', owner', kind'⟩ := s'
  simp only [Symbol.stripped, Symbol.mk.injEq] at hstripped
  obtain ⟨rfl, rfl, rfl, hkind⟩ := hstripped
  exact ⟨_, _, hs, hs', rfl, rfl, linked_itself h _, symbolKind_alike h hkind.symm⟩

theorem simulation_of_stripped : Simulation t t' (Itself t) := by
  refine .of_pairsAlike (pairsAlike_of_stripped h) ?_
  rintro a _ b _ ⟨rfl, -⟩ ⟨rfl, -⟩
  exact Iff.rfl

/-- The element types of an array are linked if both tables know the same one. -/
theorem elementType_linked_itself {o : Option SymbolId}
    (ho : ∀ a, o = some a → t.elementType? a = t'.elementType? a) :
    Linked t t' (Itself t) (o.bind t.elementType?) (o.bind t'.elementType?) := by
  cases o with
  | none => exact .dead rfl rfl
  | some a =>
    rw [Option.bind_some, Option.bind_some, ho a rfl]
    exact linked_itself h _

end SymbolTable

/-! ### Trees that agree but for labels -/

/-- Both tables know the same element of an array whose creation does not write its type. -/
def NodeKind.SameElement (t t' : SymbolTable) (kind : NodeKind) : Prop :=
  ∀ a, kind = .implicitArrayCreation (some a) → t.elementType? a = t'.elementType? a

variable {t t' : SymbolTable}

theorem NodeKind.alike_of_unlabelled (h : t.stripped = t'.stripped) {kind kind' : NodeKind}
    (hkind : kind.unlabelled = kind'.unlabelled) (harray : kind.SameElement t t') :
    kind.Alike t t' (Itself t) kind' := by
  rcases NodeKind.eq_or_other hkind with rfl | ⟨label, label', rfl, rfl⟩
  · have hself := kind.alike_rebind (f := some)
      (fun a _ => SymbolTable.linked_itself h (some a)) (by
        rintro s rfl
        rw [Option.bind_fun_some]
        exact SymbolTable.elementType_linked_itself h fun a ha => harray a (ha ▸ rfl))
    rwa [kind.rebind_some] at hself
  · exact .other label label'

namespace Node

mutual
theorem alike_of_unlabelled (h : t.stripped = t'.stripped) (above : List Node) : (n n' : Node) →
    n.unlabelled = n'.unlabelled → (∀ p ∈ n.placed above, p.2.kind.SameElement t t') →
    n.Alike t t' (Itself t) n'
  | ⟨kind, span, children⟩, ⟨kind', span', children'⟩, hn, harrays => by
    simp only [unlabelled, Node.mk.injEq] at hn
    obtain ⟨hkind, rfl, hchildren⟩ := hn
    rw [placed, List.forall_mem_cons] at harrays
    exact .mk span (NodeKind.alike_of_unlabelled h hkind harrays.1)
      (alikeAll_of_unlabelled h _ children children' hchildren harrays.2)

theorem alikeAll_of_unlabelled (h : t.stripped = t'.stripped) (above : List Node) :
    (ns ns' : List Node) → unlabelledAll ns = unlabelledAll ns' →
    (∀ p ∈ placedAll above ns, p.2.kind.SameElement t t') → AlikeAll t t' (Itself t) ns ns'
  | [], [], _, _ => .nil
  | [], _ :: _, hns, _ => by cases hns
  | _ :: _, [], hns, _ => by cases hns
  | n :: ns, n' :: ns', hns, harrays => by
    simp only [unlabelledAll, List.cons.injEq] at hns
    rw [placedAll, List.forall_mem_append] at harrays
    exact .cons (alike_of_unlabelled h above n n' hns.1 harrays.1)
      (alikeAll_of_unlabelled h above ns ns' hns.2 harrays.2)
end

end Node

/-- Two documents of a file have the same diagnostics if their trees agree but for labels and their
tables agree but for the types of fields and the elements of arrays. The elements are free where no
array is created without its type, and otherwise those that such a creation asks for have to agree. -/
theorem Engine.diagnostics_unread (e : Engine) (t t' : Tree) (hfile : t.file = t'.file)
    (hroot : t.root.unlabelled = t'.root.unlabelled)
    (hsymbols : t.symbols.stripped = t'.symbols.stripped) :
    ((∀ p ∈ t.root.placed [], ∀ s, p.2.kind ≠ .implicitArrayCreation s) →
      e.diagnostics t = e.diagnostics t') ∧
    ((∀ p ∈ t.root.placed [], ∀ a, p.2.kind = .implicitArrayCreation (some a) →
        t.symbols.elementType? a = t'.symbols.elementType? a) →
      e.diagnostics t = e.diagnostics t') := by
  have hagree (harrays : ∀ p ∈ t.root.placed [], p.2.kind.SameElement t.symbols t'.symbols) :
      e.diagnostics t = e.diagnostics t' := by
    have hsimulation := SymbolTable.simulation_of_stripped hsymbols
    exact hsimulation.diagnostics_eq e hfile
      (Node.alike_of_unlabelled hsymbols [] t.root t'.root hroot harrays)
  refine ⟨fun hnone => hagree fun p hp a ha => ?_, hagree⟩
  exact absurd ha (hnone p hp (some a))

/-- A type with a labelled block in it. The table has two array types and a field; the element of
`Leaf[]` is `Leaf`, that of `Grid` and the type of the field are open. -/
def gridDocument (label : String) (element fieldType : Option SymbolId) (body : NodeKind) : Tree where
  file := "Grid.cs"
  symbols := ⟨#[.ofTypeName "Host", .ofTypeName "Leaf",
    { name := "Leaf[]", kind := .type [] (some ⟨1⟩) }, { name := "Grid", kind := .type [] element },
    { name := "count", kind := .field fieldType }]⟩
  root := { kind := .typeDeclaration (some ⟨0⟩), children := [
    { kind := .other (some label), children := [{ kind := body, span := .start 3 9 }] }] }

/-- An engine that forbids `Leaf` and `Grid`. -/
def gridEngine : Engine where
  registry := { usageRules := ["Leaf", "Grid"].map fun name => {
    name, category := .type, context := .any, used := .named name, sites := UsageKind.ofSymbols,
    descriptor := .ofCategory .type } }

/-- A cast to `Grid` and the creation of a `Leaf[]`. -/
theorem diagnostics_unread_grids :
    gridEngine.diagnostics (gridDocument "block" (some ⟨1⟩) (some ⟨1⟩)
        (.cast { type := some ⟨3⟩, span := .start 3 9 })) =
      gridEngine.diagnostics (gridDocument "region" none none
        (.cast { type := some ⟨3⟩, span := .start 3 9 })) ∧
    (gridEngine.diagnostics (gridDocument "block" (some ⟨1⟩) (some ⟨1⟩)
        (.implicitArrayCreation (some ⟨2⟩)))).map (·.rule) = ["Leaf"] ∧
    gridEngine.diagnostics (gridDocument "block" (some ⟨1⟩) (some ⟨1⟩)
        (.implicitArrayCreation (some ⟨2⟩))) =
      gridEngine.diagnostics (gridDocument "region" none none
        (.implicitArrayCreation (some ⟨2⟩))) := by
  have hagree (body : NodeKind) :=
    gridEngine.diagnostics_unread (gridDocument "block" (some ⟨1⟩) (some ⟨1⟩) body)
      (gridDocument "region" none none body) rfl rfl
      (by simp [gridDocument, SymbolTable.stripped, Symbol.stripped, SymbolKind.stripped])
  refine ⟨(hagree _).1 ?_, ?_, (hagree _).2 ?_⟩
  · simp [gridDocument, Node.placed, Node.placedAll]
  · rw [Engine.diagnostics_eq_map, Engine.checkRoot_eq_flatMap]
    decide +kernel
  · simp [gridDocument, Node.placed, Node.placedAll, SymbolTable.elementType?, SymbolTable.get?,
      Symbol.elementType?]

/-- The element of `Grid` is read where a creation asks for it. -/
example : gridEngine.diagnostics (gridDocument "block" (some ⟨1⟩) none
      (.implicitArrayCreation (some ⟨3⟩))) ≠
    gridEngine.diagnostics (gridDocument "block" none none
      (.implicitArrayCreation (some ⟨3⟩))) := by
  simp only [Engine.diagnostics_eq_map, Engine.checkRoot_eq_flatMap]
  decide +kernel

end UsagePolicy
