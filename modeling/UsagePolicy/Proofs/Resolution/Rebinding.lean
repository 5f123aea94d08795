import UsagePolicy.Proofs.Resolution.Nodes
import UsagePolicy.Proofs.Resolution.Tables

/-! Rebinding a document: each handle in its tree and in its table is exchanged for another one, or
dropped. The diagnostics stay the same if resolved handles lead to the rebound symbols, no two of
them are merged, and dangling handles are dropped or dangle again. The main result is the case in
which the resolved handles are kept and all others are dropped. -/
namespace UsagePolicy

open SymbolModel

/-! ### Handles and their exchange -/

theorem toList_bind (f : SymbolId → Option SymbolId) (o : Option SymbolId) :
    (o.bind f).toList = o.toList.filterMap f := by
  cases o with
  | none => rfl
  | some a => cases hf : f a <;> simp [hf]

namespace SymbolKind

def mentions : SymbolKind → List SymbolId
  | nameSpace | attributeConstructor => []
  | type args element => args ++ element.toList
  | method returnType parameters => returnType.toList ++ parameters
  | delegate returnType parameters args => returnType.toList ++ (parameters ++ args)
  | property value | field value | parameter value => value.toList

def rebind (f : SymbolId → Option SymbolId) : SymbolKind → SymbolKind
  | nameSpace => nameSpace
  | type args element => type (args.filterMap f) (element.bind f)
  | method returnType parameters => method (returnType.bind f) (parameters.filterMap f)
  | property valueType => property (valueType.bind f)
  | field fieldType => field (fieldType.bind f)
  | delegate returnType parameters args =>
    delegate (returnType.bind f) (parameters.filterMap f) (args.filterMap f)
  | attributeConstructor => attributeConstructor
  | parameter paramType => parameter (paramType.bind f)

theorem mentions_rebind (f : SymbolId → Option SymbolId) (kind : SymbolKind) :
    (kind.rebind f).mentions = kind.mentions.filterMap f := by
  cases kind <;> simp [rebind, mentions, toList_bind]

end SymbolKind

namespace Symbol

def mentions (s : Symbol) : List SymbolId := s.owner.toList ++ s.kind.mentions

def rebind (f : SymbolId → Option SymbolId) (s : Symbol) : Symbol :=
  { s with owner := s.owner.bind f, kind := s.kind.rebind f }

theorem mentions_rebind (f : SymbolId → Option SymbolId) (s : Symbol) :
    (s.rebind f).mentions = s.mentions.filterMap f := by
  rw [mentions, mentions, List.filterMap_append, ← toList_bind, ← SymbolKind.mentions_rebind]
  rfl

theorem elementType?_rebind (f : SymbolId → Option SymbolId) (s : Symbol) :
    (s.rebind f).elementType? = s.elementType?.bind f := by
  obtain ⟨name, nameSpace, owner, kind⟩ := s
  cases kind <;> rfl

theorem elementType?_subset_mentions (s : Symbol) : s.elementType?.toList ⊆ s.mentions := by
  obtain ⟨name, nameSpace, owner, kind⟩ := s
  cases kind with
  | type args element =>
    intro a ha
    exact List.mem_append_right _ (List.mem_append_right _ ha)
  | _ => exact List.nil_subset _

end Symbol

def TypeRef.rebind (f : SymbolId → Option SymbolId) (t : TypeRef) : TypeRef :=
  { t with type := t.type.bind f }

theorem TypeRef.rebind_some (r : TypeRef) : r.rebind some = r := by
  simp [rebind]

namespace NodeKind

def mentions : NodeKind → List SymbolId
  | compilationUnit | other _ => []
  | nameSpace _ _ s | typeDeclaration s | objectCreation s | invocation s | memberAccess s
  | genericName s | delegate s _ _ _ | attributeUse s _ | lambda s | usingDirective s _
  | implicitArrayCreation s => s.toList
  | method s t | property s t | indexer s t | field s t => s.toList ++ t.type.toList
  | localVariable t | parameter t | typeOf t | cast t | asType t | arrayCreation t
  | defaultValue t => t.type.toList
  | baseList ts => ts.flatMap (·.type.toList)

def rebind (f : SymbolId → Option SymbolId) : NodeKind → NodeKind
  | compilationUnit => compilationUnit
  | nameSpace name nameSpan s => nameSpace name nameSpan (s.bind f)
  | typeDeclaration s => typeDeclaration (s.bind f)
  | method s t => method (s.bind f) (t.rebind f)
  | property s t => property (s.bind f) (t.rebind f)
  | indexer s t => indexer (s.bind f) (t.rebind f)
  | field s t => field (s.bind f) (t.rebind f)
  | localVariable t => localVariable (t.rebind f)
  | parameter t => parameter (t.rebind f)
  | baseList ts => baseList (ts.map (·.rebind f))
  | objectCreation s => objectCreation (s.bind f)
  | invocation s => invocation (s.bind f)
  | memberAccess s => memberAccess (s.bind f)
  | typeOf t => typeOf (t.rebind f)
  | cast t => cast (t.rebind f)
  | asType t => asType (t.rebind f)
  | genericName s => genericName (s.bind f)
  | delegate s identifierSpan returnTypeSpan parameterListSpan =>
    delegate (s.bind f) identifierSpan returnTypeSpan parameterListSpan
  | attributeUse s nameSpan => attributeUse (s.bind f) nameSpan
  | lambda s => lambda (s.bind f)
  | usingDirective s nameSpan => usingDirective (s.bind f) nameSpan
  | arrayCreation t => arrayCreation (t.rebind f)
  | implicitArrayCreation s => implicitArrayCreation (s.bind f)
  | defaultValue t => defaultValue (t.rebind f)
  | other label => other label

theorem mentions_rebind (f : SymbolId → Option SymbolId) (kind : NodeKind) :
    (kind.rebind f).mentions = kind.mentions.filterMap f := by
  cases kind <;> simp [rebind, mentions, toList_bind, TypeRef.rebind, List.flatMap_map,
    List.filterMap_flatMap]

theorem rebind_some (kind : NodeKind) : kind.rebind some = kind := by
  cases kind <;> simp [rebind, TypeRef.rebind_some]

/-- Exchanging handles for linked ones leaves a node alike. Of an implicit array the element types
have to be linked. -/
theorem alike_rebind {M M' : Type} [SymbolModel M] [SymbolModel M'] {m : M} {m' : M'}
    {R : SymbolId → SymbolId → Prop} {f : SymbolId → Option SymbolId} (kind : NodeKind)
    (hlinked : ∀ a ∈ kind.mentions, Linked m m' R (some a) (f a))
    (harray : ∀ s, kind = .implicitArrayCreation s →
      Linked m m' R (s.bind (elementType? m)) ((s.bind f).bind (elementType? m'))) :
    kind.Alike m m' R (kind.rebind f) := by
  have hoption {o : Option SymbolId} (ho : ∀ a ∈ o.toList, Linked m m' R (some a) (f a)) :
      Linked m m' R o (o.bind f) := by
    cases o with
    | none => exact .dead rfl rfl
    | some a => exact ho a (by simp)
  have htype {r : TypeRef} (hr : ∀ a ∈ r.type.toList, Linked m m' R (some a) (f a)) :
      r.Alike m m' R (r.rebind f) := ⟨hoption hr, rfl⟩
  cases kind with
  | compilationUnit | other _ => constructor
  | nameSpace _ _ s | typeDeclaration s | objectCreation s | invocation s | memberAccess s
  | genericName s | delegate s _ _ _ | attributeUse s _ | lambda s | usingDirective s _ =>
    constructor
    exact hoption hlinked
  | implicitArrayCreation s => exact .implicitArrayCreation (harray s rfl)
  | method s r | property s r | indexer s r | field s r =>
    obtain ⟨hs, hr⟩ := List.forall_mem_append.mp hlinked
    constructor
    · exact hoption hs
    · exact htype hr
  | localVariable r | parameter r | typeOf r | cast r | asType r | arrayCreation r
  | defaultValue r =>
    constructor
    exact htype hlinked
  | baseList rs =>
    refine .baseList (List.forall₂_map_right_iff.mpr (List.forall₂_same.mpr fun r hr => ?_))
    exact htype fun a ha => hlinked a (List.mem_flatMap.mpr ⟨r, hr, ha⟩)

end NodeKind

namespace Node

mutual
def mentions : Node → List SymbolId
  | ⟨kind, _, children⟩ => kind.mentions ++ mentionsAll children

def mentionsAll : List Node → List SymbolId
  | [] => []
  | n :: ns => n.mentions ++ mentionsAll ns
end

mutual
def rebind (f : SymbolId → Option SymbolId) : Node → Node
  | ⟨kind, span, children⟩ => ⟨kind.rebind f, span, rebindAll f children⟩

def rebindAll (f : SymbolId → Option SymbolId) : List Node → List Node
  | [] => []
  | n :: ns => n.rebind f :: rebindAll f ns
end

mutual
theorem mentions_rebind (f : SymbolId → Option SymbolId) : (n : Node) →
    (n.rebind f).mentions = n.mentions.filterMap f
  | ⟨kind, span, children⟩ => by
    rw [rebind, mentions, mentions, List.filterMap_append, kind.mentions_rebind,
      mentionsAll_rebind f children]

theorem mentionsAll_rebind (f : SymbolId → Option SymbolId) : (ns : List Node) →
    mentionsAll (rebindAll f ns) = (mentionsAll ns).filterMap f
  | [] => rfl
  | n :: ns => by
    rw [rebindAll, mentionsAll, mentionsAll, List.filterMap_append, mentions_rebind f n,
      mentionsAll_rebind f ns]
end

end Node

namespace SymbolTable

def rebind (f : SymbolId → Option SymbolId) (t : SymbolTable) : SymbolTable :=
  ⟨t.symbols.map (·.rebind f)⟩

@[simp] theorem get?_rebind (f : SymbolId → Option SymbolId) (t : SymbolTable) (id : SymbolId) :
    (t.rebind f).get? id = (t.get? id).map (·.rebind f) := by
  simp [rebind, get?]

theorem elementType?_of_dangling {t : SymbolTable} {a : SymbolId} (ha : t.get? a = none) :
    t.elementType? a = none := by
  rw [elementType?, ha, Option.bind_none]

end SymbolTable

namespace Tree

def mentions (t : Tree) : List SymbolId :=
  t.root.mentions ++ t.symbols.symbols.toList.flatMap Symbol.mentions

def rebind (f : SymbolId → Option SymbolId) (t : Tree) : Tree :=
  { t with symbols := t.symbols.rebind f, root := t.root.rebind f }

theorem mentions_rebind (f : SymbolId → Option SymbolId) (t : Tree) :
    (t.rebind f).mentions = t.mentions.filterMap f := by
  simp [rebind, mentions, SymbolTable.rebind, Node.mentions_rebind, List.flatMap_map,
    List.filterMap_flatMap, Symbol.mentions_rebind]

end Tree

/-! ### Exchanges that keep what resolves -/

/-- An exchange of the handles in some set, which the symbols behind it do not leave: what resolves
is led to the rebound symbol, and to no other's; what dangles is dropped or dangles again. -/
structure Rebinds (f : SymbolId → Option SymbolId) (within : SymbolId → Prop)
    (t t' : SymbolTable) : Prop where
  closed {a : SymbolId} {s : Symbol} : within a → t.get? a = some s → ∀ b ∈ s.mentions, within b
  resolved {a : SymbolId} {s : Symbol} : within a → t.get? a = some s →
    ∃ a', f a = some a' ∧ t'.get? a' = some (s.rebind f)
  dangling {a : SymbolId} : within a → t.get? a = none → (f a).bind t'.get? = none
  injective {a b : SymbolId} : within a → within b → (t.get? a).isSome → (t.get? b).isSome →
    f a = f b → a = b

namespace Rebinds

/-- A resolved handle and the one that it is exchanged for. -/
def Pair (f : SymbolId → Option SymbolId) (within : SymbolId → Prop) (t : SymbolTable)
    (a a' : SymbolId) : Prop :=
  within a ∧ (t.get? a).isSome ∧ f a = some a'

variable {f : SymbolId → Option SymbolId} {within : SymbolId → Prop} {t t' : SymbolTable}

theorem linked (h : Rebinds f within t t') {a : SymbolId} (ha : within a) :
    Linked t t' (Pair f within t) (some a) (f a) := by
  cases hs : t.get? a with
  | none => exact .dead hs (h.dangling ha hs)
  | some s =>
    obtain ⟨a', hf, -⟩ := h.resolved ha hs
    rw [hf]
    exact .live ⟨ha, by rw [hs, Option.isSome_some], hf⟩

theorem linked_option (h : Rebinds f within t t') {o : Option SymbolId}
    (ho : ∀ a ∈ o.toList, within a) : Linked t t' (Pair f within t) o (o.bind f) := by
  cases o with
  | none => exact .dead rfl rfl
  | some a => exact h.linked (ho a (by simp))

theorem exists_symbol (h : Rebinds f within t t') {a a' : SymbolId} (haa : Pair f within t a a') :
    ∃ s, t.get? a = some s ∧ t'.get? a' = some (s.rebind f) := by
  obtain ⟨ha, hsome, hf⟩ := haa
  obtain ⟨s, hs⟩ := Option.isSome_iff_exists.mp hsome
  obtain ⟨b, hfb, hb⟩ := h.resolved ha hs
  obtain rfl : b = a' := Option.some_inj.mp (hfb.symm.trans hf)
  exact ⟨s, hs, hb⟩

theorem resolves_eq (h : Rebinds f within t t') (a a' : SymbolId) (haa : Pair f within t a a') :
    resolves t a = resolves t' a' := by
  obtain ⟨s, hs, hs'⟩ := h.exists_symbol haa
  rw [resolves_of_some hs, resolves_of_some hs']

theorem linked_list (h : Rebinds f within t t') {as : List SymbolId} (has : ∀ a ∈ as, within a) :
    LinkedAll t t' (Pair f within t) as (as.filterMap f) := by
  have hsame : List.Forall₂ (fun a b => a = b ∧ within a) as as :=
    List.forall₂_same.mpr fun a ha => ⟨rfl, has a ha⟩
  have hall := LinkedAll.filterMap (g := some) h.resolves_eq hsame (by
    rintro a _ ⟨rfl, ha⟩
    exact h.linked ha)
  rwa [List.filterMap_some] at hall

/-! ### Symbols and nodes -/

theorem symbolKind_alike (h : Rebinds f within t t') {kind : SymbolKind}
    (hkind : ∀ a ∈ kind.mentions, within a) :
    kind.Alike t t' (Pair f within t) (kind.rebind f) := by
  cases kind with
  | nameSpace => exact .nameSpace
  | type args element => exact .type (h.linked_list (List.forall_mem_append.mp hkind).1) _ _
  | method returnType parameters =>
    obtain ⟨hreturn, hparameters⟩ := List.forall_mem_append.mp hkind
    exact .method (h.linked_option hreturn) (h.linked_list hparameters)
  | property valueType => exact .property (h.linked_option hkind)
  | field fieldType => exact .field _ _
  | delegate returnType parameters args =>
    obtain ⟨hreturn, hrest⟩ := List.forall_mem_append.mp hkind
    obtain ⟨hparameters, hargs⟩ := List.forall_mem_append.mp hrest
    exact .delegate (h.linked_option hreturn) (h.linked_list hparameters) (h.linked_list hargs)
  | attributeConstructor => exact .attributeConstructor
  | parameter paramType => exact .parameter (h.linked_option hkind)

theorem symbol_alike (h : Rebinds f within t t') {s : Symbol} (hs : ∀ a ∈ s.mentions, within a) :
    s.Alike t t' (Pair f within t) (s.rebind f) := by
  obtain ⟨howner, hkind⟩ := List.forall_mem_append.mp hs
  exact ⟨rfl, rfl, h.linked_option howner, h.symbolKind_alike hkind⟩

theorem pairsAlike (h : Rebinds f within t t') : PairsAlike t t' (Pair f within t) := by
  intro a a' haa
  obtain ⟨s, hs, hs'⟩ := h.exists_symbol haa
  exact ⟨s, s.rebind f, hs, hs', h.symbol_alike (h.closed haa.1 hs)⟩

theorem simulation (h : Rebinds f within t t') : Simulation t t' (Pair f within t) := by
  refine .of_pairsAlike h.pairsAlike ?_
  rintro a a' b b' ⟨ha, hasome, hfa⟩ ⟨hb, hbsome, hfb⟩
  constructor
  · rintro rfl
    exact Option.some_inj.mp (hfa.symm.trans hfb)
  · rintro rfl
    exact h.injective ha hb hasome hbsome (hfa.trans hfb.symm)

/-- The element type of an array is exchanged along with the array. -/
theorem elementType_linked (h : Rebinds f within t t') {o : Option SymbolId}
    (ho : ∀ a ∈ o.toList, within a) :
    Linked t t' (Pair f within t) (o.bind t.elementType?) ((o.bind f).bind t'.elementType?) := by
  cases o with
  | none => exact .dead rfl rfl
  | some a =>
    have ha : within a := ho a (by simp)
    rw [Option.bind_some, Option.bind_some]
    cases hs : t.get? a with
    | none =>
      have hf : (f a).bind t'.elementType? = none :=
        SymbolTable.bind_eq_none_of_dead SymbolTable.elementType?_of_dangling (h.dangling ha hs)
      rw [SymbolTable.elementType?_of_dangling hs, hf]
      exact .dead rfl rfl
    | some s =>
      obtain ⟨a', hf, hs'⟩ := h.resolved ha hs
      rw [hf, Option.bind_some, SymbolTable.elementType?, SymbolTable.elementType?, hs, hs',
        Option.bind_some, Option.bind_some, Symbol.elementType?_rebind]
      exact h.linked_option fun b hb => h.closed ha hs b (s.elementType?_subset_mentions hb)

theorem nodeKind_alike (h : Rebinds f within t t') {kind : NodeKind}
    (hkind : ∀ a ∈ kind.mentions, within a) :
    kind.Alike t t' (Pair f within t) (kind.rebind f) := by
  refine kind.alike_rebind (fun a ha => h.linked (hkind a ha)) ?_
  rintro s rfl
  exact h.elementType_linked hkind

mutual
theorem node_alike (h : Rebinds f within t t') : (n : Node) → (∀ a ∈ n.mentions, within a) →
    n.Alike t t' (Pair f within t) (n.rebind f)
  | ⟨kind, span, children⟩, hn => by
    rw [Node.mentions] at hn
    obtain ⟨hkind, hchildren⟩ := List.forall_mem_append.mp hn
    rw [Node.rebind]
    exact .mk span (h.nodeKind_alike hkind) (nodes_alike h children hchildren)

theorem nodes_alike (h : Rebinds f within t t') : (ns : List Node) →
    (∀ a ∈ Node.mentionsAll ns, within a) →
    Node.AlikeAll t t' (Pair f within t) ns (Node.rebindAll f ns)
  | [], _ => .nil
  | n :: ns, hns => by
    rw [Node.mentionsAll] at hns
    obtain ⟨hn, hrest⟩ := List.forall_mem_append.mp hns
    exact .cons (node_alike h n hn) (nodes_alike h ns hrest)
end

end Rebinds

/-- Exchanging the handles of a document leaves its diagnostics as they are. -/
theorem Engine.diagnostics_rebind (e : Engine) (t : Tree) {symbols : SymbolTable}
    {f : SymbolId → Option SymbolId} {within : SymbolId → Prop}
    (h : Rebinds f within t.symbols symbols) (hroot : ∀ a ∈ t.root.mentions, within a) :
    e.diagnostics { t with symbols, root := t.root.rebind f } = e.diagnostics t := by
  symm
  exact h.simulation.diagnostics_eq e rfl (h.node_alike t.root hroot)

/-! ### Dropping what dangles -/

/-- The handle, if it resolves. -/
def SymbolTable.known? (t : SymbolTable) (id : SymbolId) : Option SymbolId :=
  (t.get? id).map fun _ => id

/-- The document without the handles that do not resolve. -/
def Tree.normalized (t : Tree) : Tree := t.rebind t.symbols.known?

theorem SymbolTable.rebinds_known? (t : SymbolTable) :
    Rebinds t.known? (fun _ => True) t (t.rebind t.known?) where
  closed _ _ _ _ := trivial
  resolved {a s} _ hs := ⟨a, by simp [known?, hs], by simp [hs]⟩
  dangling _ hs := by simp [known?, hs]
  injective {a b} _ _ ha hb hab := by
    obtain ⟨s, hs⟩ := Option.isSome_iff_exists.mp ha
    obtain ⟨r, hr⟩ := Option.isSome_iff_exists.mp hb
    simpa [known?, hs, hr] using hab

/-- Normalizing drops the handles that dangle and no others. -/
theorem Tree.mentions_normalized (t : Tree) :
    t.normalized.mentions = t.mentions.filter (resolves t.symbols) := by
  rw [normalized, mentions_rebind, ← List.filterMap_eq_filter]
  refine List.filterMap_congr fun a _ => ?_
  rw [SymbolTable.known?, Option.guard, resolves, SymbolTable.symbol?_eq_get?]
  cases t.symbols.get? a with
  | none => rfl
  | some _ => rfl

/-- A dangling handle counts like one that is not there: the document without them, which keeps all
others in place, has the same diagnostics. -/
theorem Engine.diagnostics_normalized (e : Engine) (t : Tree) :
    t.normalized.mentions = t.mentions.filter (resolves t.symbols) ∧
      e.diagnostics t.normalized = e.diagnostics t := by
  refine ⟨t.mentions_normalized, ?_⟩
  exact e.diagnostics_rebind t t.symbols.rebinds_known? fun _ _ => trivial

end UsagePolicy
