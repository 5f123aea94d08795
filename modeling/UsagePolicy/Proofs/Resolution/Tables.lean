import UsagePolicy.Proofs.Resolution.Simulation

/-! Symbol tables that the engine cannot tell apart. Symbols are alike if they agree in their texts
and if their handles are linked, one by one; array elements and the types of fields are not
compared. Tables whose paired handles lead to alike symbols simulate each other. -/
namespace UsagePolicy

open SymbolModel

variable {M M' : Type} [SymbolModel M] [SymbolModel M']

/-! ### Alike symbols -/

inductive SymbolKind.Alike (m : M) (m' : M') (R : SymbolId → SymbolId → Prop) :
    SymbolKind → SymbolKind → Prop
  | nameSpace : Alike m m' R .nameSpace .nameSpace
  | type {args args' : List SymbolId} (hargs : LinkedAll m m' R args args')
    (element element' : Option SymbolId) : Alike m m' R (.type args element) (.type args' element')
  | method {r r' : Option SymbolId} {ps ps' : List SymbolId} (hr : Linked m m' R r r')
    (hps : LinkedAll m m' R ps ps') : Alike m m' R (.method r ps) (.method r' ps')
  | property {v v' : Option SymbolId} (hv : Linked m m' R v v') :
    Alike m m' R (.property v) (.property v')
  | field (v v' : Option SymbolId) : Alike m m' R (.field v) (.field v')
  | delegate {r r' : Option SymbolId} {ps ps' args args' : List SymbolId} (hr : Linked m m' R r r')
    (hps : LinkedAll m m' R ps ps') (hargs : LinkedAll m m' R args args') :
    Alike m m' R (.delegate r ps args) (.delegate r' ps' args')
  | attributeConstructor : Alike m m' R .attributeConstructor .attributeConstructor
  | parameter {p p' : Option SymbolId} (hp : Linked m m' R p p') :
    Alike m m' R (.parameter p) (.parameter p')

structure Symbol.Alike (m : M) (m' : M') (R : SymbolId → SymbolId → Prop) (s s' : Symbol) :
    Prop where
  name : s.name = s'.name
  nameSpace : s.nameSpace = s'.nameSpace
  owner : Linked m m' R s.owner s'.owner
  kind : s.kind.Alike m m' R s'.kind

variable {m : M} {m' : M'} {R : SymbolId → SymbolId → Prop}

/-- Pairs lead to symbols that are alike. -/
def PairsAlike (m : M) (m' : M') (R : SymbolId → SymbolId → Prop) : Prop :=
  ∀ a a', R a a' → ∃ s s', symbol? m a = some s ∧ symbol? m' a' = some s' ∧ s.Alike m m' R s'

namespace Symbol.Alike

variable {s s' : Symbol}

theorem isNamespace (hs : s.Alike m m' R s') :
    s.isNamespace = s'.isNamespace := by
  obtain ⟨name, nameSpace, owner, kind⟩ := s
  obtain ⟨name', nameSpace', owner', kind'⟩ := s'
  cases hs.kind <;> rfl

theorem qualifiedName (hs : s.Alike m m' R s') : s.qualifiedName = s'.qualifiedName := by
  rw [Symbol.qualifiedName, Symbol.qualifiedName, hs.name, hs.nameSpace]

theorem returnType (hs : s.Alike m m' R s') : Linked m m' R s.returnType? s'.returnType? := by
  obtain ⟨name, nameSpace, owner, kind⟩ := s
  obtain ⟨name', nameSpace', owner', kind'⟩ := s'
  cases hs.kind with
  | method hr _ | delegate hr _ _ => exact hr
  | _ => exact .dead rfl rfl

theorem parameters (hs : s.Alike m m' R s') : LinkedAll m m' R s.parameters s'.parameters := by
  obtain ⟨name, nameSpace, owner, kind⟩ := s
  obtain ⟨name', nameSpace', owner', kind'⟩ := s'
  cases hs.kind with
  | method _ hps | delegate _ hps _ => exact hps
  | _ => exact .nil

theorem parameterType (hs : s.Alike m m' R s') :
    Linked m m' R s.parameterType? s'.parameterType? := by
  obtain ⟨name, nameSpace, owner, kind⟩ := s
  obtain ⟨name', nameSpace', owner', kind'⟩ := s'
  cases hs.kind with
  | parameter hp => exact hp
  | _ => exact .dead rfl rfl

theorem valueType (hs : s.Alike m m' R s') : Linked m m' R s.valueType? s'.valueType? := by
  obtain ⟨name, nameSpace, owner, kind⟩ := s
  obtain ⟨name', nameSpace', owner', kind'⟩ := s'
  cases hs.kind with
  | property hv => exact hv
  | _ => exact .dead rfl rfl

end Symbol.Alike

/-- The namespace behind a link is the same, so members inherit the same one. -/
theorem bind_nameSpace_eq (hpairs : PairsAlike m m' R) {o o' : Option SymbolId}
    (ho : Linked m m' R o o') :
    (o.bind (symbol? m)).bind Symbol.nameSpace = (o'.bind (symbol? m')).bind Symbol.nameSpace := by
  cases ho with
  | live haa =>
    obtain ⟨s, s', hs, hs', halike⟩ := hpairs _ _ haa
    simp [hs, hs', halike.nameSpace]
  | dead hdead hdead' => rw [hdead, hdead']

theorem Symbol.Alike.twins (hpairs : PairsAlike m m' R) {s s' : Symbol} (hs : s.Alike m m' R s') :
    Twins m m' R s s' := by
  have howner := bind_nameSpace_eq hpairs hs.owner
  obtain ⟨name, nameSpace, owner, kind⟩ := s
  obtain ⟨name', nameSpace', owner', kind'⟩ := s'
  obtain ⟨rfl, rfl, -, hkind⟩ := hs
  have hmember : (nameSpace <|> (owner.bind (symbol? m)).bind Symbol.nameSpace) =
      (nameSpace <|> (owner'.bind (symbol? m')).bind Symbol.nameSpace) := by
    rw [howner]
  cases hkind with
  | nameSpace => exact ⟨rfl, rfl, rfl, rfl, .nil⟩
  | type hargs => exact ⟨rfl, rfl, rfl, rfl, hargs⟩
  | delegate _ _ hargs => exact ⟨rfl, rfl, rfl, rfl, hargs⟩
  | _ => exact ⟨rfl, rfl, rfl, hmember, .nil⟩

/-- What linked options leave behind in lists is linked. -/
theorem LinkedAll.filterMap {α α' : Type} {r : α → α' → Prop} {g : α → Option SymbolId}
    {g' : α' → Option SymbolId} (hpairs : ∀ a a', R a a' → resolves m a = resolves m' a')
    {as : List α} {as' : List α'} (has : List.Forall₂ r as as')
    (hg : ∀ a a', r a a' → Linked m m' R (g a) (g' a')) :
    LinkedAll m m' R (as.filterMap g) (as'.filterMap g') := by
  rw [LinkedAll, List.filter_filterMap, List.filter_filterMap]
  induction has with
  | nil => exact .nil
  | @cons a a' as as' ha _ ih =>
    have hrel := (hg a a' ha).filter_resolves hpairs
    rw [List.filterMap_cons, List.filterMap_cons]
    generalize (g a).filter (resolves m) = o at hrel ⊢
    generalize (g' a').filter (resolves m') = o' at hrel ⊢
    cases hrel with
    | some hr => exact .cons hr ih
    | none => exact ih

/-! ### Lookups in tables -/

namespace SymbolTable

variable {t t' : SymbolTable}

theorem symbol?_eq_get? (t : SymbolTable) (id : SymbolId) : symbol? t id = t.get? id := rfl

theorem owner?_of_get? {a : SymbolId} {s : Symbol} (hs : t.get? a = some s) :
    t.owner? a = s.owner.filter (resolves t) := by
  simp only [owner?, hs, Option.bind_eq_bind, Option.bind_some]
  cases s.owner with
  | none => rfl
  | some o =>
    rw [Option.bind_some, Option.filter_some, resolves, symbol?_eq_get?]
    cases t.get? o with
    | none => rfl
    | some _ => rfl

theorem owner?_of_dangling {a : SymbolId} (ha : t.get? a = none) : t.owner? a = none := by
  simp [owner?, ha]

theorem namespace?_of_dangling {a : SymbolId} (ha : t.get? a = none) : t.namespace? a = none := by
  simp [namespace?, ha]

/-- A question that dangling handles do not answer has no answer at the end of a dead link. -/
theorem bind_eq_none_of_dead {α : Type} {g : SymbolId → Option α}
    (hg : ∀ {a}, t.get? a = none → g a = none) {o : Option SymbolId}
    (ho : o.bind (symbol? t) = none) : o.bind g = none := by
  cases o with
  | none => rfl
  | some a => exact hg ho

/-- Only parameters that resolve have a type. -/
theorem parameterTypes_of_get? {a : SymbolId} {s : Symbol} (hs : t.get? a = some s) :
    t.parameterTypes a = (s.parameters.filter (resolves t)).filterMap fun p =>
      (t.get? p).bind Symbol.parameterType? := by
  rw [parameterTypes, hs, List.filterMap_filter]
  refine List.filterMap_congr fun p _ => ?_
  rw [resolves, symbol?_eq_get?]
  cases t.get? p with
  | none => rfl
  | some _ => rfl

variable (hpairs : PairsAlike t t' R)
include hpairs

theorem resolves_eq_of_pairs (a a' : SymbolId) (haa : R a a') : resolves t a = resolves t' a' := by
  obtain ⟨s, s', hs, hs', -⟩ := hpairs a a' haa
  rw [resolves_of_some hs, resolves_of_some hs']

/-- What alike symbols answer alike is linked when it is asked through links. -/
theorem linked_bind {g : Symbol → Option SymbolId}
    (hg : ∀ {s s'}, s.Alike t t' R s' → Linked t t' R (g s) (g s')) {o o' : Option SymbolId}
    (ho : Linked t t' R o o') :
    Linked t t' R (o.bind fun a => (t.get? a).bind g) (o'.bind fun a => (t'.get? a).bind g) := by
  cases ho with
  | live haa =>
    obtain ⟨s, s', hs, hs', halike⟩ := hpairs _ _ haa
    rw [symbol?_eq_get?] at hs hs'
    rw [Option.bind_some, Option.bind_some, hs, hs']
    exact hg halike
  | dead hdead hdead' =>
    have hnone {t : SymbolTable} {a : SymbolId} (ha : t.get? a = none) : (t.get? a).bind g = none := by
      rw [ha, Option.bind_none]
    rw [bind_eq_none_of_dead hnone hdead, bind_eq_none_of_dead hnone hdead']
    exact .dead rfl rfl

theorem owner?_linked {o o' : Option SymbolId} (ho : Linked t t' R o o') :
    Linked t t' R (o.bind t.owner?) (o'.bind t'.owner?) := by
  cases ho with
  | live haa =>
    obtain ⟨s, s', hs, hs', halike⟩ := hpairs _ _ haa
    rw [Option.bind_some, Option.bind_some, owner?_of_get? hs, owner?_of_get? hs']
    exact .of_rel (halike.owner.filter_resolves (resolves_eq_of_pairs hpairs))
  | dead hdead hdead' =>
    rw [bind_eq_none_of_dead owner?_of_dangling hdead, bind_eq_none_of_dead owner?_of_dangling hdead']
    exact .dead rfl rfl

theorem namespace?_linked {o o' : Option SymbolId} (ho : Linked t t' R o o') :
    (o.bind t.namespace?).map Symbol.qualifiedName =
      (o'.bind t'.namespace?).map Symbol.qualifiedName := by
  cases ho with
  | live haa =>
    obtain ⟨s, s', hs, hs', halike⟩ := hpairs _ _ haa
    rw [symbol?_eq_get?] at hs hs'
    rw [Option.bind_some, Option.bind_some, namespace?, namespace?, hs, hs', Option.filter_some,
      Option.filter_some, halike.isNamespace]
    cases s'.isNamespace with
    | true => simp [halike.qualifiedName]
    | false => rfl
  | dead hdead hdead' =>
    rw [bind_eq_none_of_dead namespace?_of_dangling hdead,
      bind_eq_none_of_dead namespace?_of_dangling hdead']

theorem parameterTypes_linked {a a' : SymbolId} (haa : R a a') :
    LinkedAll t t' R (t.parameterTypes a) (t'.parameterTypes a') := by
  obtain ⟨s, s', hs, hs', halike⟩ := hpairs _ _ haa
  rw [parameterTypes_of_get? hs, parameterTypes_of_get? hs']
  refine LinkedAll.filterMap (resolves_eq_of_pairs hpairs) halike.parameters fun p p' hp => ?_
  exact linked_bind hpairs (·.parameterType) (.live hp)

end SymbolTable

/-- Tables whose pairs lead to alike symbols, without merging any, simulate each other. -/
theorem Simulation.of_pairsAlike {t t' : SymbolTable} (hpairs : PairsAlike t t' R)
    (hiff : ∀ a a' b b', R a a' → R b b' → (a = b ↔ a' = b')) : Simulation t t' R where
  eq_iff haa hbb := hiff _ _ _ _ haa hbb
  symbol haa := by
    obtain ⟨s, s', hs, hs', halike⟩ := hpairs _ _ haa
    exact ⟨s, s', hs, hs', halike.twins hpairs⟩
  nameSpace := SymbolTable.namespace?_linked hpairs
  owner := SymbolTable.owner?_linked hpairs
  returnType haa := SymbolTable.linked_bind hpairs (·.returnType) (.live haa)
  parameterTypes := SymbolTable.parameterTypes_linked hpairs
  valueType := SymbolTable.linked_bind hpairs (·.valueType)

end UsagePolicy
