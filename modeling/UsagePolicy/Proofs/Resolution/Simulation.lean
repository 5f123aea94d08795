import Mathlib.Data.List.Forall2
import UsagePolicy.Proofs.Descent.Calls
import UsagePolicy.Proofs.Walk

/-! Symbol models that the engine cannot tell apart. A relation pairs handles that resolve in one
model with handles that resolve in the other. Pairs have to get the same answers, up to the relation;
handles that resolve to nothing are not compared with anything. Then paired sites have the same
findings. -/
namespace UsagePolicy

open SymbolModel Descent

variable {M M' : Type} [SymbolModel M] [SymbolModel M']

/-! ### Pairs of handles -/

/-- Whether a handle leads to a symbol. -/
def SymbolModel.resolves (m : M) (id : SymbolId) : Bool := (symbol? m id).isSome

theorem SymbolModel.resolves_of_some {m : M} {id : SymbolId} {s : Symbol}
    (hs : symbol? m id = some s) : resolves m id = true := by
  rw [resolves, hs, Option.isSome_some]

theorem SymbolModel.resolves_eq_false {m : M} {id : SymbolId} :
    resolves m id = false ↔ symbol? m id = none := by
  simp [resolves]

/-- The handles are paired, or neither of them is there to be resolved. -/
inductive Linked (m : M) (m' : M') (R : SymbolId → SymbolId → Prop) :
    Option SymbolId → Option SymbolId → Prop
  | live {a a' : SymbolId} (h : R a a') : Linked m m' R (some a) (some a')
  | dead {o o' : Option SymbolId} (h : o.bind (symbol? m) = none) (h' : o'.bind (symbol? m') = none) :
    Linked m m' R o o'

/-- What resolves is paired, in order. -/
def LinkedAll (m : M) (m' : M') (R : SymbolId → SymbolId → Prop) (as as' : List SymbolId) : Prop :=
  List.Forall₂ R (as.filter (resolves m)) (as'.filter (resolves m'))

/-- Two symbols are the same as far as the engine reads them. -/
structure Twins (m : M) (m' : M') (R : SymbolId → SymbolId → Prop) (s s' : Symbol) : Prop where
  name : s.name = s'.name
  isMethod : s.isMethod = s'.isMethod
  isGeneric : s.isGeneric = s'.isGeneric
  namespaceOf : namespaceOf m s = namespaceOf m' s'
  typeArgs : LinkedAll m m' R s.typeArgs s'.typeArgs

/-- Paired handles get the same answers from both models. Element types are left out: a single shape
of node asks for them, and it can be asked on its own. -/
structure Simulation (m : M) (m' : M') (R : SymbolId → SymbolId → Prop) : Prop where
  eq_iff {a a' b b' : SymbolId} : R a a' → R b b' → (a = b ↔ a' = b')
  symbol {a a' : SymbolId} : R a a' →
    ∃ s s', symbol? m a = some s ∧ symbol? m' a' = some s' ∧ Twins m m' R s s'
  nameSpace {o o' : Option SymbolId} : Linked m m' R o o' →
    (o.bind (nameSpace? m)).map Symbol.qualifiedName =
      (o'.bind (nameSpace? m')).map Symbol.qualifiedName
  owner {o o' : Option SymbolId} : Linked m m' R o o' →
    Linked m m' R (o.bind (owner? m)) (o'.bind (owner? m'))
  returnType {a a' : SymbolId} : R a a' → Linked m m' R (returnType? m a) (returnType? m' a')
  parameterTypes {a a' : SymbolId} : R a a' →
    LinkedAll m m' R (parameterTypes m a) (parameterTypes m' a')
  valueType {o o' : Option SymbolId} : Linked m m' R o o' →
    Linked m m' R (o.bind (valueType? m)) (o'.bind (valueType? m'))

variable {m : M} {m' : M'} {R : SymbolId → SymbolId → Prop}

theorem Linked.of_rel {o o' : Option SymbolId} (h : Option.Rel R o o') : Linked m m' R o o' := by
  cases h with
  | some h => exact .live h
  | none => exact .dead rfl rfl

theorem filter_eq_none_of_dead {p : SymbolId → Bool} (hp : ∀ a, symbol? m a = none → p a = false)
    {o : Option SymbolId} (ho : o.bind (symbol? m) = none) : o.filter p = none := by
  cases o with
  | none => rfl
  | some a => simp [hp a ho]

/-- A condition that dangling handles fail and that pairs share leaves pairs. -/
theorem Linked.filter {p p' : SymbolId → Bool} (hp : ∀ a, symbol? m a = none → p a = false)
    (hp' : ∀ a, symbol? m' a = none → p' a = false) (hpairs : ∀ a a', R a a' → p a = p' a')
    {o o' : Option SymbolId} (ho : Linked m m' R o o') :
    Option.Rel R (o.filter p) (o'.filter p') := by
  cases ho with
  | @live a a' haa =>
    rw [Option.filter_some, Option.filter_some, hpairs a a' haa]
    cases p' a' with
    | true => exact .some haa
    | false => exact .none
  | dead hdead hdead' =>
    rw [filter_eq_none_of_dead hp hdead, filter_eq_none_of_dead hp' hdead']
    exact .none

theorem Linked.filter_resolves (hpairs : ∀ a a', R a a' → resolves m a = resolves m' a')
    {o o' : Option SymbolId} (ho : Linked m m' R o o') :
    Option.Rel R (o.filter (resolves m)) (o'.filter (resolves m')) :=
  ho.filter (fun _ => resolves_eq_false.mpr) (fun _ => resolves_eq_false.mpr) hpairs

namespace Simulation

variable (h : Simulation m m' R)
include h

theorem resolves_eq {a a' : SymbolId} (haa : R a a') : resolves m a = resolves m' a' := by
  obtain ⟨s, s', hs, hs', -⟩ := h.symbol haa
  rw [resolves_of_some hs, resolves_of_some hs']

/-- A condition on symbols that twins share leaves pairs. -/
theorem filter_any {p : Symbol → Bool} (hp : ∀ {s s'}, Twins m m' R s s' → p s = p s')
    {o o' : Option SymbolId} (ho : Linked m m' R o o') :
    Option.Rel R (o.filter fun a => (symbol? m a).any p)
      (o'.filter fun a => (symbol? m' a).any p) := by
  refine ho.filter (fun a ha => by simp [ha]) (fun a ha => by simp [ha]) fun a a' haa => ?_
  obtain ⟨s, s', hs, hs', htwins⟩ := h.symbol haa
  rw [hs, hs', Option.any_some, Option.any_some, hp htwins]

/-- What is read behind a link has the same name. -/
theorem map_name {o o' : Option SymbolId} (ho : Linked m m' R o o') :
    (o.bind (symbol? m)).map Symbol.name = (o'.bind (symbol? m')).map Symbol.name := by
  cases ho with
  | live haa =>
    obtain ⟨s, s', hs, hs', htwins⟩ := h.symbol haa
    simp [hs, hs', htwins.name]
  | dead hdead hdead' => rw [hdead, hdead']

theorem mem_iff {as as' : List SymbolId} (has : List.Forall₂ R as as') {a a' : SymbolId}
    (haa : R a a') : a ∈ as ↔ a' ∈ as' := by
  induction has with
  | nil => simp
  | cons hbb _ ih => rw [List.mem_cons, List.mem_cons, h.eq_iff haa hbb, ih]

end Simulation

/-! ### The descent -/

/-- The type arguments behind a handle that resolve. -/
def liveArgs (m : M) (id : SymbolId) : List SymbolId := (argsOf m id).filter (resolves m)

/-- Entries that find nothing and leave the state alone can be left out. -/
theorem gather_filter {σ α β : Type} {step : σ → α → List β × σ} {p : α → Bool}
    (hskip : ∀ s a, p a = false → step s a = ([], s)) (s : σ) (as : List α) :
    gather step s (as.filter p) = gather step s as := by
  induction as generalizing s with
  | nil => rfl
  | cons a as ih =>
    cases ha : p a with
    | true => rw [List.filter_cons_of_pos ha, gather_cons, gather_cons, ih]
    | false =>
      rw [List.filter_cons_of_neg (by simp [ha]), gather_cons, hskip s a ha, ih]
      rfl

/-- Passes over paired entries whose steps keep the states related find what is paired. -/
theorem gather_forall₂ {σ σ' α α' β β' : Type} {step : σ → α → List β × σ}
    {step' : σ' → α' → List β' × σ'} {States : σ → σ' → Prop} {Entries : α → α' → Prop}
    {Found : β → β' → Prop}
    {s : σ} {s' : σ'} {as : List α} {as' : List α'} (hs : States s s')
    (has : List.Forall₂ Entries as as')
    (hstep : ∀ s s' a a', States s s' → Entries a a' →
      List.Forall₂ Found (step s a).1 (step' s' a').1 ∧ States (step s a).2 (step' s' a').2) :
    List.Forall₂ Found (gather step s as).1 (gather step' s' as').1 ∧
      States (gather step s as).2 (gather step' s' as').2 := by
  induction has generalizing s s' with
  | nil => exact ⟨.nil, hs⟩
  | cons ha _ ih =>
    obtain ⟨hfound, hstates⟩ := hstep _ _ _ _ hs ha
    obtain ⟨hrest, hlast⟩ := ih hstates
    rw [gather_cons, gather_cons]
    exact ⟨List.rel_append hfound hrest, hlast⟩

theorem run_of_dead {a : SymbolId} (ha : symbol? m a = none) (room : Nat)
    (path expanded : List SymbolId) (kind : UsageKind) :
    run m room path expanded kind a = ([], expanded) := by
  cases room with
  | zero => rfl
  | succ room => simp [run, ha]

/-- Arguments that do not resolve play no part when a symbol is followed. -/
theorem run_of_follows {used : SymbolId} {s : Symbol} {path expanded : List SymbolId} (room : Nat)
    (kind : UsageKind) (hs : symbol? m used = some s) (hpath : used ∉ path) (hargs : s.typeArgs ≠ [])
    (hnew : used ∉ expanded) :
    run m (room + 1) path expanded kind used =
      (⟨used, kind⟩ :: (gather (fun expanded arg =>
          run m room (used :: path) expanded .typeArgument arg)
          (used :: expanded) (liveArgs m used)).1,
        (gather (fun expanded arg => run m room (used :: path) expanded .typeArgument arg)
          (used :: expanded) (liveArgs m used)).2) := by
  rw [liveArgs, argsOf_of_some hs, gather_filter fun expanded a ha =>
    run_of_dead (resolves_eq_false.mp ha) room (used :: path) expanded .typeArgument]
  simp [run, hs, hpath, hargs, hnew]

/-- A symbol none of whose arguments resolve is the only one found. It may have been entered among
those that are followed. -/
theorem run_of_liveArgs_nil {used : SymbolId} {path : List SymbolId} (room : Nat)
    (expanded : List SymbolId) (kind : UsageKind) (hs : (symbol? m used).isSome) (hpath : used ∉ path)
    (hlive : liveArgs m used = []) :
    (run m (room + 1) path expanded kind used).1 = [⟨used, kind⟩] ∧
      ∀ a, a ≠ used → (a ∈ (run m (room + 1) path expanded kind used).2 ↔ a ∈ expanded) := by
  obtain ⟨s, hs⟩ := Option.isSome_iff_exists.mp hs
  by_cases hstop : s.typeArgs = [] ∨ used ∈ expanded
  · simp [run, hs, hpath, hstop]
  · obtain ⟨hargs, hnew⟩ := not_or.mp hstop
    rw [run_of_follows room kind hs hpath hargs hnew, hlive]
    refine ⟨rfl, fun a ha => ?_⟩
    simp [gather, ha]

/-- The two descents have followed the same symbols, as far as these have arguments to follow. -/
def SameFollowed (m : M) (R : SymbolId → SymbolId → Prop) (expanded expanded' : List SymbolId) :
    Prop :=
  ∀ a a', R a a' → liveArgs m a ≠ [] → (a ∈ expanded ↔ a' ∈ expanded')

/-- Paired symbols, used as the same. -/
def Occurrence.Paired (R : SymbolId → SymbolId → Prop) (o o' : Occurrence) : Prop :=
  R o.used o'.used ∧ o.kind = o'.kind

namespace Simulation

variable (h : Simulation m m' R)
include h

theorem liveArgs_forall₂ {a a' : SymbolId} (haa : R a a') :
    List.Forall₂ R (liveArgs m a) (liveArgs m' a') := by
  obtain ⟨s, s', hs, hs', htwins⟩ := h.symbol haa
  rw [liveArgs, liveArgs, argsOf_of_some hs, argsOf_of_some hs']
  exact htwins.typeArgs

theorem liveArgs_eq_nil_iff {a a' : SymbolId} (haa : R a a') :
    liveArgs m a = [] ↔ liveArgs m' a' = [] := by
  rw [← List.length_eq_zero_iff, ← List.length_eq_zero_iff, (h.liveArgs_forall₂ haa).length_eq]

theorem sameFollowed_cons {used used' : SymbolId} {expanded expanded' : List SymbolId}
    (hused : R used used') (hsame : SameFollowed m R expanded expanded') :
    SameFollowed m R (used :: expanded) (used' :: expanded') := by
  intro a a' haa hlive
  rw [List.mem_cons, List.mem_cons, h.eq_iff haa hused, hsame a a' haa hlive]

/-- The arguments of a paired symbol are followed in both models or in neither, unless there is
nothing to follow. -/
theorem follows_iff {used used' : SymbolId} {s s' : Symbol} {expanded expanded' : List SymbolId}
    (hused : R used used') (hs : symbol? m used = some s) (hs' : symbol? m' used' = some s')
    (hsame : SameFollowed m R expanded expanded') (hlive : liveArgs m used ≠ []) :
    s.typeArgs ≠ [] ∧ s'.typeArgs ≠ [] ∧ (used ∈ expanded ↔ used' ∈ expanded') := by
  have hlive' : liveArgs m' used' ≠ [] := fun hnil => hlive ((h.liveArgs_eq_nil_iff hused).mpr hnil)
  refine ⟨?_, ?_, hsame used used' hused hlive⟩
  · intro hargs
    simp [liveArgs, argsOf_of_some hs, hargs] at hlive
  · intro hargs
    simp [liveArgs, argsOf_of_some hs', hargs] at hlive'

/-- Paired symbols without arguments to follow are found alone. One model may list arguments that
dangle where the other lists none, and then only one of them enters the symbol as followed. -/
theorem run_rel_of_liveArgs_nil (room : Nat) {path path' expanded expanded' : List SymbolId}
    (kind : UsageKind) {used used' : SymbolId} (hmem : used ∉ path) (hmem' : used' ∉ path')
    (hsame : SameFollowed m R expanded expanded') (hused : R used used')
    (hlive : liveArgs m used = []) :
    List.Forall₂ (Occurrence.Paired R) (run m (room + 1) path expanded kind used).1
        (run m' (room + 1) path' expanded' kind used').1 ∧
      SameFollowed m R (run m (room + 1) path expanded kind used).2
        (run m' (room + 1) path' expanded' kind used').2 := by
  obtain ⟨s, s', hs, hs', -⟩ := h.symbol hused
  have hlive' : liveArgs m' used' = [] := (h.liveArgs_eq_nil_iff hused).mp hlive
  obtain ⟨hfound, hrest⟩ := run_of_liveArgs_nil room expanded kind (by simp [hs]) hmem hlive
  obtain ⟨hfound', hrest'⟩ := run_of_liveArgs_nil room expanded' kind (by simp [hs']) hmem' hlive'
  refine ⟨?_, fun a a' haa halive => ?_⟩
  · rw [hfound, hfound']
    exact .cons ⟨hused, rfl⟩ .nil
  · have hne : a ≠ used := by
      rintro rfl
      exact halive hlive
    have hne' : a' ≠ used' := fun heq => hne ((h.eq_iff haa hused).mpr heq)
    rw [hrest a hne, hrest' a' hne', hsame a a' haa halive]

/-- Descents from paired symbols, below paired ancestors, meet paired symbols. -/
theorem run_rel (room : Nat) {path path' expanded expanded' : List SymbolId} (kind : UsageKind)
    {used used' : SymbolId} (hpath : List.Forall₂ R path path')
    (hsame : SameFollowed m R expanded expanded') (hused : R used used') :
    List.Forall₂ (Occurrence.Paired R) (run m room path expanded kind used).1
        (run m' room path' expanded' kind used').1 ∧
      SameFollowed m R (run m room path expanded kind used).2
        (run m' room path' expanded' kind used').2 := by
  induction room generalizing path path' expanded expanded' kind used used' with
  | zero => exact ⟨.nil, hsame⟩
  | succ room ih =>
    obtain ⟨s, s', hs, hs', -⟩ := h.symbol hused
    by_cases hmem : used ∈ path
    · have hmem' : used' ∈ path' := (h.mem_iff hpath hused).mp hmem
      simpa [run, hmem, hmem'] using hsame
    have hmem' : used' ∉ path' := fun h' => hmem ((h.mem_iff hpath hused).mpr h')
    by_cases hlive : liveArgs m used = []
    · exact h.run_rel_of_liveArgs_nil room kind hmem hmem' hsame hused hlive
    -- from here on there is something to follow, so the two lists of followed symbols must agree
    obtain ⟨hargs, hargs', hiff⟩ := h.follows_iff hused hs hs' hsame hlive
    by_cases hold : used ∈ expanded
    · have hold' : used' ∈ expanded' := hiff.mp hold
      simpa [run, hs, hs', hmem, hmem', hold, hold', Occurrence.Paired] using ⟨hused, hsame⟩
    have hold' : used' ∉ expanded' := fun h' => hold (hiff.mpr h')
    rw [run_of_follows room kind hs hmem hargs hold, run_of_follows room kind hs' hmem' hargs' hold']
    obtain ⟨hbelow, hlast⟩ := gather_forall₂ (h.sameFollowed_cons hused hsame)
      (h.liveArgs_forall₂ hused)
      fun expanded expanded' a a' hsame haa => ih .typeArgument (.cons hused hpath) hsame haa
    exact ⟨.cons ⟨hused, rfl⟩ hbelow, hlast⟩

theorem occurrences_rel (maxDepth : Nat) (kind : UsageKind) {used used' : SymbolId}
    (hused : R used used') :
    List.Forall₂ (Occurrence.Paired R) (occurrences m maxDepth kind used)
      (occurrences m' maxDepth kind used') :=
  (h.run_rel (maxDepth + 1) kind .nil (fun _ _ _ _ => by simp) hused).1

end Simulation

/-! ### Rules and sites -/

namespace Simulation

variable (h : Simulation m m' R)
include h

theorem contextMatcher_accepts {context context' : SymbolId} (hc : R context context')
    (matcher : ContextMatcher) : matcher.accepts m context = matcher.accepts m' context' := by
  obtain ⟨s, s', hs, hs', htwins⟩ := h.symbol hc
  simp only [ContextMatcher.accepts, hs, hs']
  cases matcher with
  | any => rfl
  | declaringType value =>
    have howner := congrArg (Option.any (· == value)) (h.map_name (h.owner (.live hc)))
    simpa only [Option.any_map, Function.comp_def, Option.bind_some] using howner
  | named value => simp only [htwins.name]
  | namespaceStem stem => simp only [htwins.namespaceOf]

theorem usedMatcher_accepts {used used' : SymbolId} (hu : R used used') (matcher : UsedMatcher) :
    matcher.accepts m used = matcher.accepts m' used' := by
  obtain ⟨s, s', hs, hs', htwins⟩ := h.symbol hu
  simp only [UsedMatcher.accepts, hs, hs']
  cases matcher with
  | any => rfl
  | named value => simp only [htwins.name]
  | namespaceStem stem => simp only [htwins.namespaceOf]

theorem judgeUsage_eq (registry : Registry) {context context' used used' : SymbolId}
    (hc : R context context') (hu : R used used') (kind : UsageKind) :
    registry.judgeUsage m context used kind = registry.judgeUsage m' context' used' kind := by
  have hforbids : (fun r : UsageRule => r.forbids m context used kind) =
      fun r => r.forbids m' context' used' kind := by
    funext r
    rw [UsageRule.forbids, UsageRule.forbids, h.contextMatcher_accepts hc,
      h.usedMatcher_accepts hu]
  rw [Registry.judgeUsage, Registry.judgeUsage, hforbids]

theorem judge_eq (e : Engine) {context context' : SymbolId} (hc : R context context')
    (contextName : String) (span : Span) {o o' : Occurrence} (ho : o.Paired R o') :
    e.judge m context contextName span o = e.judge m' context' contextName span o' := by
  obtain ⟨hused, hkind⟩ := ho
  obtain ⟨s, s', hs, hs', htwins⟩ := h.symbol hused
  simp only [Engine.judge, hs, hs', Option.bind_some]
  rw [h.judgeUsage_eq e.registry hc hused, htwins.name, hkind]

/-- Paired sites have the same findings. -/
theorem evaluate_eq (e : Engine) {context context' used used' : SymbolId} (hc : R context context')
    (hu : R used used') (span : Span) (kind : UsageKind) :
    e.evaluate m ⟨.symbol context used, span, kind⟩ =
      e.evaluate m' ⟨.symbol context' used', span, kind⟩ := by
  obtain ⟨c, c', hs, hs', htwins⟩ := h.symbol hc
  simp only [Engine.evaluate, hs, hs', htwins.name]
  have hoccurrences := h.occurrences_rel e.maxDepth kind hu
  generalize occurrences m e.maxDepth kind used = found at hoccurrences ⊢
  generalize occurrences m' e.maxDepth kind used' = found' at hoccurrences ⊢
  induction hoccurrences with
  | nil => rfl
  | cons ho _ ih => rw [List.filterMap_cons, List.filterMap_cons, h.judge_eq e hc _ span ho, ih]

end Simulation

theorem flatMap_eq_of_forall₂ {α α' β : Type} {r : α → α' → Prop} {f : α → List β}
    {f' : α' → List β} {as : List α} {as' : List α'} (has : List.Forall₂ r as as')
    (hf : ∀ a a', r a a' → f a = f' a') : as.flatMap f = as'.flatMap f' := by
  induction has with
  | nil => rfl
  | cons ha _ ih => rw [List.flatMap_cons, List.flatMap_cons, hf _ _ ha, ih]

/-- A site whose context or whose used symbol does not resolve has no findings. -/
theorem Engine.flatMap_ofSymbols_of_dead (e : Engine) (kind : UsageKind)
    {context used : Option SymbolId} (span : Span)
    (hdead : context.bind (symbol? m) = none ∨ used.bind (symbol? m) = none) :
    (Site.ofSymbols kind context used span).flatMap (e.evaluate m) = [] := by
  cases context with
  | none => rfl
  | some c =>
    cases used with
    | none => rfl
    | some u =>
      simp only [Site.ofSymbols, List.flatMap_singleton, evaluate]
      rcases hdead with hc | hu
      · rw [Option.bind_some] at hc
        rw [hc]
      · rw [Option.bind_some] at hu
        rw [occurrences, run_of_dead hu]
        cases symbol? m c <;> rfl

theorem Engine.flatMap_types_of_resolves (e : Engine) (context : Option SymbolId)
    (types : List SymbolId) (span : Span) :
    (types.flatMap fun p => Site.ofSymbols .type context (some p) span).flatMap (e.evaluate m) =
      (types.filter (resolves m)).flatMap fun p =>
        (Site.ofSymbols .type context (some p) span).flatMap (e.evaluate m) := by
  rw [List.flatMap_assoc, flatMap_filter]
  intro p _ hp
  exact e.flatMap_ofSymbols_of_dead .type span (.inr (resolves_eq_false.mp hp))

namespace Simulation

variable (h : Simulation m m' R)
include h

theorem flatMap_ofSymbols_eq (e : Engine) (kind : UsageKind)
    {context context' used used' : Option SymbolId} (hc : Linked m m' R context context')
    (hu : Linked m m' R used used') (span : Span) :
    (Site.ofSymbols kind context used span).flatMap (e.evaluate m) =
      (Site.ofSymbols kind context' used' span).flatMap (e.evaluate m') := by
  cases hc with
  | dead hdead hdead' =>
    rw [e.flatMap_ofSymbols_of_dead kind span (.inl hdead),
      e.flatMap_ofSymbols_of_dead kind span (.inl hdead')]
  | live hc =>
    cases hu with
    | dead hdead hdead' =>
      rw [e.flatMap_ofSymbols_of_dead kind span (.inr hdead),
        e.flatMap_ofSymbols_of_dead kind span (.inr hdead')]
    | live hu =>
      simp only [Site.ofSymbols, List.flatMap_singleton]
      exact h.evaluate_eq e hc hu span kind

/-- Lists of types give the same findings if what resolves in them is paired. -/
theorem flatMap_types_eq (e : Engine) {context context' : Option SymbolId}
    (hc : Linked m m' R context context') {types types' : List SymbolId}
    (htypes : LinkedAll m m' R types types') (span : Span) :
    (types.flatMap fun p => Site.ofSymbols .type context (some p) span).flatMap (e.evaluate m) =
      (types'.flatMap fun p => Site.ofSymbols .type context' (some p) span).flatMap
        (e.evaluate m') := by
  rw [e.flatMap_types_of_resolves, e.flatMap_types_of_resolves]
  exact flatMap_eq_of_forall₂ htypes fun p p' hp => h.flatMap_ofSymbols_eq e .type hc (.live hp) span

theorem flatMap_signatureSites_eq (e : Engine) {context context' : Option SymbolId}
    (hc : Linked m m' R context context') {callable callable' : SymbolId} (hr : R callable callable')
    (returnSpan parametersSpan : Span) :
    (signatureSites m context callable returnSpan parametersSpan).flatMap (e.evaluate m) =
      (signatureSites m' context' callable' returnSpan parametersSpan).flatMap (e.evaluate m') := by
  rw [signatureSites, signatureSites, List.flatMap_append, List.flatMap_append,
    h.flatMap_ofSymbols_eq e .type hc (h.returnType hr),
    h.flatMap_types_eq e hc (h.parameterTypes hr)]

end Simulation

end UsagePolicy
