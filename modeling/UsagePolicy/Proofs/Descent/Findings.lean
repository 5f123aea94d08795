import UsagePolicy.Engine
import UsagePolicy.Proofs.Descent.Coverage

/-! What a site has to show for its descent. Rules are asked about each judged symbol and about
nothing else, so the findings under a rule that forbids everything are the judgements themselves.
The main results: a bound that is large enough loses no type argument, and below such a bound an
argument is hidden exactly if every chain to it passes a symbol that is met first at the bound. -/
namespace UsagePolicy

open SymbolModel Descent Relation

variable {M : Type} [SymbolModel M]

/-- The name behind a handle; empty if it dangles. -/
def SymbolModel.nameOf (m : M) (id : SymbolId) : String := ((symbol? m id).map Symbol.name).getD ""

/-- The registry whose only rule forbids any symbol in any context, however it is used. -/
def Registry.forbidAll (name : String) (descriptor : Descriptor) : Registry where
  usageRules := [{
    name, category := .type, context := .any, used := .any, sites := UsageKind.ofSymbols, descriptor }]

theorem UsageKind.mem_ofSymbols {kind : UsageKind} : kind ∈ ofSymbols ↔ kind ≠ .nameSpace := by
  cases kind <;> decide

namespace Engine

/-- The findings at a symbol site are those judgements that a rule turns into one. -/
theorem evaluate_eq_filterMap (e : Engine) {m : M} {context u : SymbolId} {c : Symbol}
    (hc : symbol? m context = some c) (span : Span) (kind : UsageKind) :
    e.evaluate m ⟨.symbol context u, span, kind⟩ = (judgements m e.maxDepth kind u).filterMap
      fun j => e.judge m context c.name span j.occurrence := by
  simp only [evaluate, hc]
  rw [occurrences_eq_map, List.filterMap_map]
  rfl

/-- A judgement that some rule forbids is a finding about the judged symbol. -/
theorem exists_finding_of_mem_occurrences (e : Engine) {m : M} {context u : SymbolId} {c s : Symbol}
    {o : Occurrence} {kind : UsageKind} (hc : symbol? m context = some c)
    (ho : o ∈ occurrences m e.maxDepth kind u) (hs : symbol? m o.used = some s) (span : Span)
    {rule : UsageRule} (hrule : rule ∈ e.registry.usageRules)
    (hforbids : rule.forbids m context o.used o.kind) :
    ∃ f ∈ e.evaluate m ⟨.symbol context u, span, kind⟩,
      f.used = s.name ∧ f.context = c.name ∧ f.span = span := by
  have hfind : (e.registry.usageRules.find? (·.forbids m context o.used o.kind)).isSome :=
    List.find?_isSome.mpr ⟨rule, hrule, hforbids⟩
  obtain ⟨first, hfirst⟩ := Option.isSome_iff_exists.mp hfind
  refine ⟨⟨first.name, first.descriptor, s.name, c.name, span⟩, ?_, rfl, rfl, rfl⟩
  simp only [evaluate, hc]
  refine List.mem_filterMap.mpr ⟨o, ho, ?_⟩
  simp [judge, hs, Registry.judgeUsage, hfirst, Verdict.finding?]

/-- Under the rule that forbids everything, the findings are the judgements, one for one. -/
theorem evaluate_forbidAll {m : M} {context u : SymbolId} {c : Symbol} {kind : UsageKind}
    (hc : symbol? m context = some c) (hkind : kind ≠ .nameSpace) (span : Span) (maxDepth : Nat)
    (name : String) (descriptor : Descriptor) :
    evaluate ⟨.forbidAll name descriptor, maxDepth⟩ m ⟨.symbol context u, span, kind⟩ =
      (judgements m maxDepth kind u).map fun j =>
        ⟨name, descriptor, nameOf m j.used, c.name, span⟩ := by
  rw [evaluate_eq_filterMap _ hc, ← List.filterMap_eq_map]
  refine List.filterMap_congr fun j hj => ?_
  obtain ⟨hmem, hjudged⟩ := mem_judgements.mp hj
  obtain ⟨s, hs⟩ := Option.isSome_iff_exists.mp hjudged.2.2
  have hsites : j.kind ∈ UsageKind.ofSymbols := by
    rcases eq_ofSite_or_reaches j hmem with rfl | ⟨htype, _⟩
    · exact UsageKind.mem_ofSymbols.mpr hkind
    · rw [htype]
      decide
  simp [judge, Call.occurrence, hs, Registry.judgeUsage, Registry.forbidAll, UsageRule.forbids,
    ContextMatcher.accepts, UsedMatcher.accepts, hc, hsites, Verdict.finding?, nameOf]

theorem evaluate_eq_of_ncard_le {m : M} {context u : SymbolId} {c : Symbol}
    (hc : symbol? m context = some c) (span : Span) (kind : UsageKind) (registry : Registry)
    {maxDepth maxDepth' : Nat} (hd : (genericsFrom m u).ncard ≤ maxDepth)
    (hle : maxDepth ≤ maxDepth') :
    evaluate ⟨registry, maxDepth'⟩ m ⟨.symbol context u, span, kind⟩ =
      evaluate ⟨registry, maxDepth⟩ m ⟨.symbol context u, span, kind⟩ := by
  rw [evaluate_eq_filterMap _ hc, evaluate_eq_filterMap _ hc, judgements_eq_of_le hd hle]
  rfl

/-! ### A bound that is large enough -/

/-- If the bound is at least the number of generic symbols that the used symbol reaches, judgements
being what the rule that forbids everything finds: the symbols besides it that are judged as type
arguments are those that resolve and that it reaches; without cycles each argument position of each
of them is judged exactly once if the argument resolves; and all such bounds give the same
findings. -/
theorem descent_loses_nothing (m : M) (context u : SymbolId) (span : Span) (kind : UsageKind)
    (hkind : kind ≠ .nameSpace) (c : Symbol) (hc : symbol? m context = some c)
    (hu : (symbol? m u).isSome) (maxDepth : Nat) (hd : (genericsFrom m u).ncard ≤ maxDepth) :
    (∀ name descriptor,
      evaluate ⟨.forbidAll name descriptor, maxDepth⟩ m ⟨.symbol context u, span, kind⟩ =
        (judgements m maxDepth kind u).map fun j =>
          ⟨name, descriptor, nameOf m j.used, c.name, span⟩) ∧
    (∀ v, v ≠ u →
      ((∃ j ∈ judgements m maxDepth kind u, j.used = v ∧ j.kind = .typeArgument) ↔
        (symbol? m v).isSome ∧ TransGen (Lists m) u v)) ∧
    ((∀ g, ReflTransGen (Lists m) u g → ¬ TransGen (Lists m) g g) →
      ∀ g i a, ReflTransGen (Lists m) u g → (argsOf m g)[i]? = some a → (symbol? m a).isSome →
        ((judgements m maxDepth kind u).filterMap Call.position).count (g, i) = 1) ∧
    ∀ (registry : Registry) (maxDepth' : Nat), (genericsFrom m u).ncard ≤ maxDepth' →
      evaluate ⟨registry, maxDepth'⟩ m ⟨.symbol context u, span, kind⟩ =
        evaluate ⟨registry, maxDepth⟩ m ⟨.symbol context u, span, kind⟩ := by
  refine ⟨?_, ?_, ?_, ?_⟩
  · exact evaluate_forbidAll hc hkind span maxDepth
  · exact fun v hv => exists_judgement_iff_reaches hu hd hv
  · intro hacyclic g i a hg hi ha
    exact count_position_eq_one hu hd hacyclic hg hi ha
  · intro registry maxDepth' hd'
    rcases Nat.le_total maxDepth maxDepth' with hle | hle
    · exact evaluate_eq_of_ncard_le hc span kind registry hd hle
    · exact (evaluate_eq_of_ncard_le hc span kind registry hd' hle).symm

/-- A method, and the types `Leaf`, `Box<Leaf>`, `List<Box>` and `Pair<List, Box>`. -/
def boxes : SymbolTable where
  symbols := #[
    { name := "Run", kind := .method none [] },
    { name := "Leaf", kind := .type [] none },
    { name := "Box", kind := .type [⟨1⟩] none },
    { name := "List", kind := .type [⟨2⟩] none },
    { name := "Pair", kind := .type [⟨3⟩, ⟨2⟩] none }]

theorem descent_loses_nothing_boxes : (genericsFrom boxes ⟨4⟩).ncard ≤ 5 ∧
    ∃ j ∈ judgements boxes 5 .type ⟨4⟩, j.used = ⟨1⟩ ∧ j.kind = .typeArgument := by
  have hd : (genericsFrom boxes ⟨4⟩).ncard ≤ 5 := ncard_genericsFrom_le_size boxes ⟨4⟩
  have hall := descent_loses_nothing boxes ⟨0⟩ ⟨4⟩ {} .type (by decide) _ rfl rfl 5 hd
  have hbox : Lists boxes ⟨4⟩ ⟨2⟩ := by decide
  have hreach : TransGen (Lists boxes) ⟨4⟩ ⟨1⟩ := .tail (.single hbox) (by decide)
  exact ⟨hd, (hall.2.1 ⟨1⟩ (by decide)).mpr ⟨rfl, hreach⟩⟩

/-! ### A bound that hides -/

/-- An argument is judged exactly if a chain of at most as many steps as the bound leads to it along
symbols that are not met first at the bound, whatever the order of the arguments; and then a rule
that forbids it as a type argument has a finding about it. -/
theorem judged_iff_openChain (e : Engine) (m : M) (context u v : SymbolId) (span : Span)
    (kind : UsageKind) (c s : Symbol) (hc : symbol? m context = some c) (hu : (symbol? m u).isSome)
    (hv : symbol? m v = some s) (hne : v ≠ u) :
    (⟨v, .typeArgument⟩ ∈ occurrences m e.maxDepth kind u ↔
      ∃ between, OpenChain m e.maxDepth kind u v between) ∧
    ∀ between, OpenChain m e.maxDepth kind u v between →
      ∀ rule ∈ e.registry.usageRules, rule.forbids m context v .typeArgument →
        ∃ f ∈ e.evaluate m ⟨.symbol context u, span, kind⟩,
          f.used = s.name ∧ f.context = c.name ∧ f.span = span := by
  have hiff : ⟨v, .typeArgument⟩ ∈ occurrences m e.maxDepth kind u ↔
      ∃ between, OpenChain m e.maxDepth kind u v between :=
    mem_occurrences_iff_openChain hu (by simp [hv]) hne
  refine ⟨hiff, fun between hchain rule hrule hforbids => ?_⟩
  exact e.exists_finding_of_mem_occurrences hc (hiff.mpr ⟨between, hchain⟩) hv span hrule hforbids

theorem judged_iff_openChain_boxes : OpenChain boxes 3 .type ⟨4⟩ ⟨1⟩ [⟨2⟩] ∧
    ⟨⟨1⟩, .typeArgument⟩ ∈ occurrences boxes 3 .type ⟨4⟩ := by
  have hopen : OpenChain boxes 3 .type ⟨4⟩ ⟨1⟩ [⟨2⟩] := by decide +kernel
  have hiff := judged_iff_openChain ⟨{}, 3⟩ boxes ⟨0⟩ ⟨4⟩ ⟨1⟩ {} .type _ _ rfl rfl rfl (by decide)
  exact ⟨hopen, hiff.1.mpr ⟨_, hopen⟩⟩

/-- In `Pair<List<Box<Leaf>>, Box<Leaf>>` the first `Box` stands at the bound of two, so the `Leaf`
below the second one is not judged, though two steps lead to it. -/
theorem leaf_hidden_behind_deeper_box : ¬ ∀ (t : SymbolTable) (maxDepth : Nat) (kind : UsageKind)
    (u v : SymbolId) (between : List SymbolId), (symbol? t u).isSome → (symbol? t v).isSome →
    v ≠ u → (u :: (between ++ [v])).IsChain (Lists t) → between.length + 1 ≤ maxDepth →
    ⟨v, .typeArgument⟩ ∈ occurrences t maxDepth kind u := by
  intro hall
  have hleaf := hall boxes 2 .type ⟨4⟩ ⟨1⟩ [⟨2⟩] rfl rfl (by decide) (by decide) (by decide)
  exact absurd hleaf (by decide)

end Engine

end UsagePolicy
