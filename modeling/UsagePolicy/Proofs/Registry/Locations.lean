import Mathlib.Data.List.Basic
import UsagePolicy.Proofs.Registry.Merging

/-! Where a registry reports. Which rule is the first one against a usage depends on the order of the
rules, but whether there is one does not, and a report stands where its question was raised. So more
rules flag more places, in the same order, and other orders of the same rules flag the same ones. -/
namespace UsagePolicy

open SymbolModel

/-! ### Rules that forbid the same -/

/-- Both forbid the same namespaces, whatever they report. -/
structure NamespaceRule.Matches (r r' : NamespaceRule) : Prop where
  outer : r'.outer = r.outer
  forbidden : r'.forbidden = r.forbidden

/-- Both forbid the same symbols, whatever they report. -/
structure UsageRule.Matches (r r' : UsageRule) : Prop where
  context : r'.context = r.context
  used : r'.used = r.used
  sites : r'.sites = r.sites

theorem NamespaceRule.Matches.forbids {r r' : NamespaceRule} (h : r.Matches r')
    (outer inner : String) : r'.forbids outer inner = r.forbids outer inner := by
  rw [NamespaceRule.forbids, NamespaceRule.forbids, h.outer, h.forbidden]

variable {M : Type} [SymbolModel M]

theorem UsageRule.Matches.forbids {r r' : UsageRule} (h : r.Matches r') (m : M)
    (context used : SymbolId) (kind : UsageKind) :
    r'.forbids m context used kind = r.forbids m context used kind := by
  rw [UsageRule.forbids, UsageRule.forbids, h.context, h.used, h.sites]

namespace Registry

/-- Every rule of one registry has its like in another one, at any position. -/
structure Within (r r' : Registry) : Prop where
  namespaceRules : ∀ rule ∈ r.namespaceRules, ∃ rule' ∈ r'.namespaceRules, rule.Matches rule'
  usageRules : ∀ rule ∈ r.usageRules, ∃ rule' ∈ r'.usageRules, rule.Matches rule'

theorem Within.of_subset {r r' : Registry} (hn : r.namespaceRules ⊆ r'.namespaceRules)
    (hu : r.usageRules ⊆ r'.usageRules) : r.Within r' where
  namespaceRules rule hrule := ⟨rule, hn hrule, rfl, rfl⟩
  usageRules rule hrule := ⟨rule, hu hrule, rfl, rfl, rfl⟩

/-! ### Flagged questions -/

/-- Whether some rule is against what is asked. -/
def flags (r : Registry) (m : M) (q : Question) : Bool := (r.answer m q).isSome

theorem flags_nameSpace {r : Registry} {m : M} {outer inner : String} {span : Span} :
    r.flags m (.nameSpace outer inner span) ↔
      ∃ rule ∈ r.namespaceRules, rule.forbids outer inner := by
  rw [← List.find?_isSome, flags, Option.isSome_iff_exists, Option.isSome_iff_exists]
  simp only [answer_nameSpace]
  constructor
  · rintro ⟨_, rule, hrule, -⟩
    exact ⟨rule, hrule⟩
  · rintro ⟨rule, hrule⟩
    exact ⟨_, rule, hrule, rfl⟩

theorem flags_usage {r : Registry} {m : M} {context : SymbolId} {contextName : String} {span : Span}
    {o : Occurrence} : r.flags m (.usage context contextName span o) ↔
      (symbol? m o.used).isSome ∧ ∃ rule ∈ r.usageRules, rule.forbids m context o.used o.kind := by
  rw [← List.find?_isSome, flags, Option.isSome_iff_exists, Option.isSome_iff_exists,
    Option.isSome_iff_exists]
  simp only [answer_usage]
  constructor
  · rintro ⟨_, used, rule, hused, hrule, -⟩
    exact ⟨⟨used, hused⟩, rule, hrule⟩
  · rintro ⟨⟨used, hused⟩, rule, hrule⟩
    exact ⟨_, used, rule, hused, hrule, rfl⟩

theorem Within.flags {r r' : Registry} (h : r.Within r') {m : M} {q : Question}
    (hq : r.flags m q) : r'.flags m q := by
  cases q with
  | nameSpace outer inner span =>
    obtain ⟨rule, hrule, hforbids⟩ := flags_nameSpace.mp hq
    obtain ⟨rule', hrule', hmatches⟩ := h.namespaceRules rule hrule
    exact flags_nameSpace.mpr ⟨rule', hrule', by rwa [hmatches.forbids]⟩
  | usage context contextName span o =>
    obtain ⟨hused, rule, hrule, hforbids⟩ := flags_usage.mp hq
    obtain ⟨rule', hrule', hmatches⟩ := h.usageRules rule hrule
    exact flags_usage.mpr ⟨hused, rule', hrule', by rwa [hmatches.forbids]⟩

end Registry

/-! ### Locations -/

/-- Where a question is raised. -/
def Question.span : Question → Span
  | .nameSpace _ _ span => span
  | .usage _ _ span _ => span

theorem Registry.answer_span {r : Registry} {m : M} {q : Question} {f : Finding}
    (h : r.answer m q = some f) : f.span = q.span := by
  cases q with
  | nameSpace outer inner span =>
    obtain ⟨rule, -, rfl⟩ := answer_nameSpace.mp h
    rfl
  | usage context contextName span o =>
    obtain ⟨used, rule, -, -, rfl⟩ := answer_usage.mp h
    rfl

namespace Engine

/-- Diagnostics stand where the flagged questions were raised. -/
theorem locations_eq_map (e : Engine) (t : Tree) :
    (e.diagnostics t).map (·.location) =
      ((t.questions e.maxDepth).filter (e.registry.flags t.symbols)).map
        fun q => ⟨t.file, q.span⟩ := by
  rw [diagnostics_eq_filterMap, List.map_filterMap, ← List.filterMap_eq_filter, List.map_filterMap]
  refine List.filterMap_congr fun q _ => ?_
  cases hf : e.registry.answer t.symbols q with
  | none => simp [Registry.flags, hf, Option.guard]
  | some f =>
    simp [Registry.flags, hf, Option.guard, Finding.diagnostic, Registry.answer_span hf]

theorem locations_sublist {r r' : Registry} (h : r.Within r') (t : Tree) (maxDepth : Nat) :
    (((⟨r, maxDepth⟩ : Engine).diagnostics t).map (·.location)).Sublist
      (((⟨r', maxDepth⟩ : Engine).diagnostics t).map (·.location)) := by
  rw [locations_eq_map, locations_eq_map]
  refine List.Sublist.map _ (List.monotone_filter_right _ ?_)
  intro q hq
  exact h.flags hq

/-- The places that a registry flags are, in order, among those that any registry with the same rules
and more flags, wherever the rules stand; so the order of the rules shows in what diagnostics say and
not in where they are. -/
theorem locations_monotone (t : Tree) (maxDepth : Nat) :
    (∀ r r' : Registry, r.Within r' →
      (((⟨r, maxDepth⟩ : Engine).diagnostics t).map (·.location)).Sublist
        (((⟨r', maxDepth⟩ : Engine).diagnostics t).map (·.location))) ∧
    ∀ r r' : Registry, r.namespaceRules.Perm r'.namespaceRules → r.usageRules.Perm r'.usageRules →
      ((⟨r, maxDepth⟩ : Engine).diagnostics t).map (·.location) =
        ((⟨r', maxDepth⟩ : Engine).diagnostics t).map (·.location) := by
  constructor
  · intro r r' h
    exact locations_sublist h t maxDepth
  · intro r r' hn hu
    have hwithin : r.Within r' := .of_subset hn.subset hu.subset
    have hback : r'.Within r := .of_subset hn.symm.subset hu.symm.subset
    exact (locations_sublist hwithin t maxDepth).antisymm (locations_sublist hback t maxDepth)

/-- The rule of the company behind those of the preset and before them: other rules report, at the
same places, and among these are the places that the rule flags alone. -/
theorem locations_monotone_company :
    companyRegistry.Within (Preset.sample.registry.append companyRegistry) ∧
    (((⟨companyRegistry, 4⟩ : Engine).diagnostics companyDocument).map (·.location)).Sublist
      (((⟨Preset.sample.registry.append companyRegistry, 4⟩ : Engine).diagnostics
        companyDocument).map (·.location)) ∧
    ((⟨Preset.sample.registry.append companyRegistry, 4⟩ : Engine).diagnostics
      companyDocument).map (·.rule) = ["no-system-in-product", "no-system"] ∧
    ((⟨companyRegistry.append Preset.sample.registry, 4⟩ : Engine).diagnostics
      companyDocument).map (·.rule) = ["no-system", "no-system"] ∧
    ((⟨Preset.sample.registry.append companyRegistry, 4⟩ : Engine).diagnostics
        companyDocument).map (·.location) =
      ((⟨companyRegistry.append Preset.sample.registry, 4⟩ : Engine).diagnostics
        companyDocument).map (·.location) := by
  have hwithin : companyRegistry.Within (Preset.sample.registry.append companyRegistry) :=
    .of_subset (List.subset_append_right _ _) (List.subset_append_right _ _)
  obtain ⟨hmonotone, hpermuted⟩ := locations_monotone companyDocument 4
  refine ⟨hwithin, hmonotone _ _ hwithin, ?_, ?_,
    hpermuted _ _ List.perm_append_comm List.perm_append_comm⟩
  · rw [diagnostics_eq_filterMap]
    decide +kernel
  · rw [diagnostics_eq_filterMap]
    decide +kernel

end Engine

end UsagePolicy
