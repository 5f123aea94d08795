import Mathlib.Data.List.Nodup
import UsagePolicy.ConfigFile
import UsagePolicy.Proofs.Questions

/-! Rules before other rules. A merged registry asks its first part and turns to the second one only
where the first has nothing against a usage; since names are unique over both parts, a report says
which part it came from. So rules that are added behind others neither mask nor change any report of
theirs, and they can only lose reports of their own. -/
namespace UsagePolicy

open SymbolModel

/-! ### Names -/

namespace Registry

/-- No name is repeated if all are new and differ from one another. -/
theorem repeated_eq_nil_iff {seen names : List String} :
    repeated seen names = [] ↔ names.Nodup ∧ ∀ n ∈ names, n ∉ seen := by
  induction names generalizing seen with
  | nil => simp [repeated]
  | cons n names ih =>
    rw [repeated]
    by_cases hn : n ∈ seen
    · simp [hn]
    · simp only [hn, if_false, ih, List.nodup_cons, List.mem_cons, not_or, forall_eq_or_imp]
      grind

/-- A registry is made of the given rules just as they are, and only if their names differ. -/
theorem make_eq_ok_iff {namespaceRules : List NamespaceRule} {usageRules : List UsageRule}
    {r : Registry} : make namespaceRules usageRules = .ok r ↔
      r = ⟨namespaceRules, usageRules⟩ ∧ r.names.Nodup := by
  have hnil : repeated [] (names ⟨namespaceRules, usageRules⟩) = [] ↔
      (names ⟨namespaceRules, usageRules⟩).Nodup ∧ ∀ n ∈ _, n ∉ [] := repeated_eq_nil_iff
  rw [make]
  cases hrepeated : repeated [] (names ⟨namespaceRules, usageRules⟩) with
  | nil =>
    have hnodup := (hnil.mp hrepeated).1
    constructor
    · rintro ⟨⟩
      exact ⟨rfl, hnodup⟩
    · rintro ⟨rfl, -⟩
      rfl
  | cons n ns =>
    refine ⟨nofun, ?_⟩
    rintro ⟨rfl, hnodup⟩
    rw [hnil.mpr ⟨hnodup, by simp⟩] at hrepeated
    cases hrepeated

/-- The rules of two registries, one family after the other. -/
def append (a b : Registry) : Registry :=
  ⟨a.namespaceRules ++ b.namespaceRules, a.usageRules ++ b.usageRules⟩

theorem merge_eq_ok_iff {a b r : Registry} :
    a.merge b = .ok r ↔ r = a.append b ∧ (a.append b).names.Nodup := by
  rw [merge, make_eq_ok_iff]
  constructor
  · rintro ⟨rfl, h⟩
    exact ⟨rfl, h⟩
  · rintro ⟨rfl, h⟩
    exact ⟨rfl, h⟩

theorem names_append_perm (a b : Registry) : (a.append b).names.Perm (a.names ++ b.names) := by
  simp only [names, append, List.map_append, List.append_assoc]
  refine List.Perm.append_left _ ?_
  rw [← List.append_assoc, ← List.append_assoc]
  exact List.Perm.append_right _ List.perm_append_comm

/-- No name stands in both parts of a merged registry. -/
theorem disjoint_of_merge {a b r : Registry} (h : a.merge b = .ok r) :
    ∀ n ∈ a.names, n ∉ b.names := by
  have hnodup := (names_append_perm a b).nodup_iff.mp (merge_eq_ok_iff.mp h).2
  exact fun n ha hb => (List.nodup_append.mp hnodup).2.2 n ha n hb rfl

/-! ### Answers -/

variable {M : Type} [SymbolModel M]

/-- The second part is asked only where the first one has nothing to say. -/
theorem answer_append (a b : Registry) (m : M) (q : Question) :
    (a.append b).answer m q = (a.answer m q).or (b.answer m q) := by
  cases q with
  | nameSpace outer inner span =>
    simp only [answer, judgeNamespace, append, List.find?_append]
    cases a.namespaceRules.find? (·.forbids outer inner) with
    | none => rfl
    | some rule => rfl
  | usage context contextName span o =>
    simp only [answer]
    cases symbol? m o.used with
    | none => rfl
    | some used =>
      simp only [Option.bind_some, judgeUsage, append, List.find?_append]
      cases a.usageRules.find? (·.forbids m context o.used o.kind) with
      | none => rfl
      | some rule => rfl

/-- A finding names a rule of the registry. -/
theorem rule_mem_names {r : Registry} {m : M} {q : Question} {f : Finding}
    (h : r.answer m q = some f) : f.rule ∈ r.names := by
  cases q with
  | nameSpace outer inner span =>
    obtain ⟨rule, hrule, rfl⟩ := answer_nameSpace.mp h
    exact List.mem_append_left _ (List.mem_map_of_mem (List.mem_of_find?_eq_some hrule))
  | usage context contextName span o =>
    obtain ⟨used, rule, -, hrule, rfl⟩ := answer_usage.mp h
    exact List.mem_append_right _ (List.mem_map_of_mem (List.mem_of_find?_eq_some hrule))

end Registry

/-! ### Reports -/

section
variable {α β : Type} {f g : α → Option β} {p : β → Bool}

/-- Of first and second choices, those with a mark of the first ones are the first choices. -/
theorem filter_filterMap_or (hf : ∀ a b, f a = some b → p b = true)
    (hg : ∀ a b, g a = some b → p b = false) (as : List α) :
    (as.filterMap fun a => (f a).or (g a)).filter p = as.filterMap f := by
  rw [List.filter_filterMap]
  refine List.filterMap_congr fun a _ => ?_
  cases hfa : f a with
  | some b => simp [hf a b hfa]
  | none =>
    cases hga : g a with
    | some b => simp [hg a b hga]
    | none => rfl

/-- Those with a mark of the second ones are some of the second choices. -/
theorem filter_filterMap_or_sublist (hf : ∀ a b, f a = some b → p b = false) (as : List α) :
    ((as.filterMap fun a => (f a).or (g a)).filter p).Sublist (as.filterMap g) := by
  induction as with
  | nil => exact .slnil
  | cons a as ih =>
    cases hfa : f a with
    | some b =>
      simp only [List.filterMap_cons, hfa, Option.some_or]
      rw [List.filter_cons_of_neg (by simp [hf a b hfa])]
      exact ih.trans ((List.sublist_cons_self a as).filterMap g)
    | none =>
      simp only [List.filterMap_cons, hfa, Option.none_or]
      cases g a with
      | none => exact ih
      | some b =>
        rw [List.filter_cons]
        split
        · exact ih.cons_cons b
        · exact ih.cons b

end

namespace Engine

/-- What the first part of a merged registry reports, with the reports of the second part left out. -/
theorem diagnostics_merge_first {first second merged : Registry}
    (h : first.merge second = .ok merged) (t : Tree) (maxDepth : Nat) :
    ((⟨merged, maxDepth⟩ : Engine).diagnostics t).filter (·.rule ∈ first.names) =
      (⟨first, maxDepth⟩ : Engine).diagnostics t := by
  obtain ⟨rfl, -⟩ := Registry.merge_eq_ok_iff.mp h
  simp only [diagnostics_eq_filterMap, Registry.answer_append, Option.map_or]
  refine filter_filterMap_or ?_ ?_ _
  · intro q d hd
    obtain ⟨f, hf, rfl⟩ := Option.map_eq_some_iff.mp hd
    exact decide_eq_true (Registry.rule_mem_names hf)
  · intro q d hd
    obtain ⟨f, hf, rfl⟩ := Option.map_eq_some_iff.mp hd
    exact decide_eq_false fun hmem =>
      Registry.disjoint_of_merge h _ hmem (Registry.rule_mem_names hf)

theorem diagnostics_merge_second {first second merged : Registry}
    (h : first.merge second = .ok merged) (t : Tree) (maxDepth : Nat) :
    (((⟨merged, maxDepth⟩ : Engine).diagnostics t).filter (·.rule ∈ second.names)).Sublist
      ((⟨second, maxDepth⟩ : Engine).diagnostics t) := by
  obtain ⟨rfl, -⟩ := Registry.merge_eq_ok_iff.mp h
  simp only [diagnostics_eq_filterMap, Registry.answer_append, Option.map_or]
  refine filter_filterMap_or_sublist ?_ _
  intro q d hd
  obtain ⟨f, hf, rfl⟩ := Option.map_eq_some_iff.mp hd
  exact decide_eq_false (Registry.disjoint_of_merge h _ (Registry.rule_mem_names hf))

end Engine

/-- The registry of a configuration with a preset is that of the preset, merged with the rules of the
document. -/
theorem Config.registry_eq_ok {c : Config} {content : String} {preset : Preset}
    {merged : Registry} (hpreset : c.preset.bind Preset.ofName? = some preset)
    (h : c.registry content = .ok merged) :
    ∃ own, Registry.ofToml content = .ok own ∧ preset.registry.merge own = .ok merged := by
  obtain ⟨name, hname, hknown⟩ := Option.bind_eq_some_iff.mp hpreset
  rw [registry] at h
  cases hown : Registry.ofToml content with
  | error e =>
    rw [hown] at h
    cases h
  | ok own =>
    rw [hown] at h
    change c.withPreset own = .ok merged at h
    simp only [withPreset, hname, hknown] at h
    refine ⟨own, rfl, ?_⟩
    cases hmerge : preset.registry.merge own with
    | error errors => simp [hmerge] at h
    | ok r => simpa [hmerge] using h

/-- Rules that stand behind others never mask or change a report of theirs: of the diagnostics under
a merged registry, those of the first part are all that it reports alone, in order, and those of the
second part are some of what that one reports alone, in order. In particular a configuration reports
all that its preset reports. -/
theorem Engine.diagnostics_merge (t : Tree) (maxDepth : Nat) :
    (∀ first second merged : Registry, first.merge second = .ok merged →
      ((⟨merged, maxDepth⟩ : Engine).diagnostics t).filter (·.rule ∈ first.names) =
          (⟨first, maxDepth⟩ : Engine).diagnostics t ∧
        (((⟨merged, maxDepth⟩ : Engine).diagnostics t).filter (·.rule ∈ second.names)).Sublist
          ((⟨second, maxDepth⟩ : Engine).diagnostics t)) ∧
    ∀ (c : Config) (content : String) (preset : Preset) (merged : Registry),
      c.preset.bind Preset.ofName? = some preset → c.registry content = .ok merged →
        ((⟨merged, maxDepth⟩ : Engine).diagnostics t).filter (·.rule ∈ preset.registry.names) =
            (⟨preset.registry, maxDepth⟩ : Engine).diagnostics t ∧
          ((⟨preset.registry, maxDepth⟩ : Engine).diagnostics t).Sublist
            ((⟨merged, maxDepth⟩ : Engine).diagnostics t) := by
  constructor
  · intro first second merged h
    exact ⟨diagnostics_merge_first h t maxDepth, diagnostics_merge_second h t maxDepth⟩
  · intro c content preset merged hpreset h
    obtain ⟨own, -, hmerge⟩ := Config.registry_eq_ok hpreset h
    have hfirst := diagnostics_merge_first hmerge t maxDepth
    refine ⟨hfirst, ?_⟩
    rw [← hfirst]
    exact List.filter_sublist

/-- A document with one rule, which forbids in all of `Company` what the sample preset forbids in
`Company.Product`. -/
def companyRules : String :=
  "[[namespace-rule]]\nname = \"no-system\"\nouter = \"Company\"\nforbidden = \"System\"\n"

def companyRegistry : Registry where
  namespaceRules := [{ name := "no-system", outer := "Company", forbidden := "System" }]

/-- Namespaces with `System.IO` in them, in the part that the preset guards and outside of it. -/
def companyDocument : Tree where
  file := "Company.cs"
  root := {
    kind := .compilationUnit
    children := [
      { kind := .nameSpace "Company.Product" (.start 1 11) none
        children := [{ kind := .nameSpace "System.IO" (.start 2 13) none }] },
      { kind := .nameSpace "Company.Core" (.start 4 11) none
        children := [{ kind := .nameSpace "System.IO" (.start 5 13) none }] }] }

theorem ofToml_companyRules : Registry.ofToml companyRules = .ok companyRegistry := by
  have hoption : (Registry.ofToml companyRules).toOption = some companyRegistry := by
    decide +kernel
  cases h : Registry.ofToml companyRules with
  | error e => simp [h, Except.toOption] at hoption
  | ok r => simpa [h, Except.toOption] using hoption

/-- Both rules are against the first `System.IO`, and the preset reports it; the second one is left to
the rule of the document. -/
theorem diagnostics_merge_company :
    ({ preset := some "sample" } : Config).registry companyRules =
      .ok (Preset.sample.registry.append companyRegistry) ∧
    ((⟨Preset.sample.registry.append companyRegistry, 4⟩ : Engine).diagnostics
      companyDocument).map (·.rule) = ["no-system-in-product", "no-system"] ∧
    ((⟨Preset.sample.registry.append companyRegistry, 4⟩ : Engine).diagnostics
        companyDocument).filter (·.rule ∈ Preset.sample.registry.names) =
      (⟨Preset.sample.registry, 4⟩ : Engine).diagnostics companyDocument ∧
    (((⟨Preset.sample.registry.append companyRegistry, 4⟩ : Engine).diagnostics
        companyDocument).filter (·.rule ∈ companyRegistry.names)).Sublist
      ((⟨companyRegistry, 4⟩ : Engine).diagnostics companyDocument) := by
  have hmerge : Preset.sample.registry.merge companyRegistry =
      .ok (Preset.sample.registry.append companyRegistry) :=
    Registry.merge_eq_ok_iff.mpr ⟨rfl, by decide⟩
  have hconfig : ({ preset := some "sample" } : Config).registry companyRules =
      .ok (Preset.sample.registry.append companyRegistry) := by
    rw [Config.registry, ofToml_companyRules]
    rfl
  obtain ⟨hregistries, hconfigs⟩ := Engine.diagnostics_merge companyDocument 4
  refine ⟨hconfig, ?_, (hconfigs _ _ .sample _ rfl hconfig).1, (hregistries _ _ _ hmerge).2⟩
  rw [Engine.diagnostics_eq_filterMap]
  decide +kernel

end UsagePolicy
