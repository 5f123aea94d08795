import UsagePolicy.Proofs.Extraction
import UsagePolicy.Proofs.Registry.Merging

/-! Namespace rules and usage rules keep out of each other's way. Each question is for one family of
rules, and the node that raises it says for which: declarations and imports of namespaces ask about
namespaces and nothing else, all other nodes ask about symbols. So a registry reports what its two
families report alone. -/
namespace UsagePolicy

open SymbolModel

variable {M : Type} [SymbolModel M] {m : M}

/-! ### One family alone -/

namespace Registry

variable (r : Registry)

/-- The namespace rules without the usage rules. -/
def namespacePart : Registry := { namespaceRules := r.namespaceRules }

/-- The usage rules without the namespace rules. -/
def usagePart : Registry := { usageRules := r.usageRules }

theorem names_namespacePart : r.namespacePart.names = r.namespaceRules.map (·.name) := by
  simp [names, namespacePart]

theorem names_usagePart : r.usagePart.names = r.usageRules.map (·.name) := by
  simp [names, usagePart]

theorem append_parts : r.namespacePart.append r.usagePart = r := by
  simp [append, namespacePart, usagePart]

theorem merge_parts {r : Registry} (h : r.names.Nodup) :
    r.namespacePart.merge r.usagePart = .ok r :=
  merge_eq_ok_iff.mpr ⟨r.append_parts.symm, by rwa [append_parts]⟩

/-- Only one of the families has anything to say to a question, so it does not matter which one is
asked first. -/
theorem answer_parts (m : M) (q : Question) :
    r.answer m q = (r.usagePart.answer m q).or (r.namespacePart.answer m q) := by
  cases q with
  | nameSpace outer inner span => rfl
  | usage context contextName span o =>
    have hnone : r.namespacePart.answer m (.usage context contextName span o) = none := by
      simp only [answer]
      cases symbol? m o.used <;> rfl
    rw [hnone, Option.or_none]
    rfl

end Registry

/-! ### Nodes that ask about namespaces -/

/-- The sites of a node are about namespaces if the node is, and else about symbols. -/
theorem Node.site_family {above : List Node} {n : Node} {s : Site}
    (hs : s ∈ n.sites m (Scope.below above)) :
    (n.kind.isAboutNamespaces ∧ ∃ outer inner, s.subject = .nameSpace outer inner) ∨
      ¬ n.kind.isAboutNamespaces ∧ ∃ context used, s.subject = .symbol context used := by
  cases hn : n.kind.isAboutNamespaces with
  | true =>
    obtain ⟨outer, inner, span, -, rfl⟩ := exists_namespaces_of_mem_sites hn hs
    exact .inl ⟨rfl, outer, inner, rfl⟩
  | false =>
    obtain ⟨⟨c, u, -, hsubject, -⟩, -⟩ := isUsage_of_mem_sites hn hs
    exact .inr ⟨Bool.false_ne_true, c, u, hsubject⟩

/-! ### Diagnostics -/

namespace Engine

/-- What a host that walks the document gets to see at a node. -/
def nodeDiagnostics (e : Engine) (t : Tree) (above : List Node) (n : Node) : List Diagnostic :=
  (e.reportNode t.symbols t.file (Scope.below above) n (#[] : Array Diagnostic)).toList

theorem nodeDiagnostics_eq_map (e : Engine) (t : Tree) (above : List Node) (n : Node) :
    e.nodeDiagnostics t above n =
      (e.checkNode t.symbols (Scope.below above) n).map (Finding.diagnostic t.file) := by
  simp [nodeDiagnostics, reportNode, emit_array]

/-- Each diagnostic of a document arises at one of its nodes. -/
theorem diagnostics_eq_flatMap (e : Engine) (t : Tree) :
    e.diagnostics t = (t.root.placed []).flatMap fun p => e.nodeDiagnostics t p.1 p.2 := by
  simp only [diagnostics_eq_map, checkRoot_eq_flatMap, ← Scope.below_nil, Node.visits_below,
    List.flatMap_map, List.map_flatMap, nodeDiagnostics_eq_map]

/-- The rules that report at a node are of the family that the node is about. -/
theorem rule_mem_family {e : Engine} {t : Tree} {above : List Node} {n : Node} {d : Diagnostic}
    (hd : d ∈ e.nodeDiagnostics t above n) :
    n.kind.isAboutNamespaces ∧ d.rule ∈ e.registry.namespaceRules.map (·.name) ∨
      ¬ n.kind.isAboutNamespaces ∧ d.rule ∈ e.registry.usageRules.map (·.name) := by
  rw [nodeDiagnostics_eq_map, checkNode_eq_filterMap] at hd
  obtain ⟨f, hf, rfl⟩ := List.mem_map.mp hd
  obtain ⟨q, hq, hf⟩ := List.mem_filterMap.mp hf
  obtain ⟨site, hsite, hq⟩ := List.mem_flatMap.mp hq
  rcases Node.site_family hsite with ⟨hn, outer, inner, hsubject⟩ | ⟨hn, context, used, hsubject⟩
  · obtain rfl := (Site.mem_questions_nameSpace hsubject).mp hq
    obtain ⟨rule, hrule, rfl⟩ := Registry.answer_nameSpace.mp hf
    exact .inl ⟨hn, List.mem_map_of_mem (List.mem_of_find?_eq_some hrule)⟩
  · obtain ⟨c, -, o, -, rfl⟩ := (Site.mem_questions_symbol hsubject).mp hq
    obtain ⟨s, rule, -, hrule, rfl⟩ := Registry.answer_usage.mp hf
    exact .inr ⟨hn, List.mem_map_of_mem (List.mem_of_find?_eq_some hrule)⟩

theorem diagnostics_usagePart {r : Registry} (h : r.names.Nodup) (t : Tree) (maxDepth : Nat) :
    ((⟨r, maxDepth⟩ : Engine).diagnostics t).filter (·.rule ∈ r.usagePart.names) =
      (⟨r.usagePart, maxDepth⟩ : Engine).diagnostics t := by
  have hdisjoint := Registry.disjoint_of_merge (Registry.merge_parts h)
  simp only [diagnostics_eq_filterMap, r.answer_parts, Option.map_or]
  refine filter_filterMap_or ?_ ?_ _
  · intro q d hd
    obtain ⟨f, hf, rfl⟩ := Option.map_eq_some_iff.mp hd
    exact decide_eq_true (Registry.rule_mem_names hf)
  · intro q d hd
    obtain ⟨f, hf, rfl⟩ := Option.map_eq_some_iff.mp hd
    exact decide_eq_false (hdisjoint _ (Registry.rule_mem_names hf))

/-- Of what a registry with distinct names reports, the part of its namespace rules is all that these
report alone, in order, and so is the part of its usage rules. Every diagnostic arises at a node: those
of namespace rules at declarations and imports of namespaces and nowhere else, those of usage rules at
all other nodes and never there. -/
theorem diagnostics_by_family (r : Registry) (hnames : r.names.Nodup) (t : Tree) (maxDepth : Nat) :
    ((⟨r, maxDepth⟩ : Engine).diagnostics t).filter (·.rule ∈ r.namespaceRules.map (·.name)) =
      (⟨⟨r.namespaceRules, []⟩, maxDepth⟩ : Engine).diagnostics t ∧
    ((⟨r, maxDepth⟩ : Engine).diagnostics t).filter (·.rule ∈ r.usageRules.map (·.name)) =
      (⟨⟨[], r.usageRules⟩, maxDepth⟩ : Engine).diagnostics t ∧
    (⟨r, maxDepth⟩ : Engine).diagnostics t =
      ((t.root.placed []).flatMap fun p => nodeDiagnostics ⟨r, maxDepth⟩ t p.1 p.2) ∧
    ∀ above n, (above, n) ∈ t.root.placed [] → ∀ d ∈ nodeDiagnostics ⟨r, maxDepth⟩ t above n,
      (d.rule ∈ r.namespaceRules.map (·.name) ↔ n.kind.isAboutNamespaces) ∧
      (d.rule ∈ r.usageRules.map (·.name) ↔ ¬ n.kind.isAboutNamespaces) := by
  have hmerge := Registry.merge_parts hnames
  refine ⟨?_, ?_, diagnostics_eq_flatMap ⟨r, maxDepth⟩ t, ?_⟩
  · rw [← r.names_namespacePart]
    exact diagnostics_merge_first hmerge t maxDepth
  · rw [← r.names_usagePart]
    exact diagnostics_usagePart hnames t maxDepth
  · intro above n _ d hd
    have hdisjoint := Registry.disjoint_of_merge hmerge d.rule
    rw [r.names_namespacePart, r.names_usagePart] at hdisjoint
    rcases rule_mem_family hd with ⟨hn, hrule⟩ | ⟨hn, hrule⟩
    · exact ⟨iff_of_true hrule hn, iff_of_false (hdisjoint hrule) (not_not_intro hn)⟩
    · exact ⟨iff_of_false (fun h => hdisjoint h hrule) hn, iff_of_true hrule hn⟩

/-- A rule of each family. -/
def mixedRegistry : Registry where
  namespaceRules := [{ name := "no-system", outer := "Company", forbidden := "System" }]
  usageRules := [{
    name := "no-leaf"
    category := .type
    context := .any
    used := .named "Leaf"
    sites := UsageKind.ofSymbols
    descriptor := .ofCategory .type }]

/-- A namespace with another one inside, and a method that returns `Leaf`. -/
def mixedDocument : Tree where
  file := "Company.cs"
  symbols := ⟨#[{ name := "Run", kind := .method none [] }, .ofTypeName "Leaf"]⟩
  root := {
    kind := .nameSpace "Company" (.start 1 11) none
    children := [
      { kind := .method (some ⟨0⟩) { type := some ⟨1⟩, span := .start 2 5 } },
      { kind := .nameSpace "System.IO" (.start 4 13) none }] }

/-- Both families report, the usage rule first as its node does, and each reports the same alone. -/
theorem diagnostics_by_family_mixed : mixedRegistry.names.Nodup ∧
    ((⟨mixedRegistry, 4⟩ : Engine).diagnostics mixedDocument).map (·.rule) = ["no-leaf", "no-system"] ∧
    ((⟨mixedRegistry, 4⟩ : Engine).diagnostics mixedDocument).filter (·.rule ∈ ["no-system"]) =
      (⟨⟨mixedRegistry.namespaceRules, []⟩, 4⟩ : Engine).diagnostics mixedDocument ∧
    ((⟨mixedRegistry, 4⟩ : Engine).diagnostics mixedDocument).filter (·.rule ∈ ["no-leaf"]) =
      (⟨⟨[], mixedRegistry.usageRules⟩, 4⟩ : Engine).diagnostics mixedDocument := by
  have hnames : mixedRegistry.names.Nodup := by decide
  obtain ⟨hnamespaces, husages, -, -⟩ := diagnostics_by_family mixedRegistry hnames mixedDocument 4
  refine ⟨hnames, ?_, hnamespaces, husages⟩
  rw [diagnostics_eq_filterMap]
  decide +kernel

end Engine

end UsagePolicy
