import UsagePolicy.Proofs.Descent.Findings

/-! Verdicts do not steer the descent. Which symbols are met at a site, and in which order, is settled
before any rule is asked; a registry drops some of them and puts its own rules to the others. So the
findings of every registry can be read off those of the rule that forbids everything. -/
namespace UsagePolicy

open SymbolModel Descent

variable {M : Type} [SymbolModel M]

/-! ### Occurrences -/

namespace Descent

/-- Symbols that a site meets in turn: the first one is used as the site says, the others are type
arguments. -/
def inTurn (kind : UsageKind) : List SymbolId → List Occurrence
  | [] => []
  | u :: args => ⟨u, kind⟩ :: args.map (⟨·, .typeArgument⟩)

theorem judgements_inTurn (m : M) (maxDepth : Nat) (kind : UsageKind) (u : SymbolId) :
    (judgements m maxDepth kind u).map Call.occurrence =
      inTurn kind ((judgements m maxDepth kind u).map Call.used) := by
  cases hu : symbol? m u with
  | none => simp [judgements_eq_nil hu, inTurn]
  | some s =>
    obtain ⟨rest, hjudged, hrest⟩ := judgements_eq_cons maxDepth kind hu
    have hargs : rest.map Call.occurrence =
        (rest.map Call.used).map (⟨·, .typeArgument⟩) := by
      rw [List.map_map]
      refine List.map_congr_left fun c hc => ?_
      obtain ⟨-, p, hpc⟩ := hrest c hc
      simp [Call.occurrence, hpc.kind_eq]
    rw [hjudged, List.map_cons, List.map_cons, inTurn, hargs]
    rfl

theorem head?_judgements (m : M) (maxDepth : Nat) (kind : UsageKind) (u : SymbolId) :
    ((judgements m maxDepth kind u).map Call.used).head? = (symbol? m u).map fun _ => u := by
  cases hu : symbol? m u with
  | none => simp [judgements_eq_nil hu]
  | some s =>
    obtain ⟨rest, hjudged, -⟩ := judgements_eq_cons maxDepth kind hu
    simp [hjudged, Call.ofSite]

end Descent

/-! ### Findings -/

/-- What a registry makes of a finding about an occurrence in a context: nothing if its usage rules
allow the occurrence, and else the same finding by the first rule against it. -/
def Registry.revise (r : Registry) (m : M) (context : SymbolId) (f : Finding) (o : Occurrence) :
    Option Finding :=
  (r.usageRules.find? (·.forbids m context o.used o.kind)).map fun rule =>
    { f with rule := rule.name, descriptor := rule.descriptor }

namespace Engine

theorem judge_eq_revise (e : Engine) {m : M} {context : SymbolId} {o : Occurrence}
    (ho : (symbol? m o.used).isSome) (contextName name : String) (span : Span)
    (descriptor : Descriptor) : e.judge m context contextName span o =
      e.registry.revise m context ⟨name, descriptor, nameOf m o.used, contextName, span⟩ o := by
  obtain ⟨s, hs⟩ := Option.isSome_iff_exists.mp ho
  simp only [judge, hs, Option.bind_some, Registry.judgeUsage, Registry.revise, nameOf]
  cases e.registry.usageRules.find? (·.forbids m context o.used o.kind) <;> rfl

section Revision

variable {m : M} {context u : SymbolId} {c : Symbol} {kind : UsageKind}

/-- The rule that forbids everything has a finding about each symbol that is judged. -/
theorem evaluate_forbidAll_used (hc : symbol? m context = some c) (hkind : kind ≠ .nameSpace)
    (span : Span) (maxDepth : Nat) (name : String) (descriptor : Descriptor) :
    evaluate ⟨.forbidAll name descriptor, maxDepth⟩ m ⟨.symbol context u, span, kind⟩ =
      ((judgements m maxDepth kind u).map Call.used).map
        fun v => ⟨name, descriptor, nameOf m v, c.name, span⟩ := by
  rw [evaluate_forbidAll hc hkind, List.map_map]
  rfl

/-- The findings of a registry are those of the rule that forbids everything, each revised by the
registry's verdict on its symbol. -/
theorem evaluate_eq_revise (hc : symbol? m context = some c) (hkind : kind ≠ .nameSpace)
    (span : Span) (maxDepth : Nat) (name : String) (descriptor : Descriptor) (r : Registry) :
    evaluate ⟨r, maxDepth⟩ m ⟨.symbol context u, span, kind⟩ =
      ((evaluate ⟨.forbidAll name descriptor, maxDepth⟩ m ⟨.symbol context u, span, kind⟩).zip
        (inTurn kind ((judgements m maxDepth kind u).map Call.used))).filterMap
          fun p => r.revise m context p.1 p.2 := by
  rw [evaluate_forbidAll hc hkind, ← judgements_inTurn, List.zip_map', List.filterMap_map,
    evaluate_eq_filterMap _ hc]
  refine List.filterMap_congr fun j hj => ?_
  exact judge_eq_revise _ (mem_judgements.mp hj).2.2.2 c.name name span descriptor

end Revision

/-- A site in a context that resolves settles which symbols are met, its own symbol first if that
resolves. The rule that forbids everything has a finding about each of them, and the findings of any
registry are these findings in order: those whose symbol the registry allows are dropped, the others
name its first rule against the symbol and change in nothing else. -/
theorem findings_revised (m : M) (context u : SymbolId) (span : Span) (kind : UsageKind)
    (hkind : kind ≠ .nameSpace) (c : Symbol) (hc : symbol? m context = some c) (maxDepth : Nat) :
    ∃ symbols : List SymbolId, symbols.head? = ((symbol? m u).map fun _ => u) ∧
      ∀ (name : String) (descriptor : Descriptor),
        evaluate ⟨.forbidAll name descriptor, maxDepth⟩ m ⟨.symbol context u, span, kind⟩ =
          (symbols.map fun v => ⟨name, descriptor, nameOf m v, c.name, span⟩) ∧
        ∀ r : Registry, evaluate ⟨r, maxDepth⟩ m ⟨.symbol context u, span, kind⟩ =
          ((evaluate ⟨.forbidAll name descriptor, maxDepth⟩ m ⟨.symbol context u, span, kind⟩).zip
            (inTurn kind symbols)).filterMap fun p => r.revise m context p.1 p.2 := by
  refine ⟨(judgements m maxDepth kind u).map Call.used, head?_judgements m maxDepth kind u, ?_⟩
  intro name descriptor
  constructor
  · exact evaluate_forbidAll_used hc hkind span maxDepth name descriptor
  · exact evaluate_eq_revise hc hkind span maxDepth name descriptor

/-- A registry with one rule, against `Leaf` alone. -/
def leafBan : Registry where
  usageRules := [{
    name := "no-leaf"
    category := .type
    context := .any
    used := .named "Leaf"
    sites := UsageKind.ofSymbols
    descriptor := .ofCategory .type }]

/-- `Pair<List<Box<Leaf>>, Box<Leaf>>` has five findings under the rule that forbids everything; the
rule against `Leaf` keeps one of them, below three symbols that it allows. -/
theorem findings_revised_boxes : ∃ symbols : List SymbolId, symbols.head? = some ⟨4⟩ ∧
    ((⟨.forbidAll "no-types" (.ofCategory .type), 32⟩ : Engine).evaluate boxes
      ⟨.symbol ⟨0⟩ ⟨4⟩, {}, .type⟩).map (·.used) = ["Pair", "List", "Box", "Leaf", "Box"] ∧
    ((⟨leafBan, 32⟩ : Engine).evaluate boxes ⟨.symbol ⟨0⟩ ⟨4⟩, {}, .type⟩).map (·.used) = ["Leaf"] ∧
    (⟨leafBan, 32⟩ : Engine).evaluate boxes ⟨.symbol ⟨0⟩ ⟨4⟩, {}, .type⟩ =
      (((⟨.forbidAll "no-types" (.ofCategory .type), 32⟩ : Engine).evaluate boxes
        ⟨.symbol ⟨0⟩ ⟨4⟩, {}, .type⟩).zip (inTurn .type symbols)).filterMap
          fun p => leafBan.revise boxes ⟨0⟩ p.1 p.2 := by
  obtain ⟨symbols, hhead, hall⟩ :=
    findings_revised boxes ⟨0⟩ ⟨4⟩ {} .type (by decide) _ rfl 32
  obtain ⟨-, hrevised⟩ := hall "no-types" (.ofCategory .type)
  exact ⟨symbols, hhead, by decide, by decide, hrevised leafBan⟩

end Engine

end UsagePolicy
