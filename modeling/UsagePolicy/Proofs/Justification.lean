import UsagePolicy.Proofs.Descent.Coverage
import UsagePolicy.Proofs.Extraction
import UsagePolicy.Proofs.Questions

/-! Why a diagnostic is there. Behind each one stands a node with a span of its own, a pair of
namespaces or a chain of type arguments that starts at the node, and the first rule that is against
it; and wherever these come together, there is a diagnostic that says so. -/
namespace UsagePolicy

open SymbolModel Descent

variable {M : Type} [SymbolModel M]

/-! ### Chains of type arguments -/

/-- A chain of some number of steps, each from a generic symbol to one of its type arguments. -/
inductive Descent.Leads (m : M) (u : SymbolId) : Nat → SymbolId → Prop
  | self : Leads m u 0 u
  | step {k : Nat} {g v : SymbolId} (hg : Leads m u k g) (hv : Lists m g v) : Leads m u (k + 1) v

/-- As what a symbol counts that stands some steps below a usage: above all type arguments it is used
as the site says. -/
def UsageKind.down (kind : UsageKind) : Nat → UsageKind
  | 0 => kind
  | _ + 1 => .typeArgument

namespace Descent

variable {m : M} {maxDepth : Nat} {kind : UsageKind} {u : SymbolId}

theorem leads_of_mem_callsAt : ∀ c ∈ callsAt m maxDepth kind u,
    Leads m u c.path.length c.used ∧ c.kind = kind.down c.path.length := by
  refine callsAt_induction ⟨.self, rfl⟩ ?_
  rintro p _ _ ⟨hp, _⟩ c hpc
  rw [hpc.path_eq, List.length_cons, hpc.kind_eq]
  exact ⟨.step hp hpc.lists, rfl⟩

/-- What is judged resolves and stands at the end of a chain within the bound. -/
theorem exists_leads_of_mem_occurrences {o : Occurrence} (ho : o ∈ occurrences m maxDepth kind u) :
    (symbol? m o.used).isSome ∧ ∃ k ≤ maxDepth, Leads m u k o.used ∧ o.kind = kind.down k := by
  obtain ⟨c, hc, hused, hkind⟩ := mem_occurrences.mp ho
  obtain ⟨hmem, -, hlen, hresolves⟩ := mem_judgements.mp hc
  obtain ⟨hleads, hdown⟩ := leads_of_mem_callsAt c hmem
  rw [← hused, ← hkind]
  exact ⟨hresolves, c.path.length, hlen, hleads, hdown⟩

/-- What the descent from a used symbol judges, and as what: the symbol itself, and the type
arguments that open chains lead to. -/
def Judges (m : M) (maxDepth : Nat) (kind : UsageKind) (u v : SymbolId) (as : UsageKind) : Prop :=
  v = u ∧ as = kind ∨
    v ≠ u ∧ as = .typeArgument ∧ ∃ between, OpenChain m maxDepth kind u v between

theorem mem_occurrences_of_judges {v : SymbolId} {as : UsageKind} (hu : (symbol? m u).isSome)
    (hv : (symbol? m v).isSome) (h : Judges m maxDepth kind u v as) :
    ⟨v, as⟩ ∈ occurrences m maxDepth kind u := by
  rcases h with ⟨rfl, rfl⟩ | ⟨hne, rfl, hchain⟩
  · have hsite : Call.ofSite as v ∈ judgements m maxDepth as v :=
      mem_judgements.mpr ⟨self_mem_trace _, by simp [Call.ofSite], Nat.zero_le _, hu⟩
    exact mem_occurrences.mpr ⟨_, hsite, rfl, rfl⟩
  · exact (mem_occurrences_iff_openChain hu hv hne).mpr hchain

end Descent

/-! ### Grounds -/

/-- The diagnostic reports by the descriptor of a rule, with the names of what is used and where. -/
structure Diagnostic.Cites (d : Diagnostic) (rule : String) (descriptor : Descriptor)
    (used context : String) : Prop where
  rule : d.rule = rule
  id : d.id = descriptor.id
  severity : d.severity = descriptor.severity
  docRef : d.docRef = descriptor.docRef
  message : d.message = descriptor.render used context

/-- A node is about two namespaces, and a rule is the first one against the inner one inside the
outer one. -/
structure Engine.NamespaceGrounds (e : Engine) (t : Tree) (above : List Node) (n : Node)
    (d : Diagnostic) (outer inner : String) (rule : NamespaceRule) : Prop where
  nests : n.kind.Nests t.symbols above outer inner
  first : e.registry.namespaceRules.find? (·.forbids outer inner) = some rule
  cites : d.Cites rule.name rule.descriptor inner outer

/-- A node uses `u` in the context `c` of the innermost declaration, a chain leads from `u` down to
`v`, and a rule is the first one against `v` in that context. -/
structure Engine.UsageGrounds (e : Engine) (t : Tree) (above : List Node) (n : Node)
    (d : Diagnostic) (site : Site) (c u v : SymbolId) (k : Nat) (rule : UsageRule) : Prop where
  extracted : site ∈ n.sites t.symbols (Scope.below above)
  subject : site.subject = .symbol c u
  span : site.span = d.location.span
  innermost : Node.innermost? NodeKind.declared? (above ++ [n]) = some (some c)
  chain : Leads t.symbols u k v
  bounded : k ≤ e.maxDepth
  first : e.registry.usageRules.find? (·.forbids t.symbols c v (site.kind.down k)) = some rule
  cites : ∃ context used, t.symbols.get? c = some context ∧ t.symbols.get? v = some used ∧
    d.Cites rule.name rule.descriptor used.name context.name

/-- There is a diagnostic at a span that reports by a rule. -/
def Engine.Reports (e : Engine) (t : Tree) (span : Span) (rule : String) (descriptor : Descriptor)
    (used context : String) : Prop :=
  ∃ d ∈ e.diagnostics t, d.location = ⟨t.file, span⟩ ∧ d.Cites rule descriptor used context

theorem Finding.diagnostic_cites (file : String) (f : Finding) :
    (f.diagnostic file).Cites f.rule f.descriptor f.used f.context :=
  ⟨rfl, rfl, rfl, rfl, rfl⟩

namespace Engine

variable {e : Engine} {t : Tree} {above : List Node} {n : Node} {site : Site}

theorem reports_of_answer {q : Question} {f : Finding} (hq : q ∈ t.questions e.maxDepth)
    (hf : e.registry.answer t.symbols q = some f) :
    e.Reports t f.span f.rule f.descriptor f.used f.context :=
  ⟨f.diagnostic t.file, (e.mem_diagnostics t).mpr ⟨q, hq, f, hf, rfl⟩, rfl, f.diagnostic_cites t.file⟩

/-- A finding about a site of a node has its grounds there. -/
theorem grounds_of_answer {q : Question} {f : Finding}
    (hsite : site ∈ n.sites t.symbols (Scope.below above))
    (hq : q ∈ site.questions t.symbols e.maxDepth)
    (hf : e.registry.answer t.symbols q = some f) :
    f.span ∈ n.spans ∧
      ((∃ outer inner rule, e.NamespaceGrounds t above n (f.diagnostic t.file) outer inner rule) ∨
        ∃ site c u v k rule, e.UsageGrounds t above n (f.diagnostic t.file) site c u v k rule) := by
  rcases Node.sites_cases hsite with ⟨outer, inner, hsubject, hspan, hnests⟩ |
    ⟨c, u, hcontext, hsubject, hspan⟩
  · obtain rfl := (Site.mem_questions_nameSpace hsubject).mp hq
    obtain ⟨rule, hfirst, rfl⟩ := Registry.answer_nameSpace.mp hf
    exact ⟨hspan, .inl ⟨outer, inner, rule, hnests, hfirst, Finding.diagnostic_cites _ _⟩⟩
  · obtain ⟨context, hc, o, ho, rfl⟩ := (Site.mem_questions_symbol hsubject).mp hq
    obtain ⟨used, rule, hused, hfirst, rfl⟩ := Registry.answer_usage.mp hf
    obtain ⟨-, k, hk, hleads, hkind⟩ := exists_leads_of_mem_occurrences ho
    rw [Node.contextIn_below, Option.join_eq_some_iff] at hcontext
    rw [hkind] at hfirst
    exact ⟨hspan, .inr ⟨site, c, u, o.used, k, rule, {
      extracted := hsite
      subject := hsubject
      span := rfl
      innermost := hcontext
      chain := hleads
      bounded := hk
      first := hfirst
      cites := ⟨context, used, hc, hused, Finding.diagnostic_cites _ _⟩ }⟩⟩

theorem reports_nameSpace (hplaced : (above, n) ∈ t.root.placed [])
    (hsite : site ∈ n.sites t.symbols (Scope.below above)) {outer inner : String}
    {rule : NamespaceRule} (hsubject : site.subject = .nameSpace outer inner)
    (hfirst : e.registry.namespaceRules.find? (·.forbids outer inner) = some rule) :
    e.Reports t site.span rule.name rule.descriptor inner outer := by
  have hq : .nameSpace outer inner site.span ∈ t.questions e.maxDepth :=
    Tree.mem_questions.mpr ⟨above, n, hplaced, site, hsite,
      (Site.mem_questions_nameSpace hsubject).mpr rfl⟩
  exact reports_of_answer hq (Registry.answer_nameSpace.mpr ⟨rule, hfirst, rfl⟩)

theorem reports_usage (hplaced : (above, n) ∈ t.root.placed [])
    (hsite : site ∈ n.sites t.symbols (Scope.below above)) {c u v : SymbolId} {as : UsageKind}
    {context used : Symbol} {rule : UsageRule} (hsubject : site.subject = .symbol c u)
    (hc : t.symbols.get? c = some context) (hu : (t.symbols.get? u).isSome)
    (hv : t.symbols.get? v = some used) (hjudges : Judges t.symbols e.maxDepth site.kind u v as)
    (hfirst : e.registry.usageRules.find? (·.forbids t.symbols c v as) = some rule) :
    e.Reports t site.span rule.name rule.descriptor used.name context.name := by
  have ho : ⟨v, as⟩ ∈ occurrences t.symbols e.maxDepth site.kind u :=
    mem_occurrences_of_judges hu (Option.isSome_iff_exists.mpr ⟨used, hv⟩) hjudges
  have hq : .usage c context.name site.span ⟨v, as⟩ ∈ t.questions e.maxDepth :=
    Tree.mem_questions.mpr ⟨above, n, hplaced, site, hsite,
      (Site.mem_questions_symbol hsubject).mpr ⟨context, hc, _, ho, rfl⟩⟩
  exact reports_of_answer hq (Registry.answer_usage.mpr ⟨used, rule, hv, hfirst, rfl⟩)

/-- Every diagnostic is about the file of its document and has its grounds at a node, with a span
that this node carries. Conversely, every site of a node gets the diagnostics that it gives grounds
for: for its pair of namespaces, and for each symbol that the descent from its own symbol judges, the
symbol itself first of all. -/
theorem diagnostics_justified (e : Engine) (t : Tree) :
    (∀ d ∈ e.diagnostics t, d.location.file = t.file ∧
      ∃ above n, (above, n) ∈ t.root.placed [] ∧ d.location.span ∈ n.spans ∧
        ((∃ outer inner rule, e.NamespaceGrounds t above n d outer inner rule) ∨
          ∃ site c u v k rule, e.UsageGrounds t above n d site c u v k rule)) ∧
    ∀ above n, (above, n) ∈ t.root.placed [] →
      ∀ site ∈ n.sites t.symbols (Scope.below above),
        (∀ outer inner rule, site.subject = .nameSpace outer inner →
          e.registry.namespaceRules.find? (·.forbids outer inner) = some rule →
          e.Reports t site.span rule.name rule.descriptor inner outer) ∧
        ∀ c u v as context used rule, site.subject = .symbol c u →
          t.symbols.get? c = some context → (t.symbols.get? u).isSome →
          t.symbols.get? v = some used → Judges t.symbols e.maxDepth site.kind u v as →
          e.registry.usageRules.find? (·.forbids t.symbols c v as) = some rule →
          e.Reports t site.span rule.name rule.descriptor used.name context.name := by
  constructor
  · intro d hd
    obtain ⟨q, hq, f, hf, rfl⟩ := (e.mem_diagnostics t).mp hd
    obtain ⟨above, n, hplaced, site, hsite, hq⟩ := Tree.mem_questions.mp hq
    obtain ⟨hspan, hgrounds⟩ := grounds_of_answer hsite hq hf
    exact ⟨rfl, above, n, hplaced, hspan, hgrounds⟩
  · intro above n hplaced site hsite
    refine ⟨fun outer inner rule => reports_nameSpace hplaced hsite, ?_⟩
    intro c u v as context used rule
    exact reports_usage hplaced hsite

/-- A method that returns `Box<Leaf>`. -/
def boxMethod : Node where
  kind := .method (some ⟨0⟩) { type := some ⟨2⟩, span := .start 2 5 }

def boxDocument : Tree where
  file := "Boxes.cs"
  symbols := ⟨#[{ name := "Run", kind := .method none [] }, .ofTypeName "Leaf",
    { name := "Box", kind := .type [⟨1⟩] none }]⟩
  root := { kind := .compilationUnit, children := [boxMethod] }

def leafRule : UsageRule where
  name := "no-leaf"
  category := .type
  context := .named "Run"
  used := .named "Leaf"
  sites := UsageKind.ofSymbols
  descriptor := .ofCategory .type

/-- `Leaf` is reported where `Box` is written, and the report has its grounds at a node. -/
theorem diagnostics_justified_box :
    ∃ d ∈ (⟨{ usageRules := [leafRule] }, 4⟩ : Engine).diagnostics boxDocument,
      d.location = ⟨"Boxes.cs", .start 2 5⟩ ∧
      d.message = "Usage of type 'Leaf' is not allowed in 'Run'" ∧
      ∃ above n, (above, n) ∈ boxDocument.root.placed [] ∧ d.location.span ∈ n.spans := by
  obtain ⟨hgrounds, hreports⟩ := diagnostics_justified ⟨{ usageRules := [leafRule] }, 4⟩ boxDocument
  have hplaced : ([boxDocument.root], boxMethod) ∈ boxDocument.root.placed [] := by
    simp [boxDocument, boxMethod, Node.placed, Node.placedAll]
  have hsite : ⟨.symbol ⟨0⟩ ⟨2⟩, .start 2 5, .type⟩ ∈
      boxMethod.sites boxDocument.symbols (Scope.below [boxDocument.root]) := by decide
  have hleaf : Judges boxDocument.symbols 4 .type ⟨2⟩ ⟨1⟩ .typeArgument :=
    .inr ⟨by decide, rfl, [], by decide +kernel⟩
  obtain ⟨d, hd, hlocation, hcites⟩ := (hreports _ _ hplaced _ hsite).2 ⟨0⟩ ⟨2⟩ ⟨1⟩ .typeArgument _ _
    leafRule rfl rfl rfl rfl hleaf (by decide)
  obtain ⟨-, above, n, hplace, hspan, -⟩ := hgrounds d hd
  exact ⟨d, hd, hlocation, hcites.message.trans (by decide), above, n, hplace, hspan⟩

end Engine

end UsagePolicy
