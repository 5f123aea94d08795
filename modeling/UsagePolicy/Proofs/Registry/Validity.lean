import UsagePolicy.Proofs.Failure
import UsagePolicy.Proofs.Registry.Merging
import UsagePolicy.Proofs.Template

/-! What every registry can be relied on for. Descriptors, rules and registries come about by a few
operations, and each of them refuses what would break the invariant or leaves it alone; the loader
has no other means. So no usage rule ever judges a namespace, and every message names what is used
and where. -/
namespace UsagePolicy

open SymbolModel

/-! ### Values that operations make -/

/-- The descriptors that can be made. -/
inductive Descriptor.Built : Descriptor → Prop
  | ofCategory (c : Category) : Built (.ofCategory c)
  | withId {d : Descriptor} (hd : Built d) (id : String) : Built { d with id }
  | withSeverity {d : Descriptor} (hd : Built d) (severity : Severity) : Built { d with severity }
  | withTemplate {d d' : Descriptor} {template : String} (hd : Built d)
    (h : d.withTemplate template = .ok d') : Built d'
  | withDocRef {d : Descriptor} (hd : Built d) (docRef : String) :
    Built { d with docRef := some docRef }

inductive NamespaceRule.Built : NamespaceRule → Prop
  | make {r : NamespaceRule} {name outer forbidden : String}
    (h : NamespaceRule.make name outer forbidden = .ok r) : Built r
  | withDescriptor {r : NamespaceRule} (hr : Built r) {descriptor : Descriptor}
    (hd : descriptor.Built) : Built { r with descriptor }

inductive UsageRule.Built : UsageRule → Prop
  | make {r : UsageRule} {name : String} {category : Category} {context : ContextMatcher}
    {used : UsedMatcher} (h : UsageRule.make name category context used = .ok r) : Built r
  | withSites {r r' : UsageRule} (hr : Built r) {sites : List UsageKind}
    (h : r.withSites sites = .ok r') : Built r'
  | withDescriptor {r : UsageRule} (hr : Built r) {descriptor : Descriptor}
    (hd : descriptor.Built) : Built { r with descriptor }

inductive Registry.Built : Registry → Prop
  | empty : Built .empty
  | make {r : Registry} {namespaceRules : List NamespaceRule} {usageRules : List UsageRule}
    (hn : ∀ rule ∈ namespaceRules, rule.Built) (hu : ∀ rule ∈ usageRules, rule.Built)
    (h : Registry.make namespaceRules usageRules = .ok r) : Built r
  | merge {a b r : Registry} (ha : Built a) (hb : Built b) (h : a.merge b = .ok r) : Built r

/-! ### Validity -/

/-- The value that a matcher compares with. -/
def ContextMatcher.value? : ContextMatcher → Option String
  | any => none
  | declaringType value | named value | namespaceStem value => some value

def UsedMatcher.value? : UsedMatcher → Option String
  | any => none
  | named value | namespaceStem value => some value

/-- There is more to a name than blanks. -/
def NonBlank (name : String) : Prop := ∃ c ∈ name.toList, Text.isBlank c = false

structure NamespaceRule.Valid (r : NamespaceRule) : Prop where
  name : NonBlank r.name
  outer : r.outer ≠ ""
  forbidden : r.forbidden ≠ ""
  template : Template.HasSlots r.descriptor.template

structure UsageRule.Valid (r : UsageRule) : Prop where
  name : NonBlank r.name
  context : r.context.value? ≠ some ""
  used : r.used.value? ≠ some ""
  sites_ne_nil : r.sites ≠ []
  nameSpace_notMem_sites : .nameSpace ∉ r.sites
  template : Template.HasSlots r.descriptor.template

structure Registry.Valid (r : Registry) : Prop where
  names_nodup : r.names.Nodup
  namespaceRules : ∀ rule ∈ r.namespaceRules, rule.Valid
  usageRules : ∀ rule ∈ r.usageRules, rule.Valid

/-! ### What the operations refuse -/

theorem RuleError.requireName_eq_ok {name : String} {u : Unit}
    (h : requireName name = .ok u) : NonBlank name := by
  unfold requireName at h
  split at h
  · cases h
  next hblank => simpa [Text.isAllBlank, NonBlank] using hblank

theorem RuleError.requireValue_eq_ok {field value : String} {u : Unit}
    (h : requireValue field value = .ok u) : value ≠ "" := by
  unfold requireValue at h
  split at h
  · cases h
  next hempty => simpa using hempty

theorem Category.template_hasSlots (c : Category) : Template.HasSlots c.template := by
  rw [← Template.hasSlots_iff]
  cases c <;> decide +kernel

theorem Descriptor.Built.hasSlots {d : Descriptor} (h : d.Built) : Template.HasSlots d.template := by
  induction h with
  | ofCategory c => exact c.template_hasSlots
  | withId _ _ ih => exact ih
  | withSeverity _ _ ih => exact ih
  | withTemplate _ hok _ =>
    unfold Descriptor.withTemplate at hok
    split at hok
    next hslots =>
      obtain rfl := Except.ok.inj hok
      exact Template.hasSlots_iff.mp hslots
    · cases hok
  | withDocRef _ _ ih => exact ih

theorem NamespaceRule.Built.valid {r : NamespaceRule} (h : r.Built) : r.Valid := by
  induction h with
  | make hok =>
    unfold NamespaceRule.make at hok
    obtain ⟨_, hname, hok⟩ := bind_eq_ok_iff.mp hok
    obtain ⟨_, houter, hok⟩ := bind_eq_ok_iff.mp hok
    obtain ⟨_, hforbidden, hok⟩ := bind_eq_ok_iff.mp hok
    obtain rfl := Except.ok.inj hok
    exact {
      name := RuleError.requireName_eq_ok hname
      outer := RuleError.requireValue_eq_ok houter
      forbidden := RuleError.requireValue_eq_ok hforbidden
      template := Category.template_hasSlots .nameSpace }
  | withDescriptor _ hd ih => exact { ih with template := hd.hasSlots }

theorem ContextMatcher.check_eq_ok {m : ContextMatcher} {u : Unit} (h : m.check = .ok u) :
    m.value? ≠ some "" := by
  cases m with
  | any => simp [value?]
  | declaringType _ | named _ | namespaceStem _ =>
    have hvalue := RuleError.requireValue_eq_ok h
    simpa [value?] using hvalue

theorem UsedMatcher.check_eq_ok {m : UsedMatcher} {u : Unit} (h : m.check = .ok u) :
    m.value? ≠ some "" := by
  cases m with
  | any => simp [value?]
  | named _ | namespaceStem _ =>
    have hvalue := RuleError.requireValue_eq_ok h
    simpa [value?] using hvalue

theorem Category.sites_ne_nil (c : Category) : c.sites ≠ [] := by cases c <;> decide

/-- Only the category that usage rules cannot have is about namespaces. -/
theorem Category.nameSpace_notMem_sites {c : Category} (h : c ≠ .nameSpace) :
    .nameSpace ∉ c.sites := by
  cases c with
  | nameSpace => exact absurd rfl h
  | type | generic | delegate | attributeUse => decide

theorem UsageRule.make_valid {name : String} {category : Category} {context : ContextMatcher}
    {used : UsedMatcher} {r : UsageRule} (h : UsageRule.make name category context used = .ok r) :
    r.Valid := by
  unfold UsageRule.make at h
  obtain ⟨_, hname, h⟩ := bind_eq_ok_iff.mp h
  have hne : category ≠ .nameSpace := by
    rintro rfl
    cases h
  simp only [hne, if_false] at h
  obtain ⟨_, hcontext, h⟩ := bind_eq_ok_iff.mp h
  obtain ⟨_, hused, h⟩ := bind_eq_ok_iff.mp h
  obtain rfl := Except.ok.inj h
  exact {
    name := RuleError.requireName_eq_ok hname
    context := ContextMatcher.check_eq_ok hcontext
    used := UsedMatcher.check_eq_ok hused
    sites_ne_nil := category.sites_ne_nil
    nameSpace_notMem_sites := Category.nameSpace_notMem_sites hne
    template := category.template_hasSlots }

theorem UsageRule.Built.valid {r : UsageRule} (h : r.Built) : r.Valid := by
  induction h with
  | make hok => exact UsageRule.make_valid hok
  | withSites _ hok ih =>
    unfold UsageRule.withSites at hok
    split at hok
    · cases hok
    next hne =>
      split at hok
      · cases hok
      next hnamespace =>
        obtain rfl := Except.ok.inj hok
        exact {
          ih with
          sites_ne_nil := by simpa using hne
          nameSpace_notMem_sites := by simpa using hnamespace }
  | withDescriptor _ hd ih => exact { ih with template := hd.hasSlots }

theorem Registry.Built.valid {r : Registry} (h : r.Built) : r.Valid := by
  induction h with
  | empty => exact ⟨by decide, by simp [Registry.empty], by simp [Registry.empty]⟩
  | make hn hu hok =>
    obtain ⟨rfl, hnodup⟩ := Registry.make_eq_ok_iff.mp hok
    exact ⟨hnodup, fun rule hrule => (hn rule hrule).valid, fun rule hrule => (hu rule hrule).valid⟩
  | merge _ _ hok iha ihb =>
    obtain ⟨rfl, hnodup⟩ := Registry.merge_eq_ok_iff.mp hok
    refine ⟨hnodup, ?_, ?_⟩
    · intro rule hrule
      rcases List.mem_append.mp hrule with hrule | hrule
      · exact iha.namespaceRules rule hrule
      · exact ihb.namespaceRules rule hrule
    · intro rule hrule
      rcases List.mem_append.mp hrule with hrule | hrule
      · exact iha.usageRules rule hrule
      · exact ihb.usageRules rule hrule

/-! ### The loader -/

theorem LoadError.atPlace_eq_ok {α : Type} {place : String} {x : Except RuleError α} {a : α} :
    LoadError.atPlace place x = .ok a ↔ x = .ok a := by
  cases x <;> simp [LoadError.atPlace]

theorem Descriptor.Built.patch {d d' : Descriptor} {p : DescriptorPatch} (hd : d.Built)
    (h : d.patch p = .ok d') : d'.Built := by
  -- apart from the template, a patch sets fields that can be set freely
  have hfields : ∀ base : Descriptor, base.Built → Built { base with
      id := p.id.getD base.id
      severity := p.severity.getD base.severity
      docRef := p.docRef <|> base.docRef } := by
    intro base hbase
    have hset := (hbase.withId (p.id.getD base.id)).withSeverity (p.severity.getD base.severity)
    cases p.docRef with
    | none => exact hset
    | some docRef => exact hset.withDocRef docRef
  unfold Descriptor.patch at h
  cases htemplate : p.template with
  | none =>
    rw [htemplate] at h
    obtain rfl := Except.ok.inj h
    exact hfields d hd
  | some template =>
    rw [htemplate] at h
    obtain ⟨base, hbase, h⟩ := bind_eq_ok_iff.mp h
    obtain rfl := Except.ok.inj h
    exact hfields base (.withTemplate hd hbase)

theorem DescriptorEntry.load_built {entry : DescriptorEntry} {category : Category} {place : String}
    {d : Descriptor} (h : entry.load category place = .ok d) : d.Built := by
  unfold DescriptorEntry.load at h
  by_cases hid : entry.id.any Text.isAllBlank
  · simp only [hid, if_true] at h
    cases h
  · simp only [hid] at h
    obtain ⟨base, hbase, h⟩ := bind_eq_ok_iff.mp h
    have hbuilt := (Descriptor.Built.ofCategory category).patch (LoadError.atPlace_eq_ok.mp hbase)
    split at h
    next =>
      obtain rfl := Except.ok.inj h
      exact hbuilt
    next =>
      split at h
      next severity _ =>
        obtain rfl := Except.ok.inj h
        exact hbuilt.withSeverity severity
      next => cases h

theorem NamespaceEntry.load_built {place : String} {entry : NamespaceEntry} {r : NamespaceRule}
    (h : entry.load place = .ok r) : r.Built := by
  unfold NamespaceEntry.load at h
  obtain ⟨descriptor, hdescriptor, h⟩ := bind_eq_ok_iff.mp h
  obtain ⟨rule, hrule, h⟩ := bind_eq_ok_iff.mp h
  obtain rfl := Except.ok.inj h
  exact (NamespaceRule.Built.make (LoadError.atPlace_eq_ok.mp hrule)).withDescriptor
    (DescriptorEntry.load_built hdescriptor)

theorem UsageEntry.load_built {place : String} {entry : UsageEntry} {r : UsageRule}
    (h : entry.load place = .ok r) : r.Built := by
  unfold UsageEntry.load at h
  obtain ⟨category, -, h⟩ := bind_eq_ok_iff.mp h
  obtain ⟨context, -, h⟩ := bind_eq_ok_iff.mp h
  obtain ⟨used, -, h⟩ := bind_eq_ok_iff.mp h
  obtain ⟨descriptor, hdescriptor, h⟩ := bind_eq_ok_iff.mp h
  obtain ⟨rule, hrule, h⟩ := bind_eq_ok_iff.mp h
  have hmade := UsageRule.Built.make (LoadError.atPlace_eq_ok.mp hrule)
  have hdescriptor := DescriptorEntry.load_built hdescriptor
  cases hsites : entry.sites with
  | none =>
    rw [hsites] at h
    obtain rfl := Except.ok.inj h
    exact hmade.withDescriptor hdescriptor
  | some sites =>
    rw [hsites] at h
    obtain ⟨restricted, hrestricted, h⟩ := bind_eq_ok_iff.mp h
    obtain rfl := Except.ok.inj h
    exact (hmade.withSites (LoadError.atPlace_eq_ok.mp hrestricted)).withDescriptor hdescriptor

/-- The loader makes registries by the same operations as everyone else. -/
theorem RuleDocument.load_built {d : RuleDocument} {r : Registry} (h : d.load = .ok r) : r.Built := by
  unfold RuleDocument.load at h
  obtain ⟨namespaceRules, hn, h⟩ := bind_eq_ok_iff.mp h
  obtain ⟨usageRules, hu, h⟩ := bind_eq_ok_iff.mp h
  split at h
  next registry hmake =>
    obtain rfl := Except.ok.inj h
    exact .make (forall_mem_of_mapM_eq_ok hn fun _ _ => NamespaceEntry.load_built)
      (forall_mem_of_mapM_eq_ok hu fun _ _ => UsageEntry.load_built) hmake
  next => cases h

theorem Registry.ofToml_built {content : String} {r : Registry}
    (h : Registry.ofToml content = .ok r) : r.Built := by
  unfold Registry.ofToml at h
  split at h
  · cases h
  · split at h
    next hload =>
      obtain rfl := Except.ok.inj h
      exact RuleDocument.load_built hload
    · cases h

theorem Preset.registry_built (p : Preset) : p.registry.Built := by
  have hn : ∀ rule ∈ p.registry.namespaceRules,
      NamespaceRule.make rule.name rule.outer rule.forbidden = .ok rule := by
    cases p
    decide
  have hu : ∀ rule ∈ p.registry.usageRules,
      UsageRule.make rule.name rule.category rule.context rule.used = .ok rule := by
    cases p
    decide
  have hnodup : p.registry.names.Nodup := by
    cases p
    decide
  exact .make (fun rule hrule => .make (hn rule hrule)) (fun rule hrule => .make (hu rule hrule))
    (Registry.make_eq_ok_iff.mpr ⟨rfl, hnodup⟩)

/-- The registries of configurations come about likewise. -/
theorem Config.registry_built {c : Config} {content : String} {r : Registry}
    (h : c.registry content = .ok r) : r.Built := by
  obtain ⟨own, hown, h⟩ := bind_eq_ok_iff.mp h
  have hbuilt := Registry.ofToml_built hown
  unfold Config.withPreset at h
  split at h
  · obtain rfl := Except.ok.inj h
    exact hbuilt
  · split at h
    · cases h
    next preset _ =>
      split at h
      next hmerge =>
        obtain rfl := Except.ok.inj h
        exact .merge preset.registry_built hbuilt hmerge
      · cases h

/-! ### Verdicts and messages -/

/-- The message names what is used and where. -/
def Diagnostic.Names (d : Diagnostic) (used context : String) : Prop :=
  used.toList <:+: d.message.toList ∧ context.toList <:+: d.message.toList

variable {M : Type} [SymbolModel M]

/-- The names that a question is about: that of what is used, and that of where. -/
def Question.names? (m : M) : Question → Option (String × String)
  | .nameSpace outer inner _ => some (inner, outer)
  | .usage _ contextName _ o => (symbol? m o.used).map fun used => (used.name, contextName)

namespace Registry

theorem answer_names {r : Registry} {m : M} {q : Question} {f : Finding}
    (h : r.answer m q = some f) : q.names? m = some (f.used, f.context) := by
  cases q with
  | nameSpace outer inner span =>
    obtain ⟨rule, -, rfl⟩ := answer_nameSpace.mp h
    rfl
  | usage context contextName span o =>
    obtain ⟨used, rule, hused, -, rfl⟩ := answer_usage.mp h
    simp [Question.names?, hused]

namespace Valid

variable {r : Registry}

/-- Namespaces are out of the reach of usage rules. -/
theorem judgeUsage_nameSpace (h : r.Valid) (m : M) (context used : SymbolId) :
    r.judgeUsage m context used .nameSpace = .allowed := by
  have hnone : r.usageRules.find? (·.forbids m context used .nameSpace) = none := by
    rw [List.find?_eq_none]
    intro rule hrule hforbids
    simp only [UsageRule.forbids, Bool.and_eq_true, List.contains_iff_mem] at hforbids
    exact (h.usageRules rule hrule).nameSpace_notMem_sites hforbids.1.1
  rw [judgeUsage, hnone]

theorem answer_hasSlots (h : r.Valid) {m : M} {q : Question} {f : Finding}
    (hf : r.answer m q = some f) : Template.HasSlots f.descriptor.template := by
  cases q with
  | nameSpace outer inner span =>
    obtain ⟨rule, hrule, rfl⟩ := answer_nameSpace.mp hf
    exact (h.namespaceRules rule (List.mem_of_find?_eq_some hrule)).template
  | usage context contextName span o =>
    obtain ⟨used, rule, -, hrule, rfl⟩ := answer_usage.mp hf
    exact (h.usageRules rule (List.mem_of_find?_eq_some hrule)).template

theorem diagnostic_names (h : r.Valid) {m : M} {q : Question} {f : Finding}
    (hf : r.answer m q = some f) (file : String) :
    (f.diagnostic file).Names f.used f.context := by
  have hnames := Template.names_infix_fill f.used.toList f.context.toList (h.answer_hasSlots hf)
  simpa [Diagnostic.Names, Finding.diagnostic, Descriptor.render] using hnames

end Valid

/-- Whoever makes a registry, by hand or from a document or for a configuration, gets a valid one:
names are told apart, nothing that is compared with is empty, usage rules leave namespaces alone, and
templates have both slots. So usage rules allow every namespace, and whatever the engine reports at a
site or in a document is the answer to a question asked there, and its message names what was asked
about. -/
theorem built_or_loaded_valid (r : Registry)
    (h : r.Built ∨ (∃ document : RuleDocument, document.load = .ok r) ∨
      ∃ (c : Config) (content : String), c.registry content = .ok r) :
    r.Valid ∧
    (∀ (M : Type) [SymbolModel M] (m : M) (context used : SymbolId),
      r.judgeUsage m context used .nameSpace = .allowed) ∧
    (∀ (M : Type) [SymbolModel M] (m : M) (maxDepth : Nat) (site : Site) (file : String),
      ∀ f ∈ (⟨r, maxDepth⟩ : Engine).evaluate m site, ∃ q ∈ site.questions m maxDepth,
        r.answer m q = some f ∧ q.names? m = some (f.used, f.context) ∧
        (f.diagnostic file).Names f.used f.context) ∧
    ∀ (maxDepth : Nat) (t : Tree), ∀ d ∈ (⟨r, maxDepth⟩ : Engine).diagnostics t,
      ∃ q ∈ t.questions maxDepth, ∃ f, r.answer t.symbols q = some f ∧ d = f.diagnostic t.file ∧
        q.names? t.symbols = some (f.used, f.context) ∧ d.Names f.used f.context := by
  have hvalid : r.Valid := by
    rcases h with hbuilt | ⟨document, hload⟩ | ⟨c, content, hload⟩
    · exact hbuilt.valid
    · exact (RuleDocument.load_built hload).valid
    · exact (Config.registry_built hload).valid
  refine ⟨hvalid, ?_, ?_, ?_⟩
  · intro M _ m context used
    exact hvalid.judgeUsage_nameSpace m context used
  · intro M _ m maxDepth site file f hf
    rw [Engine.evaluate_eq_filterMap_answer] at hf
    obtain ⟨q, hq, hf⟩ := List.mem_filterMap.mp hf
    exact ⟨q, hq, hf, answer_names hf, hvalid.diagnostic_names hf file⟩
  · intro maxDepth t d hd
    obtain ⟨q, hq, f, hf, rfl⟩ := (Engine.mem_diagnostics _ t).mp hd
    exact ⟨q, hq, f, hf, rfl, answer_names hf, hvalid.diagnostic_names hf t.file⟩

/-- A rule with braces around its slots. -/
def bracedRules : RuleDocument where
  namespaceRules := [{
    name := "no-system"
    outer := "Company"
    forbidden := "System"
    descriptor := { message := some "\x7b\x7b0\x7d\x7d in \x7b1\x7b1\x7d" } }]

def bracedRegistry : Registry where
  namespaceRules := [{
    name := "no-system"
    outer := "Company"
    forbidden := "System"
    descriptor := { id := "NS001", template := "\x7b\x7b0\x7d\x7d in \x7b1\x7b1\x7d" } }]

/-- Namespaces with slots in their names. -/
def bracedDocument : Tree where
  file := "Braces.cs"
  root := {
    kind := .nameSpace "Company\x7b0\x7d" (.start 1 11) none
    children := [{ kind := .nameSpace "System\x7b1\x7d" (.start 2 13) none }] }

/-- Braces in the template and in the names come out as they are. -/
theorem built_or_loaded_valid_braced :
    bracedRules.load = .ok bracedRegistry ∧ bracedRegistry.Valid ∧
    ((⟨bracedRegistry, 4⟩ : Engine).diagnostics bracedDocument).map (·.message) =
      ["\x7bSystem\x7b1\x7d\x7d in \x7b1Company\x7b0\x7d"] ∧
    ∀ d ∈ (⟨bracedRegistry, 4⟩ : Engine).diagnostics bracedDocument,
      d.Names "System\x7b1\x7d" "Company\x7b0\x7d" := by
  have hload : bracedRules.load = .ok bracedRegistry := by decide +kernel
  obtain ⟨hvalid, -, -, hnames⟩ :=
    built_or_loaded_valid bracedRegistry (.inr (.inl ⟨bracedRules, hload⟩))
  refine ⟨hload, hvalid, ?_, ?_⟩
  · rw [Engine.diagnostics_eq_filterMap]
    decide +kernel
  · intro d hd
    have hquestions : bracedDocument.questions 4 =
        [.nameSpace "Company\x7b0\x7d" "System\x7b1\x7d" (.start 2 13)] := by decide +kernel
    obtain ⟨q, hq, f, -, -, hasked, hd⟩ := hnames 4 bracedDocument d hd
    rw [hquestions, List.mem_singleton] at hq
    rw [hq, Question.names?, Option.some.injEq, Prod.mk.injEq] at hasked
    rwa [hasked.1, hasked.2]

end Registry

end UsagePolicy
