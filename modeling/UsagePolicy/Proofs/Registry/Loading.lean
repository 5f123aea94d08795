import UsagePolicy.Proofs.Registry.Composition
import UsagePolicy.Proofs.Registry.Validity

/-! What the loader makes of rule documents. An entry can have several faults, and the loader looks for
them in a fixed order; the faults of a document are those of its entries, namespace rules before usage
rules, and then repeated names. The loader stops at the first fault, and if there is none it comes to
the rules that the entries describe. -/
namespace UsagePolicy

/-! ### What entries describe -/

/-- A descriptor has what the entry gives, and the rest from the category. -/
structure DescriptorEntry.Describes (e : DescriptorEntry) (category : Category) (d : Descriptor) :
    Prop where
  id : d.id = e.id.getD category.id
  template : d.template = e.message.getD category.template
  severity : d.severity.name = e.severity.getD "error"
  docRef : d.docRef = e.doc

structure NamespaceEntry.Describes (e : NamespaceEntry) (r : NamespaceRule) : Prop where
  name : r.name = e.name
  outer : r.outer = e.outer
  forbidden : r.forbidden = e.forbidden
  descriptor : e.descriptor.Describes .nameSpace r.descriptor

/-- The entry that asks for a condition on the context. -/
def ContextMatcher.entry : ContextMatcher → ContextEntry
  | any => {}
  | declaringType value => { declaringType := some value }
  | named value => { name := some value }
  | namespaceStem stem => { namespaceStem := some stem }

/-- The entry that asks for a condition on what is used. -/
def UsedMatcher.entry : UsedMatcher → UsedEntry
  | any => {}
  | named value => { name := some value }
  | namespaceStem stem => { namespaceStem := some stem }

/-- A usage rule has what the entry gives, and its sites from the category if the entry has none. -/
structure UsageEntry.Describes (e : UsageEntry) (r : UsageRule) : Prop where
  name : r.name = e.name
  category : r.category.name = e.category
  context : r.context.entry = e.context
  used : r.used.entry = e.used
  sites : r.sites = e.sites.getD r.category.sites
  descriptor : e.descriptor.Describes r.category r.descriptor

structure RuleDocument.Describes (d : RuleDocument) (r : Registry) : Prop where
  namespaceRules : List.Forall₂ NamespaceEntry.Describes d.namespaceRules r.namespaceRules
  usageRules : List.Forall₂ UsageEntry.Describes d.usageRules r.usageRules

/-! ### Valid entries -/

structure DescriptorEntry.Valid (e : DescriptorEntry) : Prop where
  id : ∀ id ∈ e.id, NonBlank id
  message : ∀ template ∈ e.message, Template.HasSlots template
  severity : ∀ name ∈ e.severity, name ∈ ["error", "warning", "info"]

structure NamespaceEntry.Valid (e : NamespaceEntry) : Prop where
  name : NonBlank e.name
  outer : e.outer ≠ ""
  forbidden : e.forbidden ≠ ""
  descriptor : e.descriptor.Valid

/-- The keys that a condition sets, with their values. -/
def ContextEntry.keys (e : ContextEntry) : List (String × String) :=
  (e.declaringType.map ("declaring-type", ·)).toList ++ (e.name.map ("name", ·)).toList ++
    (e.namespaceStem.map ("namespace-prefix", ·)).toList

def UsedEntry.keys (e : UsedEntry) : List (String × String) :=
  (e.name.map ("name", ·)).toList ++ (e.namespaceStem.map ("namespace-prefix", ·)).toList

structure UsageEntry.Valid (e : UsageEntry) : Prop where
  name : NonBlank e.name
  category : e.category ∈ ["type", "generic", "delegate", "attribute"]
  context : e.context.keys.length ≤ 1 ∧ ∀ key ∈ e.context.keys, key.2 ≠ ""
  used : e.used.keys.length ≤ 1 ∧ ∀ key ∈ e.used.keys, key.2 ≠ ""
  sites : ∀ sites ∈ e.sites, sites ≠ [] ∧ .nameSpace ∉ sites
  descriptor : e.descriptor.Valid

/-- The names in a document, namespace rules first. -/
def RuleDocument.names (d : RuleDocument) : List String :=
  d.namespaceRules.map (·.name) ++ d.usageRules.map (·.name)

structure RuleDocument.Valid (d : RuleDocument) : Prop where
  namespaceRules : ∀ e ∈ d.namespaceRules, e.Valid
  usageRules : ∀ e ∈ d.usageRules, e.Valid
  names_nodup : d.names.Nodup

/-! ### Faults -/

instance (name : String) : Decidable (NonBlank name) :=
  inferInstanceAs (Decidable (∃ c ∈ _, _))

instance (template : String) : Decidable (Template.HasSlots template) :=
  inferInstanceAs (Decidable (_ ∧ _))

def RuleError.ofName (name : String) : List RuleError := faultUnless (NonBlank name) .emptyName

def RuleError.ofId (id : String) : List RuleError := faultUnless (NonBlank id) (.emptyValue "id")

def RuleError.ofTemplate (template : String) : List RuleError :=
  faultUnless (Template.HasSlots template) (.invalidTemplate template)

def RuleError.ofValue (field value : String) : List RuleError :=
  faultUnless (value ≠ "") (.emptyValue field)

/-- The faults of the keys that a condition sets. -/
def RuleError.ofKeys (keys : List (String × String)) : List RuleError :=
  keys.flatMap fun key => ofValue key.1 key.2

def RuleError.ofSites (rule : String) (sites : List UsageKind) : List RuleError :=
  faultUnless (sites ≠ []) (.noSites rule) ++ faultUnless (.nameSpace ∉ sites) (.namespaceSite rule)

/-- The faults of an entry in the order in which they are looked for. -/
def DescriptorEntry.faults (place : String) (e : DescriptorEntry) : List LoadError :=
  (e.id.toList.flatMap RuleError.ofId).map (.invalid (place ++ ".id")) ++
  (e.message.toList.flatMap RuleError.ofTemplate).map (.invalid (place ++ ".message")) ++
  e.severity.toList.flatMap fun name =>
    faultUnless (name ∈ ["error", "warning", "info"]) (.unknownSeverity place name)

def NamespaceEntry.faults (place : String) (e : NamespaceEntry) : List LoadError :=
  e.descriptor.faults place ++
  (RuleError.ofName e.name ++ RuleError.ofValue "outer" e.outer ++
    RuleError.ofValue "forbidden" e.forbidden).map (.invalid place)

def UsageEntry.faults (place : String) (e : UsageEntry) : List LoadError :=
  faultUnless (e.category ∈ ["type", "generic", "delegate", "attribute"])
    (.unknownCategory (place ++ ".category") e.category) ++
  faultUnless (e.context.keys.length ≤ 1)
    (.ambiguousMatcher (place ++ ".context") "declaring-type, name, namespace-prefix") ++
  faultUnless (e.used.keys.length ≤ 1)
    (.ambiguousMatcher (place ++ ".used") "name, namespace-prefix") ++
  e.descriptor.faults place ++
  (RuleError.ofName e.name ++ RuleError.ofKeys e.context.keys ++
    RuleError.ofKeys e.used.keys).map (.invalid place) ++
  (e.sites.toList.flatMap (RuleError.ofSites e.name)).map (.invalid (place ++ ".sites"))

/-- What is wrong with the names in a document. -/
def RuleDocument.nameFaults (d : RuleDocument) : List LoadError :=
  faultUnless d.names.Nodup (.duplicates ((Registry.laterNames d.names).map .duplicateName))

/-! ### Names of categories and severities -/

theorem Category.ofName?_name (c : Category) : ofName? c.name = some c := by
  cases c <;> rfl

theorem Category.name_of_ofName? {name : String} {c : Category} (h : ofName? name = some c) :
    c.name = name := by
  simpa using List.find?_some h

/-- The names that usage rules can have for their category. -/
theorem Category.mem_usageNames_iff {name : String} :
    name ∈ ["type", "generic", "delegate", "attribute"] ↔
      ∃ c : Category, c ≠ .nameSpace ∧ c.name = name := by
  constructor
  · simp only [List.mem_cons, List.not_mem_nil, or_false]
    rintro (rfl | rfl | rfl | rfl)
    · exact ⟨.type, by decide, rfl⟩
    · exact ⟨.generic, by decide, rfl⟩
    · exact ⟨.delegate, by decide, rfl⟩
    · exact ⟨.attributeUse, by decide, rfl⟩
  · rintro ⟨c, hne, rfl⟩
    cases c with
    | nameSpace => exact absurd rfl hne
    | type | generic | delegate | attributeUse => decide

theorem Severity.ofName?_name (s : Severity) : ofName? s.name = some s := by
  cases s <;> rfl

theorem Severity.name_of_ofName? {name : String} {s : Severity} (h : ofName? name = some s) :
    s.name = name := by
  simpa using List.find?_some h

theorem Severity.mem_names_iff {name : String} :
    name ∈ ["error", "warning", "info"] ↔ ∃ s : Severity, s.name = name := by
  constructor
  · simp only [List.mem_cons, List.not_mem_nil, or_false]
    rintro (rfl | rfl | rfl)
    · exact ⟨.error, rfl⟩
    · exact ⟨.warning, rfl⟩
    · exact ⟨.info, rfl⟩
  · rintro ⟨s, rfl⟩
    cases s <;> decide

/-! ### Checks -/

theorem nonBlank_iff {name : String} : NonBlank name ↔ ¬ Text.isAllBlank name := by
  simp [Text.isAllBlank, NonBlank]

namespace Screens

theorem requireName (name : String) :
    Screens (fun _ => True) (RuleError.requireName name) (RuleError.ofName name) := by
  refine guard (fun h => ⟨(), if_neg (nonBlank_iff.mp h), trivial⟩) fun h => if_pos ?_
  by_contra hblank
  exact h (nonBlank_iff.mpr hblank)

theorem requireValue (field value : String) :
    Screens (fun _ => True) (RuleError.requireValue field value) (RuleError.ofValue field value) := by
  refine guard (fun h => ⟨(), if_neg ?_, trivial⟩) fun h => if_pos ?_
  · simpa using h
  · simpa using h

theorem requireKey (key value : String) :
    Screens (fun _ => True) (RuleError.requireValue key value) (RuleError.ofKeys [(key, value)]) := by
  have hone : RuleError.ofKeys [(key, value)] = RuleError.ofValue key value := by
    simp [RuleError.ofKeys]
  rw [hone]
  exact requireValue key value

theorem contextCheck (m : ContextMatcher) :
    Screens (fun _ => True) m.check (RuleError.ofKeys m.entry.keys) := by
  cases m with
  | any => exact .pass trivial
  | declaringType value => exact requireKey "declaring-type" value
  | named value => exact requireKey "name" value
  | namespaceStem stem => exact requireKey "namespace-prefix" stem

theorem usedCheck (m : UsedMatcher) :
    Screens (fun _ => True) m.check (RuleError.ofKeys m.entry.keys) := by
  cases m with
  | any => exact .pass trivial
  | named value => exact requireKey "name" value
  | namespaceStem stem => exact requireKey "namespace-prefix" stem

theorem atPlace {α : Type} {P : α → Prop} {x : Except RuleError α} {faults : List RuleError}
    (h : Screens P x faults) (place : String) :
    Screens P (LoadError.atPlace place x) (faults.map (.invalid place)) := by
  cases h with
  | pass ha => exact .pass ha
  | stop e others => exact .stop _ _

theorem namespaceMake (name outer forbidden : String) :
    Screens (· = ⟨name, outer, forbidden, .ofCategory .nameSpace⟩) (NamespaceRule.make name outer forbidden)
      (RuleError.ofName name ++ RuleError.ofValue "outer" outer ++
        RuleError.ofValue "forbidden" forbidden) := by
  rw [NamespaceRule.make, List.append_assoc, ← List.append_nil (RuleError.ofValue "forbidden" forbidden)]
  refine (requireName name).bind fun _ _ => ?_
  refine (requireValue "outer" outer).bind fun _ _ => ?_
  exact (requireValue "forbidden" forbidden).bind fun _ _ => .pass rfl

theorem usageMake (name : String) {category : Category} (hne : category ≠ .nameSpace)
    (context : ContextMatcher) (used : UsedMatcher) :
    Screens (· = ⟨name, category, context, used, category.sites, .ofCategory category⟩)
      (UsageRule.make name category context used)
      (RuleError.ofName name ++ RuleError.ofKeys context.entry.keys ++
        RuleError.ofKeys used.entry.keys) := by
  rw [UsageRule.make, List.append_assoc, ← List.append_nil (RuleError.ofKeys used.entry.keys)]
  refine (requireName name).bind fun _ _ => ?_
  simp only [hne, if_false]
  refine (contextCheck context).bind fun _ _ => ?_
  exact (usedCheck used).bind fun _ _ => .pass rfl

theorem withSites (r : UsageRule) (sites : List UsageKind) :
    Screens (· = { r with sites }) (r.withSites sites) (RuleError.ofSites r.name sites) := by
  rw [RuleError.ofSites, UsageRule.withSites]
  by_cases hne : sites = []
  · subst hne
    exact .stop _ _
  · rw [faultUnless_of_pos hne, List.nil_append, if_neg (by simpa using hne)]
    refine guard (fun h => ⟨_, if_neg ?_, rfl⟩) fun h => if_pos ?_
    · simpa using h
    · simpa using h

theorem contextLoad (place : String) : ∀ e : ContextEntry,
    Screens (fun m => m.entry = e) (e.load place) (faultUnless (e.keys.length ≤ 1)
      (.ambiguousMatcher (place ++ ".context") "declaring-type, name, namespace-prefix"))
  | ⟨none, none, none⟩ | ⟨some _, none, none⟩ | ⟨none, some _, none⟩ | ⟨none, none, some _⟩ =>
    .pass rfl
  | ⟨some _, some _, none⟩ | ⟨some _, none, some _⟩ | ⟨none, some _, some _⟩
  | ⟨some _, some _, some _⟩ => .stop _ []

theorem usedLoad (place : String) : ∀ e : UsedEntry,
    Screens (fun m => m.entry = e) (e.load place) (faultUnless (e.keys.length ≤ 1)
      (.ambiguousMatcher (place ++ ".used") "name, namespace-prefix"))
  | ⟨none, none⟩ | ⟨some _, none⟩ | ⟨none, some _⟩ => .pass rfl
  | ⟨some _, some _⟩ => .stop _ []

theorem categoryLoad (place name : String) :
    Screens (fun c => c.name = name ∧ c ≠ .nameSpace) (Category.load place name)
      (faultUnless (name ∈ ["type", "generic", "delegate", "attribute"])
        (.unknownCategory (place ++ ".category") name)) := by
  refine guard (fun h => ?_) fun h => ?_
  · obtain ⟨c, hne, rfl⟩ := Category.mem_usageNames_iff.mp h
    refine ⟨c, ?_, rfl, hne⟩
    rw [Category.load, Category.ofName?_name]
    cases c with
    | nameSpace => exact absurd rfl hne
    | type | generic | delegate | attributeUse => rfl
  · cases hname : Category.ofName? name with
    | none => rw [Category.load, hname]
    | some c =>
      have hc : c = .nameSpace := by
        by_contra hne
        exact h (Category.mem_usageNames_iff.mpr ⟨c, hne, Category.name_of_ofName? hname⟩)
      rw [Category.load, hname, hc]

theorem withTemplate (d : Descriptor) (template : String) :
    Screens (· = { d with template }) (d.withTemplate template) (RuleError.ofTemplate template) := by
  refine guard (fun h => ⟨_, if_pos ?_, rfl⟩) fun h => if_neg ?_
  · exact Template.hasSlots_iff.mpr h
  · exact fun hslots => h (Template.hasSlots_iff.mp hslots)

theorem patch (d : Descriptor) (p : DescriptorPatch) :
    Screens (· = ⟨p.id.getD d.id, p.severity.getD d.severity, p.template.getD d.template,
        p.docRef <|> d.docRef⟩) (d.patch p) (p.template.toList.flatMap RuleError.ofTemplate) := by
  obtain ⟨id, severity, template, docRef⟩ := p
  cases template with
  | none => exact .pass rfl
  | some template =>
    rw [Option.toList_some, List.flatMap_singleton, ← List.append_nil (RuleError.ofTemplate template)]
    refine (withTemplate d template).bind ?_
    rintro _ rfl
    exact .pass rfl

theorem descriptorLoad (category : Category) (place : String) (e : DescriptorEntry) :
    Screens (e.Describes category) (e.load category place) (e.faults place) := by
  obtain ⟨id, message, severity, doc⟩ := e
  have hid : (id.toList.flatMap RuleError.ofId).map (.invalid (place ++ ".id")) =
      if id.any Text.isAllBlank then [LoadError.invalid (place ++ ".id") (.emptyValue "id")] else [] := by
    cases id with
    | none => rfl
    | some id =>
      by_cases h : Text.isAllBlank id <;> simp [RuleError.ofId, faultUnless, nonBlank_iff, h]
  rw [DescriptorEntry.load, DescriptorEntry.faults, List.append_assoc, hid]
  split
  · exact .stop _ _
  · refine ((patch (.ofCategory category) _).atPlace (place ++ ".message")).bind ?_
    rintro _ rfl
    cases severity with
    | none => exact .pass ⟨rfl, rfl, rfl, by simp [Descriptor.ofCategory]⟩
    | some name =>
      rw [Option.toList_some, List.flatMap_singleton]
      refine guard (fun h => ?_) fun h => ?_
      · obtain ⟨severity, rfl⟩ := Severity.mem_names_iff.mp h
        simp only [Severity.ofName?_name]
        exact ⟨_, rfl, rfl, rfl, rfl, by simp [Descriptor.ofCategory]⟩
      · cases hname : Severity.ofName? name with
        | none => simp only [hname]; rfl
        | some severity =>
          exact absurd (Severity.mem_names_iff.mpr ⟨severity, Severity.name_of_ofName? hname⟩) h

theorem namespaceLoad (place : String) (e : NamespaceEntry) :
    Screens e.Describes (e.load place) (e.faults place) := by
  rw [NamespaceEntry.load, NamespaceEntry.faults,
    ← List.append_nil ((_ ++ RuleError.ofValue "forbidden" e.forbidden).map _)]
  refine (descriptorLoad .nameSpace place e.descriptor).bind fun descriptor hdescriptor => ?_
  refine ((namespaceMake e.name e.outer e.forbidden).atPlace place).bind ?_
  rintro _ rfl
  exact .pass ⟨rfl, rfl, rfl, hdescriptor⟩

theorem usageLoad (place : String) (e : UsageEntry) :
    Screens e.Describes (e.load place) (e.faults place) := by
  rw [UsageEntry.load, UsageEntry.faults]
  simp only [List.append_assoc _ _ (List.map _ _), List.append_assoc _ _ (_ ++ _)]
  refine (categoryLoad place e.category).bind fun category hcategory => ?_
  refine (contextLoad place e.context).bind fun context hcontext => ?_
  refine (usedLoad place e.used).bind fun used hused => ?_
  refine (descriptorLoad category place e.descriptor).bind fun descriptor hdescriptor => ?_
  rw [← hcontext, ← hused]
  refine ((usageMake e.name hcategory.2 context used).atPlace place).bind ?_
  rintro _ rfl
  cases hsites : e.sites with
  | none => exact .pass ⟨rfl, hcategory.1, hcontext, hused, by rw [hsites]; rfl, hdescriptor⟩
  | some sites =>
    rw [Option.toList_some, List.flatMap_singleton, ← List.append_nil (List.map _ _)]
    refine ((withSites _ sites).atPlace (place ++ ".sites")).bind ?_
    rintro _ rfl
    exact .pass ⟨rfl, hcategory.1, hcontext, hused, by rw [hsites]; rfl, hdescriptor⟩

end Screens

/-! ### Documents -/

/-- The faults of a table, each with the place of its entry. -/
def RuleDocument.tableFaults {α : Type} (found : String → α → List LoadError) (table : String)
    (entries : List α) : List LoadError :=
  entries.zipIdx.flatMap fun p => found (place table p.2) p.1

/-- The faults of a document: those of its tables, and then repeated names. -/
def RuleDocument.faults (d : RuleDocument) : List LoadError :=
  tableFaults NamespaceEntry.faults "namespace-rule" d.namespaceRules ++
    tableFaults UsageEntry.faults "usage-rule" d.usageRules ++ d.nameFaults

theorem RuleDocument.Describes.names_eq {d : RuleDocument} {r : Registry} (h : d.Describes r) :
    r.names = d.names := by
  rw [Registry.names, RuleDocument.names, map_eq_map_of_forall₂ h.namespaceRules fun _ _ h => h.name,
    map_eq_map_of_forall₂ h.usageRules fun _ _ h => h.name]

theorem Screens.documentLoad (d : RuleDocument) : Screens d.Describes d.load d.faults := by
  rw [RuleDocument.load, RuleDocument.faults, List.append_assoc]
  refine (Screens.mapM _ fun p _ => namespaceLoad _ p.1).bind fun namespaceRules hn => ?_
  refine (Screens.mapM _ fun p _ => usageLoad _ p.1).bind fun usageRules hu => ?_
  rw [← List.forall₂_map_left_iff, List.zipIdx_map_fst] at hn hu
  have hdescribes : d.Describes ⟨namespaceRules, usageRules⟩ := ⟨hn, hu⟩
  rw [RuleDocument.nameFaults, ← hdescribes.names_eq]
  refine Screens.guard (fun hnodup => ⟨_, ?_, hdescribes⟩) fun hrepeated => ?_
  · rw [Registry.make_eq_ok_iff.mpr ⟨rfl, hnodup⟩]
  · rw [Registry.make_eq_error_iff.mpr ⟨hrepeated, rfl⟩]

/-! ### Faults and validity -/

theorem DescriptorEntry.faults_eq_nil_iff {place : String} {e : DescriptorEntry} :
    e.faults place = [] ↔ e.Valid := by
  simp only [faults, RuleError.ofId, RuleError.ofTemplate, List.append_eq_nil_iff,
    List.map_eq_nil_iff, List.flatMap_eq_nil_iff, faultUnless_eq_nil_iff, Option.mem_toList]
  exact ⟨fun ⟨⟨hid, hmessage⟩, hseverity⟩ => ⟨hid, hmessage, hseverity⟩,
    fun h => ⟨⟨h.id, h.message⟩, h.severity⟩⟩

theorem NamespaceEntry.faults_eq_nil_iff (place : String) (e : NamespaceEntry) :
    e.faults place = [] ↔ e.Valid := by
  simp only [faults, RuleError.ofName, RuleError.ofValue, List.append_eq_nil_iff,
    List.map_eq_nil_iff, faultUnless_eq_nil_iff, DescriptorEntry.faults_eq_nil_iff]
  exact ⟨fun ⟨hdescriptor, ⟨hname, houter⟩, hforbidden⟩ => ⟨hname, houter, hforbidden, hdescriptor⟩,
    fun h => ⟨h.descriptor, ⟨h.name, h.outer⟩, h.forbidden⟩⟩

theorem UsageEntry.faults_eq_nil_iff (place : String) (e : UsageEntry) :
    e.faults place = [] ↔ e.Valid := by
  simp only [faults, RuleError.ofName, RuleError.ofKeys, RuleError.ofValue, RuleError.ofSites,
    List.append_eq_nil_iff, List.map_eq_nil_iff, List.flatMap_eq_nil_iff, faultUnless_eq_nil_iff,
    Option.mem_toList, DescriptorEntry.faults_eq_nil_iff]
  constructor
  · rintro ⟨⟨⟨⟨⟨hcategory, hcontext⟩, hused⟩, hdescriptor⟩, ⟨hname, hcontexts⟩, huseds⟩, hsites⟩
    exact ⟨hname, hcategory, ⟨hcontext, hcontexts⟩, ⟨hused, huseds⟩, hsites, hdescriptor⟩
  · intro h
    exact ⟨⟨⟨⟨⟨h.category, h.context.1⟩, h.used.1⟩, h.descriptor⟩, ⟨h.name, h.context.2⟩, h.used.2⟩,
      h.sites⟩

theorem RuleDocument.tableFaults_eq_nil_iff {α : Type} {found : String → α → List LoadError}
    {Valid : α → Prop} (hvalid : ∀ place e, found place e = [] ↔ Valid e) {table : String}
    {entries : List α} : tableFaults found table entries = [] ↔ ∀ e ∈ entries, Valid e := by
  rw [tableFaults, List.flatMap_eq_nil_iff, ← List.zipIdx_map_fst 0 entries, List.forall_mem_map]
  simp only [hvalid, List.zipIdx_map_fst]

theorem RuleDocument.faults_eq_nil_iff {d : RuleDocument} : d.faults = [] ↔ d.Valid := by
  rw [faults, List.append_eq_nil_iff, List.append_eq_nil_iff,
    tableFaults_eq_nil_iff NamespaceEntry.faults_eq_nil_iff,
    tableFaults_eq_nil_iff UsageEntry.faults_eq_nil_iff, nameFaults,
    faultUnless_eq_nil_iff]
  exact ⟨fun ⟨⟨hn, hu⟩, hnames⟩ => ⟨hn, hu, hnames⟩,
    fun h => ⟨⟨h.namespaceRules, h.usageRules⟩, h.names_nodup⟩⟩

/-! ### Places -/

/-- Where in a document something is wrong, unless it is about the document as a whole. -/
def LoadError.place? : LoadError → Option String
  | invalid place _ | ambiguousMatcher place _ | unknownCategory place _ | unknownSeverity place _ =>
    some place
  | duplicates _ => none

/-- The error is about the entry at a place, or about one of its fields. -/
def LoadError.IsAt (place : String) (err : LoadError) : Prop :=
  ∃ field ∈ ["", ".id", ".message", ".category", ".context", ".used", ".sites"],
    err.place? = some (place ++ field)

theorem LoadError.isAt_of_mem_map {place field : String} {errors : List RuleError} {err : LoadError}
    (hfield : field ∈ ["", ".id", ".message", ".category", ".context", ".used", ".sites"])
    (h : err ∈ errors.map (.invalid (place ++ field))) : err.IsAt place := by
  obtain ⟨error, -, rfl⟩ := List.mem_map.mp h
  exact ⟨field, hfield, rfl⟩

theorem DescriptorEntry.isAt_of_mem_faults {place : String} {e : DescriptorEntry} {err : LoadError}
    (h : err ∈ e.faults place) : err.IsAt place := by
  rw [faults, List.mem_append, List.mem_append] at h
  rcases h with (hid | hmessage) | hseverity
  · exact LoadError.isAt_of_mem_map (by decide) hid
  · exact LoadError.isAt_of_mem_map (by decide) hmessage
  · obtain ⟨name, -, h⟩ := List.mem_flatMap.mp hseverity
    rw [eq_of_mem_faultUnless h]
    exact ⟨"", by decide, by simp [LoadError.place?]⟩

theorem LoadError.isAt_self {place : String} {errors : List RuleError} {err : LoadError}
    (h : err ∈ errors.map (.invalid place)) : err.IsAt place := by
  obtain ⟨error, -, rfl⟩ := List.mem_map.mp h
  exact ⟨"", by decide, by simp [place?]⟩

theorem NamespaceEntry.isAt_of_mem_faults (place : String) (e : NamespaceEntry) (err : LoadError)
    (h : err ∈ e.faults place) : err.IsAt place := by
  rw [faults, List.mem_append] at h
  rcases h with hdescriptor | hrule
  · exact DescriptorEntry.isAt_of_mem_faults hdescriptor
  · exact LoadError.isAt_self hrule

theorem UsageEntry.isAt_of_mem_faults (place : String) (e : UsageEntry) (err : LoadError)
    (h : err ∈ e.faults place) : err.IsAt place := by
  simp only [faults, List.mem_append] at h
  rcases h with ((((hcategory | hcontext) | hused) | hdescriptor) | hrule) | hsites
  · rw [eq_of_mem_faultUnless hcategory]
    exact ⟨".category", by decide, rfl⟩
  · rw [eq_of_mem_faultUnless hcontext]
    exact ⟨".context", by decide, rfl⟩
  · rw [eq_of_mem_faultUnless hused]
    exact ⟨".used", by decide, rfl⟩
  · exact DescriptorEntry.isAt_of_mem_faults hdescriptor
  · exact LoadError.isAt_self hrule
  · exact LoadError.isAt_of_mem_map (by decide) hsites

/-! ### Entries describe one rule -/

theorem ContextMatcher.load_entry (place : String) (m : ContextMatcher) :
    m.entry.load place = .ok m := by
  cases m <;> rfl

theorem ContextMatcher.entry_injective : Function.Injective entry := fun m m' h =>
  Except.ok.inj (by rw [← load_entry "" m, h, load_entry])

theorem UsedMatcher.load_entry (place : String) (m : UsedMatcher) : m.entry.load place = .ok m := by
  cases m <;> rfl

theorem UsedMatcher.entry_injective : Function.Injective entry := fun m m' h =>
  Except.ok.inj (by rw [← load_entry "" m, h, load_entry])

theorem Category.name_injective : Function.Injective name := fun c c' h =>
  Option.some.inj (by rw [← ofName?_name c, h, ofName?_name])

theorem Severity.name_injective : Function.Injective name := fun s s' h =>
  Option.some.inj (by rw [← ofName?_name s, h, ofName?_name])

theorem DescriptorEntry.Describes.unique {e : DescriptorEntry} {category : Category}
    {d d' : Descriptor} (h : e.Describes category d) (h' : e.Describes category d') : d = d' := by
  have hseverity := Severity.name_injective (h.severity.trans h'.severity.symm)
  cases d
  cases d'
  rw [Descriptor.mk.injEq]
  exact ⟨h.id.trans h'.id.symm, hseverity, h.template.trans h'.template.symm,
    h.docRef.trans h'.docRef.symm⟩

theorem NamespaceEntry.describes_rightUnique : Relator.RightUnique Describes := by
  intro e r r' h h'
  have hdescriptor := h.descriptor.unique h'.descriptor
  cases r
  cases r'
  rw [NamespaceRule.mk.injEq]
  exact ⟨h.name.trans h'.name.symm, h.outer.trans h'.outer.symm, h.forbidden.trans h'.forbidden.symm,
    hdescriptor⟩

theorem UsageEntry.describes_rightUnique : Relator.RightUnique Describes := by
  intro e r r' h h'
  have hcategory := Category.name_injective (h.category.trans h'.category.symm)
  have hsites : r.sites = r'.sites := by rw [h.sites, h'.sites, hcategory]
  have hdescriptor := h.descriptor.unique (hcategory ▸ h'.descriptor)
  cases r
  cases r'
  rw [UsageRule.mk.injEq]
  exact ⟨h.name.trans h'.name.symm, hcategory,
    ContextMatcher.entry_injective (h.context.trans h'.context.symm),
    UsedMatcher.entry_injective (h.used.trans h'.used.symm), hsites, hdescriptor⟩

theorem RuleDocument.Describes.unique {d : RuleDocument} {r r' : Registry} (h : d.Describes r)
    (h' : d.Describes r') : r = r' := by
  have hn := NamespaceEntry.describes_rightUnique.forall₂ h.namespaceRules h'.namespaceRules
  have hu := UsageEntry.describes_rightUnique.forall₂ h.usageRules h'.usageRules
  cases r
  cases r'
  rw [Registry.mk.injEq]
  exact ⟨hn, hu⟩

/-! ### Refusals -/

namespace RuleDocument

/-- The error is the first one of the first invalid entry of a table, at the place of that entry. -/
def FirstInvalid {α : Type} (Valid : α → Prop) (found : String → α → List LoadError) (table : String)
    (entries : List α) (err : LoadError) : Prop :=
  ∃ before e after, entries = before ++ e :: after ∧ (∀ x ∈ before, Valid x) ∧ ¬ Valid e ∧
    (found (place table before.length) e).head? = some err ∧ err.IsAt (place table before.length)

/-- Why a document is refused: for its first invalid entry, namespace rules before usage rules, and
for repeated names only if all entries are valid. -/
inductive Refused (d : RuleDocument) : LoadError → Prop
  | namespaceRule {err : LoadError}
      (h : FirstInvalid NamespaceEntry.Valid NamespaceEntry.faults "namespace-rule" d.namespaceRules
        err) : Refused d err
  | usageRule {err : LoadError} (hn : ∀ e ∈ d.namespaceRules, e.Valid)
      (h : FirstInvalid UsageEntry.Valid UsageEntry.faults "usage-rule" d.usageRules err) :
      Refused d err
  | names (hn : ∀ e ∈ d.namespaceRules, e.Valid) (hu : ∀ e ∈ d.usageRules, e.Valid)
      (h : ¬ d.names.Nodup) : Refused d (.duplicates ((Registry.laterNames d.names).map .duplicateName))

theorem head?_tableFaults {α : Type} {found : String → α → List LoadError} {Valid : α → Prop}
    (hvalid : ∀ place e, found place e = [] ↔ Valid e)
    (hplace : ∀ place e err, err ∈ found place e → err.IsAt place) {table : String}
    {entries : List α} {err : LoadError} :
    (tableFaults found table entries).head? = some err ↔
      FirstInvalid Valid found table entries err := by
  rw [tableFaults, head?_flatMap_zipIdx fun e i => hvalid (place table i) e]
  simp only [Nat.zero_add]
  constructor
  · rintro ⟨before, e, after, hsplit, hbefore, hfirst⟩
    have hmem := List.mem_of_mem_head? hfirst
    have hinvalid : ¬ Valid e := by
      intro h
      rw [(hvalid _ e).mpr h] at hmem
      cases hmem
    exact ⟨before, e, after, hsplit, hbefore, hinvalid, hfirst, hplace _ e err hmem⟩
  · rintro ⟨before, e, after, hsplit, hbefore, -, hfirst, -⟩
    exact ⟨before, e, after, hsplit, hbefore, hfirst⟩

theorem head?_faults {d : RuleDocument} {err : LoadError} :
    d.faults.head? = some err ↔ d.Refused err := by
  simp only [faults, List.append_assoc, List.head?_append, Option.or_eq_some_iff,
    List.head?_eq_none_iff, nameFaults, head?_faultUnless,
    head?_tableFaults NamespaceEntry.faults_eq_nil_iff NamespaceEntry.isAt_of_mem_faults,
    head?_tableFaults UsageEntry.faults_eq_nil_iff UsageEntry.isAt_of_mem_faults,
    tableFaults_eq_nil_iff NamespaceEntry.faults_eq_nil_iff,
    tableFaults_eq_nil_iff UsageEntry.faults_eq_nil_iff]
  constructor
  · rintro (h | ⟨hn, h | ⟨hu, hnames, rfl⟩⟩)
    · exact .namespaceRule h
    · exact .usageRule hn h
    · exact .names hn hu hnames
  · rintro (h | ⟨hn, h⟩ | ⟨hn, hu, hnames⟩)
    · exact .inl h
    · exact .inr ⟨hn, .inl h⟩
    · exact .inr ⟨hn, .inr ⟨hu, hnames, rfl⟩⟩

/-- The loader accepts just the valid documents. It makes of them the registry that they describe, which
has a rule for each entry in its place, with what the entry says and otherwise what goes with the
category. Other documents are refused for the first fault of their first invalid entry, and for
repeated names if all entries are valid. -/
theorem load_exact (d : RuleDocument) :
    ((∃ r, d.load = .ok r) ↔ d.Valid) ∧ (∀ r, d.load = .ok r ↔ d.Valid ∧ d.Describes r) ∧
    ∀ err, d.load = .error err ↔ d.Refused err := by
  have hscreens := Screens.documentLoad d
  have hvalid : (∃ r, d.load = .ok r) ↔ d.Valid := by
    rw [hscreens.exists_ok_iff, faults_eq_nil_iff]
  refine ⟨hvalid, fun r => ⟨fun h => ?_, fun ⟨h, hdescribes⟩ => ?_⟩, fun err => ?_⟩
  · exact ⟨hvalid.mp ⟨r, h⟩, hscreens.of_ok h⟩
  · obtain ⟨r', hr'⟩ := hvalid.mpr h
    rw [hr', hdescribes.unique (hscreens.of_ok hr')]
  · rw [hscreens.error_iff, head?_faults]

-- names are not looked at as long as an entry is invalid, and the category comes before the message
example :
    load {
      namespaceRules := [{ name := "no-system", outer := "Company", forbidden := "System" }]
      usageRules := [{ name := "no-system", category := "type" },
        { name := "no-system", category := "any", descriptor := { message := some "" } }] } =
      .error (.unknownCategory "usage-rule[1].category" "any") := by
  decide +kernel

end RuleDocument

end UsagePolicy
