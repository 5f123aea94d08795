import Mathlib.Data.List.DropRight
import UsagePolicy.Proofs.Registry.Loading
import UsagePolicy.Proofs.Reporting

/-! Asking for the id of a rule. A list of ids is cut at its commas, and blanks around its entries do
not count; the loader takes ids as they are, as long as there is more to them than blanks. So an id
can be asked for if it has no comma in it and no blank at its ends. Main result: for the rules of a
loaded document these are just the ids that can be, and then a report keeps all diagnostics with
this id and no others, up to the case of letters. -/
namespace UsagePolicy

/-! ### Entries of a list -/

namespace Text

/-- An entry between separators is a part of the text, without a separator in it. -/
theorem infix_of_mem_splitOn {separator : Char} {p cs : List Char} (h : p ∈ cs.splitOn separator) :
    p <:+: cs ∧ separator ∉ p := by
  by_cases hmem : separator ∈ cs
  · obtain ⟨before, after, rfl⟩ := List.append_of_mem hmem
    rw [List.splitOn_append_cons_self, List.mem_append] at h
    rcases h with h | h
    · obtain ⟨hpart, hfree⟩ := infix_of_mem_splitOn h
      exact ⟨hpart.trans (List.prefix_append before _).isInfix, hfree⟩
    · obtain ⟨hpart, hfree⟩ := infix_of_mem_splitOn h
      refine ⟨hpart.trans (List.IsSuffix.isInfix ?_), hfree⟩
      exact (List.suffix_cons separator after).trans (List.suffix_append before _)
  · rw [List.splitOn_eq_singleton hmem, List.mem_singleton] at h
    rw [h]
    exact ⟨List.infix_rfl, hmem⟩
termination_by cs.length
decreasing_by all_goals subst_vars; simp only [List.length_append, List.length_cons]; omega

theorem trim_isInfix (cs : List Char) : trim cs <:+: cs := by
  have hstart : trimStart cs <:+: cs := (List.dropWhile_suffix isBlank).isInfix
  exact (List.rdropWhile_prefix isBlank (trimStart cs)).isInfix.trans hstart

/-- Trimming leaves a text as it is if there is no blank at its ends. -/
theorem trim_eq_self_iff {cs : List Char} :
    trim cs = cs ↔ (∀ c ∈ cs.head?, ¬ isBlank c) ∧ ∀ c ∈ cs.getLast?, ¬ isBlank c := by
  have hstart : trimStart cs = cs ↔ ∀ c ∈ cs.head?, ¬ isBlank c := by
    rw [trimStart, List.dropWhile_eq_self_iff]
    cases cs <;> simp
  have hend : trimEnd cs = cs ↔ ∀ c ∈ cs.getLast?, ¬ isBlank c := by
    refine Iff.trans List.rdropWhile_eq_self_iff ?_
    cases cs using List.reverseRecOn <;> simp
  rw [← hstart, ← hend]
  constructor
  · intro h
    -- what is lost at the start is not there at the end
    have hkept : trimStart cs = cs := by
      refine (List.dropWhile_suffix isBlank).eq_of_length_le ?_
      calc cs.length = (trim cs).length := by rw [h]
        _ ≤ (trimStart cs).length := (List.rdropWhile_prefix isBlank (trimStart cs)).length_le
    refine ⟨hkept, ?_⟩
    rwa [trim, hkept] at h
  · rintro ⟨hkept, h⟩
    rw [trim, hkept, h]

theorem length_eq_of_sameLetters {a b : String} (h : sameLetters a b) :
    a.toList.length = b.toList.length := by
  have hlower : lower a = lower b := by simpa [sameLetters] using h
  simpa [lower] using congrArg (fun s : String => s.toList.length) hlower

end Text

namespace Cli

/-! ### Ids that a list can name -/

/-- Whether an id is the one entry of the list that consists of it. -/
structure Listable (id : String) : Prop where
  no_comma : ',' ∉ id.toList
  no_blank_before : ∀ c ∈ id.toList.head?, ¬ Text.isBlank c
  no_blank_after : ∀ c ∈ id.toList.getLast?, ¬ Text.isBlank c

variable {id x : String}

theorem listable_iff : Listable id ↔ ',' ∉ id.toList ∧ Text.trim id.toList = id.toList := by
  rw [Text.trim_eq_self_iff]
  exact ⟨fun ⟨hcomma, hbefore, hafter⟩ => ⟨hcomma, hbefore, hafter⟩,
    fun ⟨hcomma, hbefore, hafter⟩ => ⟨hcomma, hbefore, hafter⟩⟩

instance : Decidable (Listable id) := decidable_of_iff _ listable_iff.symm

theorem Listable.asks_iff (h : Listable id) (hid : NonBlank id) :
    Asks (some id) x ↔ Text.sameLetters x id := by
  obtain ⟨hcomma, htrim⟩ := listable_iff.mp h
  have hne : id.toList ≠ [] := by
    obtain ⟨c, hc, -⟩ := hid
    exact List.ne_nil_of_mem hc
  simp [Asks, List.splitOn_eq_singleton hcomma, htrim, hne]

/-- An entry that has the letters of the whole list is the whole list. -/
theorem Asks.listable (h : Asks (some id) x) (hx : Text.sameLetters x id) : Listable id := by
  obtain ⟨entry, hentry, -, hletters⟩ := h id rfl
  obtain ⟨hpart, hcomma⟩ := Text.infix_of_mem_splitOn hentry
  have hlength : (Text.trim entry).length = id.toList.length := by
    rw [← Text.length_eq_of_sameLetters hx, Text.length_eq_of_sameLetters hletters,
      String.toList_ofList]
  have hwhole : Text.trim entry = id.toList :=
    ((Text.trim_isInfix entry).trans hpart).eq_of_length hlength
  have heq : entry = id.toList := by
    refine hpart.eq_of_length (le_antisymm hpart.length_le ?_)
    rw [← hwhole]
    exact (Text.trim_isInfix entry).length_le
  rw [heq] at hcomma hwhole
  exact listable_iff.mpr ⟨hcomma, hwhole⟩

/-- Whether asking for an id keeps all diagnostics of a report with this id, and only those with its
letters. -/
structure Selects (id : String) (r : Report) : Prop where
  keeps : ∀ d ∈ r.diagnostics, d.id = id → d ∈ (selected (some id) r).diagnostics
  only : ∀ d ∈ (selected (some id) r).diagnostics, Text.sameLetters d.id id

theorem Listable.selected_eq (h : Listable id) (hid : NonBlank id) (r : Report) :
    selected (some id) r =
      { r with diagnostics := r.diagnostics.filter fun d => Text.sameLetters d.id id } := by
  refine Report.ext ?_ rfl
  simp only [selected_diagnostics, h.asks_iff hid, Bool.decide_eq_true]

theorem listable_of_mem_selected {r : Report} {d : Diagnostic}
    (hd : d ∈ (selected (some id) r).diagnostics) (hletters : Text.sameLetters d.id id) :
    Listable id := by
  rw [selected_diagnostics, List.mem_filter, decide_eq_true_eq] at hd
  exact hd.2.listable hletters

theorem forall_selects_iff (hid : NonBlank id) : (∀ r, Selects id r) ↔ Listable id := by
  have hself : Text.sameLetters id id := beq_self_eq_true _
  constructor
  · intro h
    let d : Diagnostic := ⟨id, "", .error, ⟨"", .start 1 1⟩, "", none⟩
    have hd := (h { diagnostics := [d] }).keeps d List.mem_cons_self rfl
    exact listable_of_mem_selected hd hself
  · intro h r
    constructor
    · rintro d hd rfl
      rw [h.selected_eq hid, List.mem_filter]
      exact ⟨hd, hself⟩
    · intro d hd
      rw [h.selected_eq hid, List.mem_filter] at hd
      exact hd.2

end Cli

/-! ### Ids of rules -/

theorem Category.nonBlank_id (c : Category) : NonBlank c.id := by
  rw [nonBlank_iff]
  cases c <;> decide

theorem DescriptorEntry.Describes.nonBlank_id {e : DescriptorEntry} {category : Category}
    {d : Descriptor} (h : e.Describes category d) (he : e.Valid) : NonBlank d.id := by
  rw [h.id]
  cases hid : e.id with
  | none => exact category.nonBlank_id
  | some id => exact he.id id hid

/-- The descriptors of the rules, namespace rules first. -/
def Registry.descriptors (r : Registry) : List Descriptor :=
  r.namespaceRules.map (·.descriptor) ++ r.usageRules.map (·.descriptor)

/-- The loader lets no id through that is all blank. -/
theorem RuleDocument.nonBlank_id_of_load {d : RuleDocument} {r : Registry} (h : d.load = .ok r) :
    ∀ x ∈ r.descriptors, NonBlank x.id := by
  have hscreens := Screens.documentLoad d
  have hvalid : d.Valid := faults_eq_nil_iff.mp (hscreens.exists_ok_iff.mp ⟨r, h⟩)
  have hdescribes := hscreens.of_ok h
  rw [Registry.descriptors, List.forall_mem_append, List.forall_mem_map, List.forall_mem_map]
  constructor
  · exact forall_mem_of_forall₂ hdescribes.namespaceRules fun e he rule hrule =>
      hrule.descriptor.nonBlank_id (hvalid.namespaceRules e he).descriptor
  · exact forall_mem_of_forall₂ hdescribes.usageRules fun e he rule hrule =>
      hrule.descriptor.nonBlank_id (hvalid.usageRules e he).descriptor

namespace Cli

/-! ### Asking for an id in a run -/

theorem toList_only (id : String) :
    ("--only=" ++ id).toList = '-' :: '-' :: 'o' :: 'n' :: 'l' :: 'y' :: '=' :: id.toList := by
  rw [String.toList_append]
  rfl

theorem readSwitch_only (id : String) : readSwitch Arguments.checkSwitches {} ("--only=" ++ id) =
    .ok ({ given := [("only", id)] }, none) := by
  have hspan : ('o' :: 'n' :: 'l' :: 'y' :: '=' :: id.toList).span (· ≠ '=') =
      (['o', 'n', 'l', 'y'], '=' :: id.toList) := by
    simp [List.span_eq_takeWhile_dropWhile]
  have hadd : ({} : Reading).addValue { long := "only", effect := .value (fun _ => true) false } id =
      .ok { given := [("only", id)] } := rfl
  simp only [readSwitch, toList_only, readLong, hspan]
  simp [Arguments.checkSwitches, hadd, Except.map]

/-- A text in one word with the switch is taken as it is, also with a dash at its start. -/
theorem run_only (e : Environment) (id : String) :
    run e ["check", "--only=" ++ id] = check e none "." .text (some id) [] := by
  have hends : "--only=" ++ id ≠ "--" := ne_of_apply_ne String.toList (by simp)
  have hdash : "--only=" ++ id ≠ "-" := ne_of_apply_ne String.toList (by simp)
  have hswitch : isSwitch ("--only=" ++ id) := by simp [isSwitch, Text.startsWith, hdash]
  have hread : read Arguments.checkSwitches Arguments.checkWord {} ["--only=" ++ id] =
      .ok ({ given := [("only", id)] }, []) := by
    rw [read, if_neg hends, if_pos hswitch, readSwitch_only]
    rfl
  have hcommand : Arguments.readCommand "check" ["--only=" ++ id] =
      .ok (.check "." .text (some id) [], none) := by
    rw [Arguments.readCommand, hread]
    rfl
  have hparse : Arguments.parse ["check", "--only=" ++ id] =
      (Arguments.readCommand "check" ["--only=" ++ id] >>= fun p =>
        .ok { config := p.2.or none, command := p.1 }) := rfl
  rw [hcommand] at hparse
  rw [run, hparse]
  rfl

/-! ### Loaded ids -/

/-- An id of a loaded rule can be asked for if it has no comma and no blank at its ends: then a report
keeps just the diagnostics with its letters. Otherwise it keeps none of them. A run gives the text of
the switch to the check as it is. -/
theorem loaded_ids_selectable {document : RuleDocument} {registry : Registry}
    (h : document.load = .ok registry) {x : Descriptor} (hx : x ∈ registry.descriptors) :
    ((∀ r, Selects x.id r) ↔ Listable x.id) ∧
    (Listable x.id → ∀ r : Report, selected (some x.id) r =
      { r with diagnostics := r.diagnostics.filter fun d => Text.sameLetters d.id x.id }) ∧
    (¬ Listable x.id → ∀ r : Report, ∀ d ∈ (selected (some x.id) r).diagnostics,
      ¬ Text.sameLetters d.id x.id) ∧
    ∀ e : Environment,
      run e ["check", "--only=" ++ x.id] = check e none "." .text (some x.id) [] := by
  have hid : NonBlank x.id := RuleDocument.nonBlank_id_of_load h x hx
  exact ⟨forall_selects_iff hid, fun hlistable => hlistable.selected_eq hid,
    fun hlistable r d hd hletters => hlistable (listable_of_mem_selected hd hletters),
    fun e => run_only e x.id⟩

/-- A rule that keeps a library out of the company's code, with an id of its own. -/
def libraryRule (library id : String) : NamespaceEntry where
  name := library
  outer := "Company"
  forbidden := library
  descriptor := { id := some id }

/-- Rules whose ids have a blank inside, a comma, and a blank in front. -/
def libraryRules : RuleDocument where
  namespaceRules := [libraryRule "System.IO" "IO 1", libraryRule "System.Net" "IO1,IO2",
    libraryRule "System.Xml" " IO3"]

def libraryRegistry : Registry where
  namespaceRules := libraryRules.namespaceRules.map fun e =>
    { name := e.name
      outer := e.outer
      forbidden := e.forbidden
      descriptor := { Descriptor.ofCategory .nameSpace with id := e.descriptor.id.getD "" } }

/-- A namespace with all three libraries in it. -/
def libraryTree : Tree where
  file := "Libraries.cs"
  root := {
    kind := .nameSpace "Company" (.start 1 11) none
    children := [
      { kind := .nameSpace "System.IO" (.start 2 13) none },
      { kind := .nameSpace "System.Net" (.start 3 13) none },
      { kind := .nameSpace "System.Xml" (.start 4 13) none }] }

/-- What these rules say about this tree. -/
def libraryReport : Report where
  diagnostics := (⟨libraryRegistry, 4⟩ : Engine).diagnostics libraryTree
  filesChecked := 1

/-- An id with a blank inside is asked for as any other. -/
theorem loaded_ids_selectable_blank :
    libraryRules.load = .ok libraryRegistry ∧
    libraryReport.diagnostics.map (·.id) = ["IO 1", "IO1,IO2", " IO3"] ∧
    Selects "IO 1" libraryReport ∧
    (selected (some "IO 1") libraryReport).diagnostics.map (·.id) = ["IO 1"] := by
  have hload : libraryRules.load = .ok libraryRegistry := by decide +kernel
  obtain ⟨hselects, hselected, -⟩ := loaded_ids_selectable hload
    (x := { Descriptor.ofCategory .nameSpace with id := "IO 1" }) (by decide +kernel)
  have hlistable : Listable "IO 1" := by decide +kernel
  refine ⟨hload, by decide +kernel, hselects.mpr hlistable libraryReport, ?_⟩
  rw [hselected hlistable]
  decide +kernel

/-- The loader takes ids that cannot be asked for: with a comma in it an id is two others, and blanks
in front of it are lost. -/
theorem loaded_ids_unselectable :
    libraryRules.load = .ok libraryRegistry ∧
    libraryRegistry.descriptors.map (·.id) = ["IO 1", "IO1,IO2", " IO3"] ∧
    libraryReport.diagnostics.map (·.id) = ["IO 1", "IO1,IO2", " IO3"] ∧
    (selected (some "IO1,IO2") libraryReport).diagnostics = [] ∧ ¬ Selects "IO1,IO2" libraryReport ∧
    (selected (some " IO3") libraryReport).diagnostics = [] ∧ ¬ Selects " IO3" libraryReport := by
  have hids : libraryReport.diagnostics.map (·.id) = ["IO 1", "IO1,IO2", " IO3"] := by decide +kernel
  have hlost {id : String} (hid : id ∈ ["IO 1", "IO1,IO2", " IO3"])
      (hnone : (selected (some id) libraryReport).diagnostics = []) : ¬ Selects id libraryReport := by
    intro h
    rw [← hids] at hid
    obtain ⟨d, hd, rfl⟩ := List.mem_map.mp hid
    have hkept := h.keeps d hd rfl
    rw [hnone] at hkept
    exact List.not_mem_nil hkept
  have hcomma : (selected (some "IO1,IO2") libraryReport).diagnostics = [] := by decide +kernel
  have hblank : (selected (some " IO3") libraryReport).diagnostics = [] := by decide +kernel
  exact ⟨by decide +kernel, by decide +kernel, hids, hcomma, hlost (by simp) hcomma, hblank,
    hlost (by simp) hblank⟩

end Cli

end UsagePolicy
