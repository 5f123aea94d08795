import UsagePolicy.Cli.Run
import UsagePolicy.Proofs.Analysis
import UsagePolicy.Proofs.Documents.Texts
import UsagePolicy.Proofs.Failure

/-! What a check reports and how it exits. The engine's diagnostics pass through the configuration,
tree by tree, and then through the ids that are asked for; both look at ids alone, and neither
changes one, so it does not matter which comes first. Main result: a check reports the diagnostics of
the analyzed trees that are enabled and asked for, with the severities of the configuration, and it
exits with 1 exactly if one of these is an error. -/
namespace UsagePolicy

/-! ### Overrides -/

namespace Config

/-- Diagnostics are reported unless the entry for their id says otherwise. -/
theorem isEnabled_iff (c : Config) {id : String} :
    c.isEnabled id ↔ ∀ category ∈ c.categories.lookup id, category.enabled ≠ some false := by
  unfold isEnabled
  cases c.categories.lookup id with
  | none => simp
  | some category =>
    obtain ⟨enabled, severity⟩ := category
    cases enabled <;> simp

/-- The entry for the id of a diagnostic may give it a severity; nothing else changes. -/
theorem override_eq (c : Config) (d : Diagnostic) : c.override d =
    { d with severity := match c.categories.lookup d.id with
      | some { severity := some severity, .. } => severity
      | _ => d.severity } := by
  unfold override severity?
  cases c.categories.lookup d.id with
  | none => rfl
  | some category =>
    obtain ⟨enabled, severity⟩ := category
    cases severity <;> rfl

theorem adjust_adjust (c : Config) (ds : List Diagnostic) : c.adjust (c.adjust ds) = c.adjust ds := by
  simp only [adjust, List.filter_map, List.map_map, List.filter_filter]
  congr 1
  · funext d
    exact c.override_override d
  · refine List.filter_congr fun d _ => ?_
    simp

theorem adjust_flatMap {α : Type} (c : Config) (f : α → List Diagnostic) (as : List α) :
    as.flatMap (fun a => c.adjust (f a)) = c.adjust (as.flatMap f) := by
  simp only [adjust, List.filter_flatMap, List.map_flatMap]

/-- What looks at ids alone may be done before or after the adjustment. -/
theorem filter_adjust (c : Config) (p : String → Bool) (ds : List Diagnostic) :
    (c.adjust ds).filter (fun d => p d.id) = c.adjust (ds.filter fun d => p d.id) := by
  simp only [adjust, List.filter_map, List.filter_filter]
  congr 1
  refine List.filter_congr fun d _ => ?_
  exact Bool.and_comm _ _

end Config

/-! ### Ids that are asked for -/

theorem Text.pieces_eq_splitOn (separator : Char) (cs : List Char) :
    Text.pieces separator cs = cs.splitOn separator := by
  induction cs with
  | nil => rfl
  | cons c cs ih =>
    rw [Text.pieces, ih, List.splitOn_cons_eq_if_modifyHead]
    by_cases hc : c = separator
    · simp [hc]
    · rw [if_neg hc, if_neg (by simpa using hc)]
      cases h : cs.splitOn separator with
      | nil => exact absurd h (List.splitOn_ne_nil separator cs)
      | cons p ps => rfl

namespace Cli

/-- Whether a list of ids asks for one: if there is a list, the id is, up to the case of letters, one
of the entries between its commas that are more than blanks. -/
def Asks (only : Option String) (id : String) : Prop :=
  ∀ ids, only = some ids → ∃ entry ∈ ids.toList.splitOn ',',
    Text.trim entry ≠ [] ∧ Text.sameLetters id (String.ofList (Text.trim entry))

theorem any_idList (ids id : String) :
    (idList ids).any (Text.sameLetters id) ↔ Asks (some ids) id := by
  simp [idList, Asks, Text.pieces_eq_splitOn]

instance (only : Option String) (id : String) : Decidable (Asks only id) :=
  match only with
  | none => .isTrue nofun
  | some ids => decidable_of_iff _ (any_idList ids id)

theorem selected_diagnostics (only : Option String) (r : Report) :
    (selected only r).diagnostics = r.diagnostics.filter fun d => Asks only d.id := by
  cases only with
  | none => simp [selected, Asks]
  | some ids =>
    simp only [selected, Report.only]
    refine List.filter_congr fun d _ => ?_
    rw [Bool.eq_iff_iff, decide_eq_true_eq, any_idList]

/-- The report on trees that a configuration and a list of ids ask for: the diagnostics of the engine
for the trees that are checked, less those that are disabled or not asked for, with the severities of
the configuration. -/
def reported (config : Config) (engine : Engine) (trees : List Tree) (only : Option String) :
    Report where
  diagnostics := ((checked.flatMap engine.diagnostics).filter fun d : Diagnostic =>
      (∀ category ∈ config.categories.lookup d.id, category.enabled ≠ some false) ∧
        Asks only d.id).map fun d =>
    { d with severity := match config.categories.lookup d.id with
      | some { severity := some severity, .. } => severity
      | _ => d.severity }
  filesChecked := checked.length
where
  checked : List Tree := trees.filter fun t => config.analyzer.analyzeGenerated ∨ ¬ t.isGenerated

theorem selected_analyzeTrees (a : Analyzer) (trees : List Tree) (only : Option String) :
    selected only (a.analyzeTrees trees) = reported a.config a.engine trees only := by
  have hchecked : trees.filter a.covers = reported.checked a.config trees := by
    refine List.filter_congr fun t _ => ?_
    simp [Analyzer.covers]
  have hfiles : (selected only (a.analyzeTrees trees)).filesChecked =
      (reported.checked a.config trees).length := by
    rw [← hchecked, ← List.countP_eq_length_filter, Analyzer.analyzeTrees_eq]
    cases only <;> rfl
  refine Report.ext ?_ hfiles
  rw [selected_diagnostics, Analyzer.analyzeTrees_eq, hchecked]
  -- the configuration is applied tree by tree, which comes to applying it once to all diagnostics
  simp only [Config.adjust_flatMap]
  rw [Config.filter_adjust _ fun id => Asks only id, Config.adjust, List.filter_filter, reported]
  simp only [← Config.isEnabled_iff, ← Config.override_eq, Bool.decide_and, Bool.decide_eq_true]

end Cli

/-! ### Errors -/

theorem Report.hasErrors_iff {r : Report} :
    r.hasErrors ↔ ∃ d ∈ r.diagnostics, d.severity = .error := by
  simp [hasErrors, List.any_eq_true]

theorem Report.count_pos_iff {r : Report} {s : Severity} :
    0 < r.count s ↔ ∃ d ∈ r.diagnostics, d.severity = s := by
  simp [count, List.countP_pos_iff]

/-! ### Analyzers -/

/-- An analyzer is made if its globs make sense. -/
theorem Analyzer.make_eq_ok_iff {cwd : String} {o : AnalyzerOptions} {a : Analyzer} :
    Analyzer.make cwd o = .ok a ↔ ∃ excludes,
      (o.excludes ++ o.config.analyzer.exclude).mapM Glob.parse = .ok excludes ∧ a = {
        root := Path.join cwd (o.root.getD o.config.analyzer.root)
        engine := { registry := o.registry, maxDepth := o.config.analyzer.maxGenericDepth }
        excludes
        parallelism := o.parallelism.or o.config.analyzer.parallelism
        config := o.config
        strict := o.strict } := by
  rw [make, bind_eq_ok_iff]
  simp only [pure, Except.pure, Except.ok.injEq, eq_comm]

namespace Cli

/-- A report for people ends with a line that counts the errors. -/
theorem exists_render_text (r : Report) : ∃ lines color rest, render .text r = unlines
    (lines ++ [colored color ("Found " ++ toString (r.count .error) ++ " error(s)" ++ rest)]) := by
  refine ⟨r.diagnostics.flatMap diagnosticLines,
    if 0 < r.count .error then "31" else if 0 < r.count .warning then "33" else "32",
    ", " ++ toString (r.count .warning) ++ " warning(s), " ++ toString (r.count .info) ++
      " info(s) in " ++ toString r.filesChecked ++ " file(s)", ?_⟩
  have hcomma : " error(s), " = " error(s)" ++ ", " := rfl
  simp only [render, summary, String.append_assoc, hcomma]

/-! ### Runs -/

/-- The trees of the documents below a path, in the order of their paths, less what globs leave out. -/
def Finds (e : Environment) (path : String) (globs : List String) (trees : List Tree) : Prop :=
  ∃ excludes found, globs.mapM Glob.parse = .ok excludes ∧
    Discovery.documents? e.disk e.cwd (Ignore.userRules e.read? e.home)
      (Path.join e.cwdPath path) excludes = some found ∧
    trees = Document.loaded (Document.sorted (found.map fun f => Document.read f.1 f.2))

/-- What a check works on: the configuration and the rules that it loads, and the trees it finds. -/
structure Checks (e : Environment) (asked : Option String) (path : String) (exclude : List String)
    (config : Config) (registry : Registry) (trees : List Tree) : Prop where
  loads : loadConfig e (configPath? e path asked) = .ok (config, registry)
  finds : Finds e path (exclude ++ config.analyzer.exclude) trees

/-- A run that ends with a report: its exit tells whether there are errors. -/
structure Outcome.Announces (o : Outcome) (format : Format) (r : Report) : Prop where
  succeeds : o.failure = none
  output_eq : o.output = render format r
  exit_eq_one_iff : o.exit = 1 ↔ ∃ d ∈ r.diagnostics, d.severity = .error
  exit_eq_zero_iff : o.exit = 0 ↔ ∀ d ∈ r.diagnostics, d.severity ≠ .error
  exit_eq_one_iff_count_pos : o.exit = 1 ↔ 0 < r.count .error
  /-- The last line for people says how many errors there are. -/
  counts : format = .text → ∃ lines color rest, o.output = unlines
    (lines ++ [colored color ("Found " ++ toString (r.count .error) ++ " error(s)" ++ rest)])

theorem outcome_announces (format : Format) (r : Report) : Outcome.Announces
    { exit := if r.hasErrors then 1 else 0, output := render format r } format r := by
  have hexit : (if r.hasErrors then 1 else 0) = 1 ↔ ∃ d ∈ r.diagnostics, d.severity = .error := by
    rw [← Report.hasErrors_iff]
    cases r.hasErrors <;> simp
  refine ⟨rfl, rfl, hexit, ?_, ?_, ?_⟩
  · have hzero : (if r.hasErrors then 1 else 0) = 0 ↔ ¬ (if r.hasErrors then 1 else 0) = 1 := by
      cases r.hasErrors <;> simp
    rw [hzero, hexit]
    push Not
    rfl
  · rw [Report.count_pos_iff]
    exact hexit
  · rintro rfl
    exact exists_render_text r

variable {e : Environment} {asked : Option String} {path : String} {exclude : List String}

/-- A report comes of the trees that are found; globs that make no sense or a missing root fail. -/
theorem checkReport_eq_ok_iff {config : Config} {registry : Registry} {report : Report} :
    checkReport e path exclude config registry = .ok report ↔
      ∃ trees, Finds e path (exclude ++ config.analyzer.exclude) trees ∧
        report = reported config ⟨registry, config.analyzer.maxGenericDepth⟩ trees none := by
  have hsteps : checkReport e path exclude config registry = .ok report ↔ ∃ a,
      Analyzer.make e.cwdPath { root := some path, registry, excludes := exclude, config } = .ok a ∧
        a.analyze e.disk e.cwd (Ignore.userRules e.read? e.home) = .ok report := by
    unfold checkReport
    cases Analyzer.make e.cwdPath
        { root := some path, registry, excludes := exclude, config } with
    | error message => simp
    | ok a => cases h : a.analyze e.disk e.cwd (Ignore.userRules e.read? e.home) <;> simp [h]
  rw [hsteps]
  constructor
  · rintro ⟨a, hmake, hanalyze⟩
    obtain ⟨excludes, hexcludes, rfl⟩ := Analyzer.make_eq_ok_iff.mp hmake
    obtain ⟨found, hfound, rfl⟩ := (Analyzer.analyze_eq_ok_iff _ rfl).mp hanalyze
    exact ⟨_, ⟨excludes, found, hexcludes, hfound, rfl⟩, selected_analyzeTrees _ _ none⟩
  · rintro ⟨trees, ⟨excludes, found, hexcludes, hfound, rfl⟩, rfl⟩
    refine ⟨_, Analyzer.make_eq_ok_iff.mpr ⟨excludes, hexcludes, rfl⟩,
      (Analyzer.analyze_eq_ok_iff _ rfl).mpr ⟨found, hfound, ?_⟩⟩
    symm
    exact selected_analyzeTrees _ _ none

theorem selected_reported (config : Config) (engine : Engine) (trees : List Tree)
    (only : Option String) :
    selected only (reported config engine trees none) = reported config engine trees only := by
  have h := selected_analyzeTrees { root := "", engine, config } trees
  rw [← h none, ← h only]
  rfl

/-- What a check comes to when there is something to work on. -/
theorem Checks.check_eq {config : Config} {registry : Registry} {trees : List Tree}
    (h : Checks e asked path exclude config registry trees) (format : Format)
    (only : Option String) {r : Report}
    (hr : r = reported config ⟨registry, config.analyzer.maxGenericDepth⟩ trees only) :
    check e asked path format only exclude =
      { exit := if r.hasErrors then 1 else 0, output := render format r } := by
  have hreport : checkReport e path exclude config registry =
      .ok (reported config ⟨registry, config.analyzer.maxGenericDepth⟩ trees none) :=
    checkReport_eq_ok_iff.mpr ⟨trees, h.finds, rfl⟩
  simp only [check, h.loads, bind, Except.bind, hreport, selected_reported, hr]

/-- A check succeeds only if there is something to work on. -/
theorem exists_checks {format : Format} {only : Option String}
    (h : (check e asked path format only exclude).failure = none) :
    ∃ config registry trees, Checks e asked path exclude config registry trees := by
  cases hloads : loadConfig e (configPath? e path asked) with
  | error message => simp [check, hloads, bind, Except.bind, Outcome.failed] at h
  | ok loaded =>
    obtain ⟨config, registry⟩ := loaded
    cases hreport : checkReport e path exclude config registry with
    | error message => simp [check, hloads, hreport, bind, Except.bind, Outcome.failed] at h
    | ok report =>
      obtain ⟨trees, hfinds, -⟩ := checkReport_eq_ok_iff.mp hreport
      exact ⟨config, registry, trees, hloads, hfinds⟩

/-- A report holds, in order, the diagnostics that are enabled and asked for, with the severities of
the configuration. These may be given at any time, before the choice of ids or after it, and again.
A check that succeeds announces such a report, and its exit tells whether there are errors in it. -/
theorem check_announces (only : Option String) :
    (∀ (a : Analyzer) (trees : List Tree),
      selected only (a.analyzeTrees trees) = reported a.config a.engine trees only) ∧
    (∀ (c : Config) (ds : List Diagnostic), c.adjust (c.adjust ds) = c.adjust ds) ∧
    (∀ (c : Config) (r : Report),
      (selected only { r with diagnostics := c.adjust r.diagnostics }).diagnostics =
        c.adjust (selected only r).diagnostics) ∧
    ∀ (e : Environment) (asked : Option String) (path : String) (format : Format)
      (exclude : List String),
      ((check e asked path format only exclude).failure = none ↔
        ∃ config registry trees, Checks e asked path exclude config registry trees) ∧
      ∀ config registry trees, Checks e asked path exclude config registry trees →
        (check e asked path format only exclude).Announces format
          (reported config ⟨registry, config.analyzer.maxGenericDepth⟩ trees only) := by
  refine ⟨fun a trees => selected_analyzeTrees a trees only, Config.adjust_adjust, ?_, ?_⟩
  · intro c r
    rw [selected_diagnostics, selected_diagnostics]
    exact c.filter_adjust (fun id => Asks only id) r.diagnostics
  · intro e asked path format exclude
    have hannounces (config registry trees) (h : Checks e asked path exclude config registry trees) :
        (check e asked path format only exclude).Announces format
          (reported config ⟨registry, config.analyzer.maxGenericDepth⟩ trees only) := by
      rw [h.check_eq format only rfl]
      exact outcome_announces format _
    refine ⟨⟨exists_checks, ?_⟩, hannounces⟩
    rintro ⟨config, registry, trees, h⟩
    exact (hannounces config registry trees h).succeeds

/-! ### A project -/

/-- A document that holds a tree on one line is read as this tree. -/
theorem read_compact (path : List String) {t : Tree} (h : t.toJson.nesting < 128) :
    Document.read path t.toJson.compact.toUTF8 = ⟨path, .ok t⟩ := by
  have hutf8 : String.fromUTF8? t.toJson.compact.toUTF8 = some t.toJson.compact :=
    dif_pos t.toJson.compact.isValidUTF8
  have htree := t.ofText?_spread .oneLine (Json.Layout.spread_oneLine _ 0).symm
  rw [if_pos h] at htree
  simp only [Document.read, hutf8, htree]

def productTree : Tree where
  file := "Product.cs"
  root := {
    kind := .nameSpace "Company.Product" (.start 1 11) none
    children := [{ kind := .nameSpace "System.IO" (.start 2 13) none }] }

/-- A project with this tree, where a namespace in the wrong place is not taken for an error. -/
def productProject : Environment where
  disk := .directory [
    ("usage-guard.toml", .file "preset=\"sample\"\ncategories.NS001.severity=\"info\"".toUTF8),
    ("product.ast.json", .file productTree.toJson.compact.toUTF8)]
  cwd := []

def productConfig : Config where
  preset := some "sample"
  categories := [("NS001", { severity := some .info })]

theorem checks_product :
    Checks productProject none "." [] productConfig Preset.sample.registry [productTree] := by
  constructor
  · decide +kernel
  · -- the text is never evaluated: it is read back by the theorem on documents
    refine ⟨[], [(["product.ast.json"], productTree.toJson.compact.toUTF8)], rfl, rfl, ?_⟩
    have hread := read_compact ["product.ast.json"] (t := productTree) (by decide +kernel)
    simp only [Document.sorted, List.map_cons, List.map_nil, List.mergeSort_singleton, hread]
    rfl

/-- What the preset takes for an error is reported as an information, and the check exits with 0. -/
theorem check_announces_product :
    Checks productProject none "." [] productConfig Preset.sample.registry [productTree] ∧
    ((⟨Preset.sample.registry, 32⟩ : Engine).diagnostics productTree).map (·.severity) = [.error] ∧
    (reported productConfig ⟨Preset.sample.registry, 32⟩ [productTree]
      (some " ns001,")).diagnostics.map (·.severity) = [.info] ∧
    (check productProject none "." .text (some " ns001,") []).exit = 0 := by
  obtain ⟨-, -, -, hruns⟩ := check_announces (some " ns001,")
  have hannounces := (hruns productProject none "." .text []).2 _ _ _ checks_product
  refine ⟨checks_product, by decide +kernel, by decide +kernel, ?_⟩
  exact hannounces.exit_eq_zero_iff.mpr (by decide +kernel)

end Cli

end UsagePolicy
