import Mathlib.Data.List.Lex
import Mathlib.Data.List.Nodup
import Mathlib.Data.List.Rotate
import Mathlib.Data.String.Basic
import UsagePolicy.Analyzer
import UsagePolicy.Preset

/-! The analysis of a directory against the analysis of trees in memory. Documents are found in some
order, sorted by their paths and checked by workers, and their outcomes are put together one by one;
trees in memory are checked just as they come. Main result: whatever the order and the workers, the
analysis of documents is that of their trees in ascending order of paths, and if failures count, it
fails with the first document in that order that cannot be read, and names it by its path. -/
namespace UsagePolicy

/-! ### The order of paths -/

namespace Path

/-- Paths are ordered like words, with components for letters. -/
theorem precedes_iff_not_lt {a b : List String} : precedes a b = true ↔ ¬ b < a := by
  induction a generalizing b with
  | nil => simp [precedes]
  | cons x a ih =>
    cases b with
    | nil => simp [precedes]
    | cons y b =>
      have hirrefl := lt_irrefl x
      have hasymm := lt_asymm (a := x) (b := y)
      have htotal := lt_trichotomy x y
      rw [precedes, List.cons_lt_cons_iff]
      simp only [Bool.or_eq_true, Bool.and_eq_true, decide_eq_true_eq, beq_iff_eq, ih]
      grind

theorem precedes_trans {a b c : List String} (hab : precedes a b) (hbc : precedes b c) :
    precedes a c := by
  rw [precedes_iff_not_lt, not_lt] at *
  exact hab.trans hbc

theorem precedes_total (a b : List String) : precedes a b || precedes b a := by
  rw [Bool.or_eq_true, precedes_iff_not_lt, precedes_iff_not_lt, not_lt, not_lt]
  exact le_total a b

end Path

/-! ### Documents in order -/

namespace Document

/-- Each path comes before all later ones. -/
def Ascending (documents : List Document) : Prop := documents.Pairwise fun x y => x.path < y.path

instance (documents : List Document) : Decidable (Ascending documents) :=
  inferInstanceAs (Decidable (documents.Pairwise _))

/-- The error of a document that cannot be read. -/
def failure? (d : Document) : Option DocumentError :=
  match d.tree with
  | .ok _ => none
  | .error fault => some ⟨d.path, fault⟩

/-- The error names the document itself. -/
theorem failure?_eq_some_iff {d : Document} {e : DocumentError} :
    d.failure? = some e ↔ e.path = d.path ∧ d.tree = .error e.fault := by
  obtain ⟨path, tree⟩ := d
  obtain ⟨path', fault⟩ := e
  cases tree <;> simp [failure?, eq_comm]

theorem isSome_failure?_iff {d : Document} :
    d.failure?.isSome ↔ ∃ fault, d.tree = .error fault := by
  obtain ⟨path, tree⟩ := d
  cases tree <;> simp [failure?]

/-- The trees of the documents that can be read. -/
def loaded (documents : List Document) : List Tree := documents.filterMap fun d => d.tree.toOption

theorem sorted_perm (documents : List Document) : (sorted documents).Perm documents :=
  List.mergeSort_perm documents _

theorem sorted_ascending {documents : List Document}
    (hdistinct : (documents.map Document.path).Nodup) : Ascending (sorted documents) := by
  have hprecedes : (sorted documents).Pairwise fun x y => Path.precedes x.path y.path := by
    refine List.pairwise_mergeSort ?_ ?_ documents
    · intro x y z hxy hyz
      exact Path.precedes_trans hxy hyz
    · intro x y
      exact Path.precedes_total x.path y.path
  have hne : (sorted documents).Pairwise fun x y => x.path ≠ y.path := by
    rw [← List.pairwise_map (f := Document.path) (R := (· ≠ ·))]
    exact ((sorted_perm documents).map Document.path).nodup_iff.mpr hdistinct
  refine (hprecedes.and hne).imp ?_
  rintro x y ⟨hxy, hne⟩
  exact lt_of_le_of_ne (not_lt.mp (Path.precedes_iff_not_lt.mp hxy)) hne

/-- A set of documents has one ascending order. -/
theorem Ascending.eq_of_perm {xs ys : List Document} (hxs : Ascending xs) (hys : Ascending ys)
    (h : xs.Perm ys) : xs = ys := by
  refine List.Perm.eq_of_pairwise ?_ hxs hys h
  intro x y _ _ hxy hyx
  exact absurd hyx (lt_asymm hxy)

theorem sorted_eq_of_perm {listed documents : List Document} (h : listed.Perm documents)
    (hdistinct : (documents.map Document.path).Nodup) : sorted listed = sorted documents := by
  have hlisted : (listed.map Document.path).Nodup :=
    (h.map Document.path).nodup_iff.mpr hdistinct
  refine (sorted_ascending hlisted).eq_of_perm (sorted_ascending hdistinct) ?_
  exact (sorted_perm listed).trans (h.trans (sorted_perm documents).symm)

end Document

/-! ### Trees in memory -/

namespace Analyzer

variable (a : Analyzer)

theorem analyzeTrees_cons (t : Tree) (trees : List Tree) :
    a.analyzeTrees (t :: trees) =
      if a.covers t then a.prepend (a.engine.diagnostics t) (a.analyzeTrees trees)
      else a.analyzeTrees trees := by
  simp only [analyzeTrees, Pool.map_eq_map, List.map_cons, check?]
  by_cases h : a.covers t <;> simp [h]

/-- The report on trees: the adjusted diagnostics of those that are checked, one after the other, and
how many these are. -/
theorem analyzeTrees_eq (trees : List Tree) : a.analyzeTrees trees = {
    diagnostics := (trees.filter a.covers).flatMap fun t => a.config.adjust (a.engine.diagnostics t)
    filesChecked := trees.countP a.covers } := by
  induction trees with
  | nil => simp [analyzeTrees]
  | cons t trees ih =>
    rw [analyzeTrees_cons, ih]
    by_cases h : a.covers t
    · simp [h, prepend]
    · simp [h]

/-! ### Outcomes of documents -/

/-- One step: a tree that is read goes into the report of the others if it is checked. -/
theorem gather_ok {d : Document} {t : Tree} (hd : d.tree = .ok t) (outcomes : List Outcome) :
    a.gather (a.checkDocument d :: outcomes) = (a.gather outcomes).map fun r =>
      if a.covers t then a.prepend (a.engine.diagnostics t) r else r := by
  by_cases h : a.covers t
  · have houtcome : a.checkDocument d = .ok (some (a.engine.diagnostics t)) := by
      simp [checkDocument, hd, check?, h]
    simp [houtcome, gather, h]
  · have houtcome : a.checkDocument d = .ok none := by
      simp [checkDocument, hd, check?, h]
    cases hrest : a.gather outcomes <;> simp [houtcome, gather, h, hrest, Except.map]

/-- One step: a failure is the result or leaves no trace. -/
theorem gather_error {d : Document} {fault : DocumentFault} (hd : d.tree = .error fault)
    (outcomes : List Outcome) : a.gather (a.checkDocument d :: outcomes) =
      if a.strict then .error ⟨d.path, fault⟩ else a.gather outcomes := by
  have houtcome : a.checkDocument d = .error ⟨d.path, fault⟩ := by simp [checkDocument, hd]
  rw [houtcome, gather]

/-- Unless a failure counts, documents are reported on by their trees. -/
theorem gather_eq_ok {documents : List Document}
    (h : a.strict = true → ∀ d ∈ documents, d.failure? = none) :
    a.gather (documents.map a.checkDocument) = .ok (a.analyzeTrees (Document.loaded documents)) := by
  induction documents with
  | nil => simp [gather, Document.loaded, analyzeTrees]
  | cons d documents ih =>
    have hrest := ih fun hstrict x hx => h hstrict x (List.mem_cons_of_mem d hx)
    rw [List.map_cons]
    cases hd : d.tree with
    | ok t =>
      have hloaded : Document.loaded (d :: documents) = t :: Document.loaded documents := by
        simp [Document.loaded, hd, Except.toOption]
      rw [gather_ok a hd, hrest, hloaded, analyzeTrees_cons]
      rfl
    | error fault =>
      -- a failure among the documents leaves only the lenient case
      have hlenient : a.strict = false := by
        by_contra hstrict
        have hnone := h (by simpa using hstrict) d List.mem_cons_self
        simp [Document.failure?, hd] at hnone
      have hloaded : Document.loaded (d :: documents) = Document.loaded documents := by
        simp [Document.loaded, hd, Except.toOption]
      rw [gather_error a hd, hlenient, hloaded]
      exact hrest

/-- If failures count, the first one is the result. -/
theorem gather_eq_error {documents : List Document} {e : DocumentError} (hstrict : a.strict = true)
    (h : documents.findSome? Document.failure? = some e) :
    a.gather (documents.map a.checkDocument) = .error e := by
  induction documents with
  | nil => cases h
  | cons d documents ih =>
    rw [List.map_cons]
    cases hd : d.tree with
    | ok t =>
      have hrest : documents.findSome? Document.failure? = some e := by
        simpa [List.findSome?_cons, Document.failure?, hd] using h
      rw [gather_ok a hd, ih hrest]
      rfl
    | error fault =>
      have he : ⟨d.path, fault⟩ = e := by simpa [List.findSome?_cons, Document.failure?, hd] using h
      rw [gather_error a hd, hstrict, he]
      rfl

/-! ### Directories -/

/-- What the analysis of documents in a given order has to come to. -/
structure Reflects (a : Analyzer) (ordered : List Document) (result : Except DocumentError Report) :
    Prop where
  lenient : a.strict = false → result = .ok (a.analyzeTrees (Document.loaded ordered))
  sound : (∀ d ∈ ordered, d.failure? = none) →
    result = .ok (a.analyzeTrees (Document.loaded ordered))
  fails_iff : a.strict = true →
    ((∃ e, result = .error e) ↔ ∃ d ∈ ordered, ∃ e, d.tree = .error e)
  /-- The error is that of the first document that cannot be read, and it has the path of this
  document. -/
  first : a.strict = true → ∀ e, result = .error e ↔ ∃ before d after,
    ordered = before ++ d :: after ∧ (∀ x ∈ before, x.failure? = none) ∧
      e.path = d.path ∧ d.tree = .error e.fault

theorem reflects_gather (ordered : List Document) :
    a.Reflects ordered (a.gather (ordered.map a.checkDocument)) := by
  have hsound (h : ∀ d ∈ ordered, d.failure? = none) := a.gather_eq_ok fun _ => h
  -- when strict, what comes out is an error just if a search for the first failure finds it
  have herror (hstrict : a.strict = true) (e : DocumentError) :
      a.gather (ordered.map a.checkDocument) = .error e ↔
        ordered.findSome? Document.failure? = some e := by
    constructor
    · intro hresult
      cases hfirst : ordered.findSome? Document.failure? with
      | none =>
        rw [hsound (List.findSome?_eq_none_iff.mp hfirst)] at hresult
        cases hresult
      | some e' =>
        rw [a.gather_eq_error hstrict hfirst] at hresult
        rw [Except.error.inj hresult]
    · exact a.gather_eq_error hstrict
  refine ⟨?_, hsound, ?_, ?_⟩
  · intro hlenient
    exact a.gather_eq_ok fun hstrict => by simp [hlenient] at hstrict
  · intro hstrict
    simp only [herror hstrict, ← Option.isSome_iff_exists, List.findSome?_isSome_iff,
      Document.isSome_failure?_iff]
  · intro hstrict e
    rw [herror hstrict, List.findSome?_eq_some_iff]
    simp only [Document.failure?_eq_some_iff, and_comm, and_assoc]

/-- If failures do not count, an analysis succeeds wherever there is something to walk. -/
theorem analyze_eq_ok_iff (hlenient : a.strict = false) {disk : FileTree} {cwd : List String}
    {userRules : List Ignore.Rule} {report : Report} :
    a.analyze disk cwd userRules = .ok report ↔ ∃ found,
      Discovery.documents? disk cwd userRules a.root a.excludes = some found ∧
      report = a.analyzeTrees (Document.loaded
        (Document.sorted (found.map fun f => Document.read f.1 f.2))) := by
  have hdocuments (documents : List Document) : a.analyzeDocuments documents =
      .ok (a.analyzeTrees (Document.loaded (Document.sorted documents))) := by
    rw [analyzeDocuments, Pool.map_eq_map]
    exact (a.reflects_gather _).lenient hlenient
  rw [analyze]
  cases hfound : Discovery.documents? disk cwd userRules a.root a.excludes with
  | none => simp
  | some found => simp [hdocuments, Except.mapError, eq_comm]

/-- Who checks the trees does not show. -/
theorem analyzeTrees_shared (parallelism : Option Nat) (pool : Option Nat → Pool)
    (trees : List Tree) :
    { a with parallelism, pool }.analyzeTrees trees = a.analyzeTrees trees := by
  rw [analyzeTrees_eq, analyzeTrees_eq]
  rfl

theorem Reflects.of_shared {parallelism : Option Nat} {pool : Option Nat → Pool}
    {ordered : List Document} {result : Except DocumentError Report}
    (h : { a with parallelism, pool }.Reflects ordered result) : a.Reflects ordered result := by
  obtain ⟨hlenient, hsound, hfails, hfirst⟩ := h
  rw [analyzeTrees_shared] at hlenient hsound
  exact ⟨hlenient, hsound, hfails, hfirst⟩

/-- Documents with distinct paths have one ascending order, and their analysis follows it, in whatever
order they are listed or found on a disk, and however many workers share them in whatever way. What is
found on a disk keeps its path, and an error shows it behind the root. -/
theorem analysis_follows_paths (documents : List Document)
    (hdistinct : (documents.map Document.path).Nodup) :
    ∃ ordered, ordered.Perm documents ∧ Document.Ascending ordered ∧
      (a.analyzeTrees (Document.loaded ordered)).diagnostics =
        ((Document.loaded ordered).filter a.covers).flatMap
          (fun t => a.config.adjust (a.engine.diagnostics t)) ∧
      (a.analyzeTrees (Document.loaded ordered)).filesChecked =
        ((Document.loaded ordered).filter a.covers).length ∧
      ∀ (parallelism : Option Nat) (pool : Option Nat → Pool) (listed : List Document),
        listed.Perm documents →
        a.Reflects ordered ({ a with parallelism, pool }.analyzeDocuments listed) ∧
        ∀ disk cwd userRules found,
          Discovery.documents? disk cwd userRules a.root a.excludes = some found →
          found.map (fun f => Document.read f.1 f.2) = listed →
          listed.map Document.path = found.map Prod.fst ∧
          { a with parallelism, pool }.analyze disk cwd userRules =
            ({ a with parallelism, pool }.analyzeDocuments listed).mapError
              fun e : DocumentError =>
                @AnalysisError.document (Path.below a.root e.path) e.fault := by
  refine ⟨Document.sorted documents, Document.sorted_perm documents,
    Document.sorted_ascending hdistinct, ?_, ?_, ?_⟩
  · rw [analyzeTrees_eq]
  · rw [analyzeTrees_eq, List.countP_eq_length_filter]
  · intro parallelism pool listed hlisted
    constructor
    · rw [analyzeDocuments, Pool.map_eq_map, Document.sorted_eq_of_perm hlisted hdistinct]
      exact Reflects.of_shared a (reflects_gather _ (Document.sorted documents))
    · rintro disk cwd userRules found hfound rfl
      constructor
      · rw [List.map_map]
        rfl
      · rw [analyze, hfound]
        rfl

/-- Three documents as they are found: one that is no tree, one with a forbidden namespace, and one
that is no text. -/
def mixedDocuments : List Document := [
  ⟨["src", "b.ast.json"], .error .malformed⟩,
  ⟨["src", "c.ast.json"], .ok {
    file := "C.cs"
    root := {
      kind := .nameSpace "Company.Product" (.start 1 11) none
      children := [{ kind := .nameSpace "System.IO" (.start 2 13) none }] } }⟩,
  ⟨["docs", "a.ast.json"], .error .unreadable⟩]

/-- An analyzer with two workers, the first of which takes one document. -/
def sampleAnalyzer (strict : Bool) : Analyzer where
  root := "/work"
  engine := { registry := Preset.sample.registry }
  parallelism := some 2
  pool _ := { sizes := fun _ => [1] }
  strict := strict

/-- The tree is reported on if failures do not count; if they do, the text that cannot be read comes
first by its path, although it has been found last. -/
theorem analysis_follows_paths_mixed :
    (mixedDocuments.map Document.path).Nodup ∧
    (sampleAnalyzer false).analyzeDocuments mixedDocuments =
      .ok ((sampleAnalyzer false).analyzeTrees (Document.loaded mixedDocuments)) ∧
    ((sampleAnalyzer false).analyzeTrees (Document.loaded mixedDocuments)).filesChecked = 1 ∧
    (sampleAnalyzer true).analyzeDocuments mixedDocuments =
      .error ⟨["docs", "a.ast.json"], .unreadable⟩ := by
  have hdistinct : (mixedDocuments.map Document.path).Nodup := by decide
  have hordered : ∀ ordered : List Document, ordered.Perm mixedDocuments →
      Document.Ascending ordered → ordered = mixedDocuments.rotate 2 := by
    intro ordered hperm hascending
    refine hascending.eq_of_perm ?_ (hperm.trans (List.rotate_perm _ 2).symm)
    decide +kernel
  obtain ⟨ordered, hperm, hascending, -, -, hresult⟩ :=
    (sampleAnalyzer false).analysis_follows_paths mixedDocuments hdistinct
  obtain ⟨ordered', hperm', hascending', -, -, hresult'⟩ :=
    (sampleAnalyzer true).analysis_follows_paths mixedDocuments hdistinct
  obtain rfl := hordered ordered hperm hascending
  obtain rfl := hordered ordered' hperm' hascending'
  refine ⟨hdistinct, ?_, by decide +kernel, ?_⟩
  · exact (hresult _ _ mixedDocuments (.refl _)).1.lenient rfl
  · refine ((hresult' _ _ mixedDocuments (.refl _)).1.first rfl _).mpr ?_
    exact ⟨[], _, _, rfl, by simp, rfl, rfl⟩

end Analyzer

end UsagePolicy
