import Mathlib.Data.Finset.Card
import Mathlib.Data.List.Dedup
import UsagePolicy.Proofs.Failure
import UsagePolicy.Proofs.Registry.Merging

/-! How registries compose. The check for repeated names goes over all rules in one pass, namespace
rules first, so after a merge it takes the two registries in turns; what it reports is nevertheless
settled by the names alone. Merging is a partial monoid: it is defined where no name is shared, the
empty registry changes nothing, and three registries can be merged in either way. -/
namespace UsagePolicy.Registry

/-! ### What is reported -/

/-- The names that stand earlier in a list already, one for each later place. -/
def laterNames (names : List String) : List String :=
  (names.zipIdx.filter fun (n, i) => n ∈ names.take i).map Prod.fst

/-- The check with some names behind it reports a place if its name is among those or stands
earlier. -/
theorem repeated_eq_filter (seen names : List String) : repeated seen names =
    (names.zipIdx.filter fun (n, i) => n ∈ seen ∨ n ∈ names.take i).map Prod.fst := by
  induction names generalizing seen with
  | nil => rfl
  | cons n names ih =>
    -- behind `n`, to have seen `n` or to find it in front comes to the same
    have htail : ((n :: names).zipIdx.tail.filter fun (k, i) =>
        k ∈ seen ∨ k ∈ (n :: names).take i).map Prod.fst = repeated (n :: seen) names := by
      rw [ih, List.zipIdx_cons, List.tail_cons, List.zipIdx_succ, List.filter_map, List.map_map]
      congr 1
      refine List.filter_congr fun p _ => decide_eq_decide.mpr ?_
      simp only [List.take_succ_cons, List.mem_cons]
      tauto
    rw [repeated]
    by_cases hn : n ∈ seen
    · have hseen : repeated seen names = repeated (n :: seen) names := by
        rw [ih, ih]
        congr 1
        refine List.filter_congr fun p _ => ?_
        have hself : p.1 ∈ n :: seen ↔ p.1 ∈ seen := by
          rw [List.mem_cons]
          exact or_iff_right_of_imp fun h => h ▸ hn
        simp only [hself]
      rw [if_pos hn, hseen, ← htail]
      simp [List.zipIdx_cons, hn]
    · rw [if_neg hn, ← htail]
      simp [List.zipIdx_cons, hn]

theorem repeated_nil_eq_laterNames (names : List String) : repeated [] names = laterNames names := by
  simp [repeated_eq_filter, laterNames]

/-- Each name is reported once less than it occurs, and as often if it has been seen before. -/
theorem count_repeated (seen names : List String) (n : String) :
    (repeated seen names).count n = names.count n - if n ∈ seen then 0 else 1 := by
  induction names generalizing seen with
  | nil => simp [repeated]
  | cons k names ih =>
    rw [repeated]
    by_cases hk : k ∈ seen
    · rw [if_pos hk, List.count_cons, List.count_cons, ih]
      by_cases hnk : k = n
      · subst hnk
        simp [hk]
      · simp [hnk]
    · rw [if_neg hk, ih, List.count_cons]
      by_cases hnk : k = n
      · subst hnk
        simp [hk]
      · have hnk' : n ≠ k := fun h => hnk h.symm
        simp [hnk, hnk']

/-- There are as many reports as rules, less one for each name that is new. -/
theorem length_repeated (seen names : List String) :
    (repeated seen names).length + (names.toFinset \ seen.toFinset).card = names.length := by
  induction names generalizing seen with
  | nil => simp [repeated]
  | cons n names ih =>
    rw [repeated, List.length_cons, List.toFinset_cons]
    by_cases hn : n ∈ seen
    · rw [if_pos hn, List.length_cons, Finset.insert_sdiff_of_mem _ (List.mem_toFinset.mpr hn)]
      have hrest := ih seen
      omega
    · have hnew : n ∉ seen.toFinset := fun h => hn (List.mem_toFinset.mp h)
      have hcard : (insert n names.toFinset \ seen.toFinset).card =
          (names.toFinset \ (n :: seen).toFinset).card + 1 := by
        rw [Finset.insert_sdiff_of_notMem _ hnew, List.toFinset_cons, Finset.sdiff_insert,
          ← Finset.card_erase_add_one (Finset.mem_insert_self n _), Finset.erase_insert_eq_erase]
      rw [if_neg hn, hcard]
      have hrest := ih (n :: seen)
      omega

theorem length_laterNames (names : List String) :
    (laterNames names).length + names.toFinset.card = names.length := by
  simpa [repeated_nil_eq_laterNames] using length_repeated [] names

/-! ### Making -/

variable {namespaceRules : List NamespaceRule} {usageRules : List UsageRule}

/-- Where names are repeated, all later places are reported in order. -/
theorem make_eq_error_iff {errors : List RuleError} :
    make namespaceRules usageRules = .error errors ↔
      ¬ (names ⟨namespaceRules, usageRules⟩).Nodup ∧
        errors = (laterNames (names ⟨namespaceRules, usageRules⟩)).map .duplicateName := by
  have hnil : repeated [] (names ⟨namespaceRules, usageRules⟩) = [] ↔
      (names ⟨namespaceRules, usageRules⟩).Nodup := by
    simp [repeated_eq_nil_iff]
  rw [make, ← hnil, ← repeated_nil_eq_laterNames]
  cases repeated [] (names ⟨namespaceRules, usageRules⟩) with
  | nil => simp
  | cons n ns =>
    constructor
    · rintro ⟨⟩
      exact ⟨List.cons_ne_nil n ns, rfl⟩
    · rintro ⟨-, rfl⟩
      rfl

/-! ### Merging -/

variable {a b c : Registry}

theorem nodup_names_append_iff (ha : a.names.Nodup) (hb : b.names.Nodup) :
    (a.append b).names.Nodup ↔ ∀ n ∈ a.names, n ∉ b.names := by
  rw [(names_append_perm a b).nodup_iff, List.nodup_append']
  exact ⟨fun h n hn hn' => h.2.2 hn hn', fun h => ⟨ha, hb, fun n hn hn' => h n hn hn'⟩⟩

@[simp] theorem append_empty (a : Registry) : a.append empty = a := by
  simp [append, empty]

@[simp] theorem empty_append (a : Registry) : empty.append a = a := by
  simp [append, empty]

theorem append_assoc (a b c : Registry) : (a.append b).append c = a.append (b.append c) := by
  simp [append]

theorem nodup_left_of_append (h : (a.append b).names.Nodup) : a.names.Nodup :=
  ((names_append_perm a b).nodup_iff.mp h).of_append_left

theorem nodup_right_of_append (h : (a.append b).names.Nodup) : b.names.Nodup :=
  ((names_append_perm a b).nodup_iff.mp h).of_append_right

/-- A merge that fails reports the shared names, each of them once. -/
theorem merge_errors_perm {errors : List RuleError} (ha : a.names.Nodup) (hb : b.names.Nodup)
    (h : a.merge b = .error errors) :
    errors.Perm ((a.names.filter (· ∈ b.names)).map .duplicateName) := by
  obtain ⟨-, rfl⟩ := make_eq_error_iff.mp h
  refine List.Perm.map _ (List.perm_iff_count.mpr fun n => ?_)
  have hcount : (a.append b).names.count n = a.names.count n + b.names.count n := by
    rw [(names_append_perm a b).count_eq, List.count_append]
  have hcount_a := List.nodup_iff_count_le_one.mp ha n
  have hcount_b := List.nodup_iff_count_le_one.mp hb n
  change (laterNames (a.append b).names).count n = _
  rw [← repeated_nil_eq_laterNames, count_repeated, hcount, if_neg List.not_mem_nil]
  by_cases hn : n ∈ b.names
  · have hone : 1 ≤ b.names.count n := List.one_le_count_iff.mpr hn
    rw [List.count_filter (by simpa using hn)]
    omega
  · have hnot : n ∉ a.names.filter (· ∈ b.names) := by simp [hn]
    rw [List.count_eq_zero_of_not_mem hnot, List.count_eq_zero_of_not_mem hn]
    omega

/-- Three registries are merged if all their names differ, whichever two are merged first. -/
theorem merge_merge_left {r : Registry} :
    (a.merge b >>= fun ab => ab.merge c) = .ok r ↔
      r = a.append (b.append c) ∧ (a.append (b.append c)).names.Nodup := by
  rw [bind_eq_ok_iff, ← append_assoc]
  constructor
  · rintro ⟨ab, hab, h⟩
    obtain ⟨rfl, -⟩ := merge_eq_ok_iff.mp hab
    exact merge_eq_ok_iff.mp h
  · rintro ⟨rfl, hnodup⟩
    exact ⟨a.append b, merge_eq_ok_iff.mpr ⟨rfl, nodup_left_of_append hnodup⟩,
      merge_eq_ok_iff.mpr ⟨rfl, hnodup⟩⟩

theorem merge_merge_right {r : Registry} :
    (b.merge c >>= fun bc => a.merge bc) = .ok r ↔
      r = a.append (b.append c) ∧ (a.append (b.append c)).names.Nodup := by
  rw [bind_eq_ok_iff]
  constructor
  · rintro ⟨bc, hbc, h⟩
    obtain ⟨rfl, -⟩ := merge_eq_ok_iff.mp hbc
    exact merge_eq_ok_iff.mp h
  · rintro ⟨rfl, hnodup⟩
    exact ⟨b.append c, merge_eq_ok_iff.mpr ⟨rfl, nodup_right_of_append hnodup⟩,
      merge_eq_ok_iff.mpr ⟨rfl, hnodup⟩⟩

/-- A registry can be made of rules just if all their names differ, and it has the rules as they are;
otherwise each rule is reported whose name stands earlier, namespace rules before usage rules, which
makes as many reports as there are rules beyond the distinct names. Registries with distinct names can
be merged just if they share none, a failure reports the shared names, the empty registry changes
nothing on either side, and three registries can be merged in either way or not at all, with the rules
of each family one registry after the other. -/
theorem merge_partial_monoid (a b c : Registry) (ha : a.names.Nodup) (hb : b.names.Nodup) :
    (∀ namespaceRules usageRules,
      (∀ r, make namespaceRules usageRules = .ok r ↔
        (names ⟨namespaceRules, usageRules⟩).Nodup ∧ r = ⟨namespaceRules, usageRules⟩) ∧
      (∀ errors, make namespaceRules usageRules = .error errors ↔
        ¬ (names ⟨namespaceRules, usageRules⟩).Nodup ∧
          errors = (laterNames (names ⟨namespaceRules, usageRules⟩)).map .duplicateName) ∧
      (laterNames (names ⟨namespaceRules, usageRules⟩)).length +
          (names ⟨namespaceRules, usageRules⟩).toFinset.card =
        namespaceRules.length + usageRules.length) ∧
    (∀ r, a.merge b = .ok r ↔ (∀ n ∈ a.names, n ∉ b.names) ∧
      r = ⟨a.namespaceRules ++ b.namespaceRules, a.usageRules ++ b.usageRules⟩) ∧
    (∀ errors, a.merge b = .error errors →
      errors.Perm ((a.names.filter (· ∈ b.names)).map .duplicateName)) ∧
    a.merge empty = .ok a ∧ empty.merge a = .ok a ∧
    (a.merge b >>= fun ab => ab.merge c).toOption = (b.merge c >>= fun bc => a.merge bc).toOption ∧
    ∀ r, (a.merge b >>= fun ab => ab.merge c) = .ok r →
      r = ⟨a.namespaceRules ++ b.namespaceRules ++ c.namespaceRules,
        a.usageRules ++ b.usageRules ++ c.usageRules⟩ := by
  refine ⟨?_, ?_, ?_, ?_, ?_, ?_, ?_⟩
  · intro namespaceRules usageRules
    refine ⟨fun r => ?_, fun errors => make_eq_error_iff, ?_⟩
    · rw [make_eq_ok_iff, and_comm]
      exact and_congr_left fun h => by rw [h]
    · rw [length_laterNames]
      simp [names]
  · intro r
    rw [merge_eq_ok_iff, nodup_names_append_iff ha hb, and_comm]
    rfl
  · exact fun errors => merge_errors_perm ha hb
  · exact merge_eq_ok_iff.mpr ⟨(append_empty a).symm, by rwa [append_empty]⟩
  · exact merge_eq_ok_iff.mpr ⟨(empty_append a).symm, by rwa [empty_append]⟩
  · ext r
    rw [toOption_eq_some_iff, toOption_eq_some_iff, merge_merge_left, merge_merge_right]
  · intro r hr
    rw [(merge_merge_left.mp hr).1, ← append_assoc]
    rfl

/-- A registry whose usage rule is called like a namespace rule of another registry. -/
def doubledRegistry : Registry where
  namespaceRules := [{ name := "no-leaf", outer := "Company", forbidden := "Leaf" }]
  usageRules := [{
    name := "no-system"
    category := .type
    context := .any
    used := .namespaceStem "System"
    sites := UsageKind.ofSymbols
    descriptor := .ofCategory .type }]

/-- The sample preset can be merged with the registry of the document, but that one not with a registry
that has its name in the other family; so the three cannot be merged, whichever two come first. -/
theorem merge_partial_monoid_company :
    companyRegistry.names.Nodup ∧ doubledRegistry.names.Nodup ∧
    Preset.sample.registry.merge companyRegistry =
      .ok (Preset.sample.registry.append companyRegistry) ∧
    companyRegistry.merge doubledRegistry = .error [.duplicateName "no-system"] ∧
    (Preset.sample.registry.merge companyRegistry >>= fun r => r.merge doubledRegistry).toOption =
      (companyRegistry.merge doubledRegistry >>= fun r => Preset.sample.registry.merge r).toOption := by
  have hsample : Preset.sample.registry.names.Nodup := by decide
  have hcompany : companyRegistry.names.Nodup := by decide
  obtain ⟨hmake, hmerge, -, -, -, hassoc, -⟩ :=
    merge_partial_monoid Preset.sample.registry companyRegistry doubledRegistry hsample hcompany
  exact ⟨hcompany, by decide, (hmerge _).mpr ⟨by decide, rfl⟩, ((hmake _ _).2.1 _).mpr (by decide),
    hassoc⟩

end UsagePolicy.Registry
