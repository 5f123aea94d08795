import Mathlib.Data.List.Perm.Subperm
import UsagePolicy.Proofs.Descent.Verdicts

/-! What a wider bound changes. The descent goes further down, so a shared generic symbol may be met
first at a deeper place, where less room is left for its arguments; since it is followed there and
nowhere else, arguments that a narrow bound judges may be lost. The main result says that there is no
other way to lose any. -/
namespace UsagePolicy

open SymbolModel Descent Relation

variable {M : Type} [SymbolModel M]

namespace Descent

variable {m : M} {maxDepth narrow wide : Nat} {kind : UsageKind} {u : SymbolId}

/-- A generic symbol is met first, and followed, with some number of symbols above it. -/
def MetAt (m : M) (maxDepth : Nat) (kind : UsageKind) (u g : SymbolId) (depth : Nat) : Prop :=
  ∃ c ∈ callsAt m maxDepth kind u, c.Follows m maxDepth ∧ c.used = g ∧ c.path.length = depth

instance (m : M) (maxDepth : Nat) (kind : UsageKind) (u g : SymbolId) (depth : Nat) :
    Decidable (MetAt m maxDepth kind u g depth) :=
  inferInstanceAs (Decidable (∃ c ∈ _, _))

/-! ### Two bounds side by side -/

/-- As far as some symbols go, the same ones have been followed. -/
def AgreeOn (shared expanded expanded' : List SymbolId) : Prop :=
  ∀ g ∈ shared, g ∈ expanded ↔ g ∈ expanded'

theorem AgreeOn.cons {shared expanded expanded' : List SymbolId}
    (h : AgreeOn shared expanded expanded') (g : SymbolId) :
    AgreeOn shared (g :: expanded) (g :: expanded') := by
  intro g' hg'
  rw [List.mem_cons, List.mem_cons, h g' hg']

/-- The call with another record of what has been followed. -/
def Call.recalling (c : Call) (expanded : List SymbolId) : Call := { c with expanded }

/-- A call beyond the narrow bound adds no symbol to those that both descents share. -/
theorem AgreeOn.trace_right {shared expanded : List SymbolId} {c : Call}
    (h : AgreeOn shared expanded c.expanded) (hdeep : narrow < c.path.length)
    (hnew : ∀ c' ∈ (trace m wide c).1, c'.Follows m wide → narrow < c'.path.length →
      c'.used ∉ shared) : AgreeOn shared expanded (trace m wide c).2 := by
  intro g hg
  rw [trace_expanded, List.mem_append, List.mem_reverse, mem_followed, h g hg]
  constructor
  · exact .inr
  · rintro (⟨c', hc', hf, rfl⟩ | hmem)
    · have hlen := (path_suffix_of_mem_trace c c' hc').length_le
      exact absurd hg (hnew c' hc' hf (by omega))
    · exact hmem

/-- Within the narrow bound both descents follow a shared symbol at the same calls. -/
theorem Call.follows_recalling_iff {shared expanded : List SymbolId} {c : Call}
    (hle : narrow ≤ wide) (hlen : c.path.length ≤ narrow)
    (hshared : c.Judged m narrow → argsOf m c.used ≠ [] → c.used ∈ shared)
    (hagree : AgreeOn shared c.expanded expanded) :
    (c.recalling expanded).Follows m wide ↔ c.Follows m narrow := by
  constructor
  · rintro ⟨hpath, -, hargs, hnew⟩
    have hmem := hshared ⟨hpath, hlen, resolves_of_argsOf_ne_nil hargs⟩ hargs
    exact ⟨hpath, hlen, hargs, fun h => hnew ((hagree _ hmem).mp h)⟩
  · intro hf
    have hmem := hshared hf.judged hf.2.2.1
    exact ⟨hf.1, hlen.trans hle, hf.2.2.1, fun h => hf.2.2.2 ((hagree _ hmem).mpr h)⟩

/-- If the wide descent follows no shared symbol beyond the narrow bound, it makes all judgements of
the narrow one, in order, and some more in between. -/
theorem judged_trace_sublist (hle : narrow ≤ wide) (shared : List SymbolId) (c : Call) :
    ∀ expanded, AgreeOn shared c.expanded expanded →
      (∀ c' ∈ (trace m narrow c).1, c'.Judged m narrow → argsOf m c'.used ≠ [] →
        c'.used ∈ shared) →
      (∀ c' ∈ (trace m wide (c.recalling expanded)).1, c'.Follows m wide →
        narrow < c'.path.length → c'.used ∉ shared) →
      (judged m narrow (trace m narrow c).1).Sublist
          (judged m wide (trace m wide (c.recalling expanded)).1) ∧
        AgreeOn shared (trace m narrow c).2 (trace m wide (c.recalling expanded)).2 := by
  induction c using trace_induction m narrow with
  | hleaf c h =>
    intro expanded hagree hshared hnew
    rw [trace_of_not_follows h] at hshared ⊢
    by_cases hlen : c.path.length ≤ narrow
    · have hstop : ¬ (c.recalling expanded).Follows m wide := fun hf =>
        h ((Call.follows_recalling_iff hle hlen (hshared c (by simp)) hagree).mp hf)
      rw [trace_of_not_follows hstop]
      refine ⟨?_, hagree⟩
      by_cases hj : c.Judged m narrow
      · have hj' : (c.recalling expanded).Judged m wide := ⟨hj.1, hlen.trans hle, hj.2.2⟩
        rw [judged_cons_of_pos hj, judged_cons_of_pos hj']
        exact List.Sublist.refl _
      · rw [judged_cons_of_neg hj]
        exact List.nil_sublist _
    · -- what the wide descent finds here comes on top
      have hj : ¬ c.Judged m narrow := fun hj => hlen hj.2.1
      have hdeep : narrow < (c.recalling expanded).path.length := Nat.lt_of_not_le hlen
      rw [judged_cons_of_neg hj]
      exact ⟨List.nil_sublist _, AgreeOn.trace_right hagree hdeep hnew⟩
  | hnode c h ih =>
    intro expanded hagree hshared hnew
    have h' : (c.recalling expanded).Follows m wide :=
      (Call.follows_recalling_iff hle h.2.1 (hshared c (self_mem_trace c)) hagree).mpr h
    rw [trace_of_follows h] at hshared ⊢
    rw [trace_of_follows h'] at hnew ⊢
    have hbelow : (judged m narrow (below m narrow c).1).Sublist
          (judged m wide (below m wide (c.recalling expanded)).1) ∧
        AgreeOn shared (below m narrow c).2 (below m wide (c.recalling expanded)).2 := by
      refine gather_sim (AgreeOn shared)
        (fun cs cs' => (judged m narrow cs).Sublist (judged m wide cs')) (List.Sublist.refl _) ?_
        _ _ _ ?_ (hagree.cons c.used) (fun c' hc' => hshared c' (List.mem_cons_of_mem _ hc'))
        fun c' hc' => hnew c' (List.mem_cons_of_mem _ hc')
      · intro cs₁ cs₂ cs₁' cs₂' h₁ h₂
        rw [judged_append, judged_append]
        exact h₁.append h₂
      · intro s s' arg _ hs hshared hnew
        exact ih s arg s' hs hshared hnew
    rw [judged_cons_of_pos h.judged, judged_cons_of_pos h'.judged]
    exact ⟨hbelow.1.cons_cons _, hbelow.2⟩

/-- The wide descent keeps all judgements if it meets no symbol first beyond the narrow bound that the
narrow descent follows. -/
theorem occurrences_sublist (hle : narrow ≤ wide)
    (hmet : ∀ g i j, MetAt m narrow kind u g i → MetAt m wide kind u g j → j ≤ narrow) :
    (occurrences m narrow kind u).Sublist (occurrences m wide kind u) := by
  rw [occurrences_eq_map, occurrences_eq_map]
  refine (judged_trace_sublist hle (followed m narrow (callsAt m narrow kind u)) (.ofSite kind u) []
    (fun _ _ => Iff.rfl) ?_ ?_).1
  · intro c hc hj hargs
    exact mem_followed.mpr (exists_follows_of_judged (mem_judgements.mpr ⟨hc, hj⟩) hargs)
  · intro c hc hf hdeep hmem
    obtain ⟨p, hp, hpf, hpc⟩ := mem_followed.mp hmem
    have hdepth := hmet c.used _ _ ⟨p, hp, hpf, hpc, rfl⟩ ⟨c, hc, hf, rfl, rfl⟩
    omega

/-! ### Without cycles -/

/-- The occurrence of what stands at an argument place. -/
def argumentAt (m : M) (place : SymbolId × Nat) : Occurrence :=
  ⟨(argsOf m place.1)[place.2]?.getD place.1, .typeArgument⟩

/-- An occurrence is settled by its argument place. -/
theorem occurrences_eq_argumentAt (maxDepth : Nat) (kind : UsageKind) {s : Symbol}
    (hu : symbol? m u = some s) : occurrences m maxDepth kind u = ⟨u, kind⟩ ::
      ((judgements m maxDepth kind u).filterMap Call.position).map (argumentAt m) := by
  obtain ⟨rest, hjudged, hrest⟩ := judgements_eq_cons maxDepth kind hu
  have hsite : (Call.ofSite kind u).position = none := rfl
  have hargs : rest.map Call.occurrence = (rest.filterMap Call.position).map (argumentAt m) := by
    rw [List.map_filterMap, ← List.filterMap_eq_map]
    refine List.filterMap_congr fun c hc => ?_
    obtain ⟨-, p, hpc⟩ := hrest c hc
    obtain ⟨i, hi, harg⟩ := hpc.exists_position
    simp [hi, argumentAt, harg, Call.occurrence, hpc.kind_eq]
  rw [occurrences_eq_map, hjudged, List.filterMap_cons_none hsite, List.map_cons, hargs]
  rfl

/-- Without cycles the wide descent judges what stands at each place that the narrow one judges, if it
follows the symbols that have these places above its bound. -/
theorem occurrences_subperm
    (hacyclic : ∀ g, ReflTransGen (Lists m) u g → ¬ TransGen (Lists m) g g)
    (hmet : ∀ g i, MetAt m narrow kind u g i → i < narrow → ∃ j < wide, MetAt m wide kind u g j) :
    (occurrences m narrow kind u).Subperm (occurrences m wide kind u) := by
  cases hu : symbol? m u with
  | none => simp [occurrences_eq_map, judgements_eq_nil hu]
  | some s =>
    rw [occurrences_eq_argumentAt narrow kind hu, occurrences_eq_argumentAt wide kind hu]
    have hsubset : (judgements m narrow kind u).filterMap Call.position ⊆
        (judgements m wide kind u).filterMap Call.position := by
      rintro ⟨g, i⟩ hposition
      obtain ⟨c, hc, hci⟩ := List.mem_filterMap.mp hposition
      obtain ⟨hmem, hj⟩ := mem_judgements.mp hc
      obtain ⟨p, hp, hf, hpc, rfl, harg⟩ := exists_parent_of_position hmem hci
      have hlen : p.path.length < narrow := by simpa [hpc.path_eq] using hj.2.1
      obtain ⟨_, hlt, q, hq, hqf, hqp, rfl⟩ := hmet p.used _ ⟨p, hp, hf, rfl, rfl⟩ hlen
      rw [← hqp] at harg ⊢
      exact mem_positions_of_follows hacyclic hq hqf hlt harg hj.2.2
    obtain ⟨kept, hperm, hsublist⟩ := judged_positions_nodup.subperm hsubset
    exact (List.subperm_cons _).mpr ⟨_, hperm.map (argumentAt m), hsublist.map (argumentAt m)⟩

/-! ### What is lost -/

/-- A symbol that the wide descent does not judge any more stands, in the narrow one, below a symbol
that the wide one meets first at its bound. -/
theorem exists_metAt_of_lost (hle : narrow ≤ wide) {c : Call} (hc : c ∈ judgements m narrow kind u)
    (hlost : c.occurrence ∉ occurrences m wide kind u) :
    ∃ g ∈ c.path, MetAt m wide kind u g wide := by
  obtain ⟨hmem, hj⟩ := mem_judgements.mp hc
  obtain ⟨s, hu⟩ : ∃ s, symbol? m u = some s := by
    cases hu : symbol? m u with
    | none => simp [judgements_eq_nil hu] at hc
    | some s => exact ⟨s, rfl⟩
  obtain ⟨rest, hjudged, hrest⟩ := judgements_eq_cons narrow kind hu
  rw [hjudged] at hc
  rcases List.mem_cons.mp hc with rfl | hc
  · rw [occurrences_eq_argumentAt wide kind hu] at hlost
    exact absurd List.mem_cons_self hlost
  obtain ⟨hne, p, hpc⟩ := hrest c hc
  by_contra hnone
  refine hlost ?_
  obtain ⟨between, hpath, hchain⟩ := exists_chain hmem hne
  have hopen : OpenChain m wide kind u c.used between := by
    refine ⟨hchain, ?_, ?_⟩
    · have hlen : c.path.reverse.length ≤ narrow := by simpa using hj.2.1
      rw [hpath, List.length_cons] at hlen
      omega
    · intro g hg hmet
      exact hnone ⟨g, by rwa [← List.mem_reverse, hpath], hmet⟩
  have hoccurs := (mem_occurrences_iff_openChain (by simp [hu]) hj.2.2 hne).mpr ⟨between, hopen⟩
  rwa [Call.occurrence, hpc.kind_eq]

end Descent

/-! ### Findings -/

namespace Engine

/-- Widening the bound loses findings in one way only: a symbol that is followed within the narrow
bound is met first further down. If that happens to none, the findings are kept in order. Without
cycles none is lost even so, as long as each symbol whose arguments the narrow descent judges is still
followed above the wide bound. And a finding that is gone altogether is the verdict on an argument
which stands below a symbol that is met first exactly at the wide bound. -/
theorem findings_of_wider_bound (m : M) (registry : Registry) (context u : SymbolId) (span : Span)
    (kind : UsageKind) (narrow wide : Nat) (hle : narrow ≤ wide) :
    ((∀ g i j, MetAt m narrow kind u g i → MetAt m wide kind u g j → j ≤ narrow) →
      (evaluate ⟨registry, narrow⟩ m ⟨.symbol context u, span, kind⟩).Sublist
        (evaluate ⟨registry, wide⟩ m ⟨.symbol context u, span, kind⟩)) ∧
    ((∀ g, ReflTransGen (Lists m) u g → ¬ TransGen (Lists m) g g) →
      (∀ g i, MetAt m narrow kind u g i → i < narrow → ∃ j < wide, MetAt m wide kind u g j) →
      (evaluate ⟨registry, narrow⟩ m ⟨.symbol context u, span, kind⟩).Subperm
        (evaluate ⟨registry, wide⟩ m ⟨.symbol context u, span, kind⟩)) ∧
    ∀ f ∈ evaluate ⟨registry, narrow⟩ m ⟨.symbol context u, span, kind⟩,
      f ∉ evaluate ⟨registry, wide⟩ m ⟨.symbol context u, span, kind⟩ →
      ∃ c ∈ judgements m narrow kind u,
        judge ⟨registry, narrow⟩ m context (nameOf m context) span c.occurrence = some f ∧
        f.used = nameOf m c.used ∧ ∃ g ∈ c.path, MetAt m wide kind u g wide := by
  cases hc : symbol? m context with
  | none => simp [evaluate, hc]
  | some symbol =>
    have hname : nameOf m context = symbol.name := by simp [nameOf, hc]
    simp only [evaluate, hc, hname]
    refine ⟨fun hmet => (occurrences_sublist hle hmet).filterMap _, ?_, ?_⟩
    · intro hacyclic hmet
      obtain ⟨kept, hperm, hsublist⟩ := occurrences_subperm hacyclic hmet
      exact ⟨_, hperm.filterMap _, hsublist.filterMap _⟩
    · intro f hf hlost
      obtain ⟨o, ho, hof⟩ := List.mem_filterMap.mp hf
      rw [occurrences_eq_map] at ho
      obtain ⟨c, hc, rfl⟩ := List.mem_map.mp ho
      have hgone : c.occurrence ∉ occurrences m wide kind u := fun hmem =>
        hlost (List.mem_filterMap.mpr ⟨c.occurrence, hmem, hof⟩)
      refine ⟨c, hc, hof, ?_, exists_metAt_of_lost hle hc hgone⟩
      rw [judge_eq_revise _ (mem_judgements.mp hc).2.2.2 _ f.rule _ f.descriptor] at hof
      obtain ⟨rule, -, hfinding⟩ := Option.map_eq_some_iff.mp hof
      exact (congrArg Finding.used hfinding).symm

/-- A method, and the types `Leaf`, `Box<Leaf>`, `Set<Box>`, `List<Set>` and `Pair<List, Box>`. -/
def nestedBoxes : SymbolTable where
  symbols := #[
    { name := "Run", kind := .method none [] },
    { name := "Leaf", kind := .type [] none },
    { name := "Box", kind := .type [⟨1⟩] none },
    { name := "Set", kind := .type [⟨2⟩] none },
    { name := "List", kind := .type [⟨3⟩] none },
    { name := "Pair", kind := .type [⟨4⟩, ⟨2⟩] none }]

/-- Arguments stand before the symbols that list them. -/
theorem lt_of_lists_nestedBoxes {a b : SymbolId} (h : Lists nestedBoxes a b) :
    b.index.toNat < a.index.toNat := by
  have hlisted : ∀ i < 6, ∀ b ∈ argsOf nestedBoxes ⟨.ofNat i⟩, b.index.toNat < i := by decide
  have hresolves : (nestedBoxes.get? a).isSome := resolves_of_argsOf_ne_nil h.ne_nil
  have ha : a.index.toNat < 6 := by simpa [SymbolTable.get?, nestedBoxes] using hresolves
  exact hlisted a.index.toNat ha b (by rwa [UInt32.ofNat_toNat])

theorem acyclic_nestedBoxes (g : SymbolId) : ¬ TransGen (Lists nestedBoxes) g g := by
  have hdown : ∀ a b, TransGen (Lists nestedBoxes) a b → b.index.toNat < a.index.toNat := by
    intro a b h
    induction h with
    | single h => exact lt_of_lists_nestedBoxes h
    | tail _ h ih => exact (lt_of_lists_nestedBoxes h).trans ih
  exact fun h => (hdown g g h).false

/-- Bounds of three and of five meet each symbol first at the same place. A bound of two meets `Box`
first at a place that it does not have with five, but there is room for `Leaf` at the new place. -/
theorem findings_of_wider_bound_boxes :
    ((⟨leafBan, 3⟩ : Engine).evaluate nestedBoxes ⟨.symbol ⟨0⟩ ⟨5⟩, {}, .type⟩).Sublist
      ((⟨leafBan, 5⟩ : Engine).evaluate nestedBoxes ⟨.symbol ⟨0⟩ ⟨5⟩, {}, .type⟩) ∧
    ((⟨leafBan, 2⟩ : Engine).evaluate nestedBoxes ⟨.symbol ⟨0⟩ ⟨5⟩, {}, .type⟩).Subperm
      ((⟨leafBan, 5⟩ : Engine).evaluate nestedBoxes ⟨.symbol ⟨0⟩ ⟨5⟩, {}, .type⟩) ∧
    ∃ c ∈ judgements nestedBoxes 2 .type ⟨5⟩,
      judge ⟨leafBan, 2⟩ nestedBoxes ⟨0⟩ "Run" {} c.occurrence =
        some ⟨"no-leaf", .ofCategory .type, "Leaf", "Run", {}⟩ ∧
      "Leaf" = nameOf nestedBoxes c.used ∧ ∃ g ∈ c.path, MetAt nestedBoxes 3 .type ⟨5⟩ g 3 := by
  have hthree := findings_of_wider_bound nestedBoxes leafBan ⟨0⟩ ⟨5⟩ {} .type 3 5 (by decide)
  have htwo := findings_of_wider_bound nestedBoxes leafBan ⟨0⟩ ⟨5⟩ {} .type 2 5 (by decide)
  have hlost := findings_of_wider_bound nestedBoxes leafBan ⟨0⟩ ⟨5⟩ {} .type 2 3 (by decide)
  have hdeepest : ∀ c ∈ callsAt nestedBoxes 5 .type ⟨5⟩, c.Follows nestedBoxes 5 →
      c.path.length ≤ 3 := by decide +kernel
  have hstill : ∀ c ∈ callsAt nestedBoxes 2 .type ⟨5⟩, c.Follows nestedBoxes 2 →
      ∃ p ∈ callsAt nestedBoxes 5 .type ⟨5⟩, p.Follows nestedBoxes 5 ∧ p.used = c.used := by
    decide +kernel
  refine ⟨hthree.1 ?_, htwo.2.1 (fun g _ => acyclic_nestedBoxes g) ?_, ?_⟩
  · rintro g i j - ⟨c, hc, hf, -, rfl⟩
    exact hdeepest c hc hf
  · rintro g i ⟨c, hc, hf, rfl, -⟩ -
    obtain ⟨p, hp, hpf, hpc⟩ := hstill c hc hf
    have hdepth := hdeepest p hp hpf
    exact ⟨p.path.length, by omega, p, hp, hpf, hpc, rfl⟩
  · exact hlost.2.2 ⟨"no-leaf", .ofCategory .type, "Leaf", "Run", {}⟩ (by decide) (by decide)

/-- In `Pair<List<Set<Box<Leaf>>>, Box<Leaf>>` a bound of two cuts the first `Box` off and leaves room
for `Leaf` below the second one. A bound of three meets the first `Box` and has no room below it, so
`Leaf` is lost. -/
theorem leaf_lost_to_wider_bound : ¬ ∀ (t : SymbolTable) (registry : Registry) (context u : SymbolId)
    (span : Span) (kind : UsageKind) (narrow wide : Nat), narrow ≤ wide →
    (evaluate ⟨registry, narrow⟩ t ⟨.symbol context u, span, kind⟩).Subperm
      (evaluate ⟨registry, wide⟩ t ⟨.symbol context u, span, kind⟩) := by
  intro hall
  have hle := (hall nestedBoxes leafBan ⟨0⟩ ⟨5⟩ {} .type 2 3 (by decide)).length_le
  exact absurd hle (by decide)

end Engine

end UsagePolicy
