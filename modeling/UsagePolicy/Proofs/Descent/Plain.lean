import UsagePolicy.Proofs.Descent.Findings

/-! Following a symbol once, and following it wherever it is met. The plain descent has no memory: it
knows the symbols above and the bound, and nothing else. The descent that follows each generic symbol
once leaves out what the plain one finds below a symbol that it has followed before, so its findings
are a subsequence; and as long as the plain descent meets no generic symbol twice, there is nothing to
leave out. -/
namespace UsagePolicy

open SymbolModel

variable {M : Type} [SymbolModel M] {m : M}

namespace Descent

/-! ### Passes without a state -/

section Gather
variable {σ α β : Type} {step : σ → α → List β × σ} {f : α → List β}

/-- If each step finds a part of what it would find without a state, so does the pass. -/
theorem gather_sublist_flatMap (as : List α)
    (hstep : ∀ s, ∀ a ∈ as, (step s a).1.Sublist (f a)) (s : σ) :
    (gather step s as).1.Sublist (as.flatMap f) := by
  induction as generalizing s with
  | nil => exact .slnil
  | cons a as ih =>
    rw [gather_cons, List.flatMap_cons]
    exact (hstep s a (by simp)).append (ih (fun s b hb => hstep s b (by simp [hb])) _)

/-- If each step finds all of that from a state that is ready for it, and a state that is ready for two
parts is ready for the second one after the first, then a pass from a ready state finds all. -/
theorem gather_eq_flatMap (Ready : σ → List β → Prop) (after : List β → σ → σ)
    (hnil : ∀ s, after [] s = s)
    (happend : ∀ s l₁ l₂, after (l₁ ++ l₂) s = after l₂ (after l₁ s))
    (hready : ∀ s l₁ l₂, Ready s (l₁ ++ l₂) → Ready s l₁ ∧ Ready (after l₁ s) l₂) (as : List α)
    (hstep : ∀ s, ∀ a ∈ as, Ready s (f a) → step s a = (f a, after (f a) s)) (s : σ)
    (hs : Ready s (as.flatMap f)) :
    gather step s as = (as.flatMap f, after (as.flatMap f) s) := by
  induction as generalizing s with
  | nil => rw [List.flatMap_nil, hnil, gather]
  | cons a as ih =>
    rw [List.flatMap_cons] at hs ⊢
    obtain ⟨hhead, htail⟩ := hready _ _ _ hs
    have hrest := ih (fun s b hb => hstep s b (by simp [hb])) _ htail
    rw [gather_cons, hstep s a (by simp) hhead, hrest, happend]

end Gather

/-! ### The plain descent -/

/-- What the plain descent finds at a symbol that it judges. -/
theorem plain_of_some {room : Nat} {path : List SymbolId} {kind : UsageKind} {used : SymbolId}
    {symbol : Symbol} (hpath : used ∉ path) (hs : symbol? m used = some symbol) :
    plain m (room + 1) path kind used = ⟨used, kind⟩ ::
      symbol.typeArgs.flatMap (plain m room (used :: path) .typeArgument) := by
  rw [plain, if_neg hpath, hs]

/-- Whatever has been followed before, the descent finds a subsequence of what the plain one finds. -/
theorem run_sublist_plain (room : Nat) (path expanded : List SymbolId) (kind : UsageKind)
    (used : SymbolId) :
    (run m room path expanded kind used).1.Sublist (plain m room path kind used) := by
  induction room generalizing path expanded kind used with
  | zero => exact .slnil
  | succ room ih =>
    rw [run]
    split
    · exact List.nil_sublist _
    next hpath =>
      split
      · exact List.nil_sublist _
      next symbol hs =>
        rw [plain_of_some hpath hs]
        split
        · exact (List.nil_sublist _).cons_cons _
        · refine List.Sublist.cons_cons _ ?_
          exact gather_sublist_flatMap _ (fun expanded arg _ => ih _ expanded _ arg) _

/-- The generic symbols among some occurrences, each as often as it occurs. -/
def generics (m : M) (os : List Occurrence) : List SymbolId :=
  (os.map Occurrence.used).filter (argsOf m · ≠ [])

theorem generics_append (os₁ os₂ : List Occurrence) :
    generics m (os₁ ++ os₂) = generics m os₁ ++ generics m os₂ := by
  simp [generics]

theorem generics_cons_of_pos {o : Occurrence} (h : argsOf m o.used ≠ []) (os : List Occurrence) :
    generics m (o :: os) = o.used :: generics m os := by
  simp [generics, h]

/-- None of some occurrences repeats a generic symbol, neither one that has been followed nor one
among themselves. -/
structure Fresh (m : M) (expanded : List SymbolId) (os : List Occurrence) : Prop where
  nodup : (generics m os).Nodup
  new : ∀ g ∈ generics m os, g ∉ expanded

/-- Once the first occurrences have been followed, the others are still fresh. -/
theorem Fresh.append {expanded : List SymbolId} {os₁ os₂ : List Occurrence}
    (h : Fresh m expanded (os₁ ++ os₂)) :
    Fresh m expanded os₁ ∧ Fresh m ((generics m os₁).reverse ++ expanded) os₂ := by
  obtain ⟨hnodup, hnew⟩ := h
  rw [generics_append] at hnodup hnew
  obtain ⟨hnodup₁, hnodup₂, hdisjoint⟩ := List.nodup_append.mp hnodup
  refine ⟨⟨hnodup₁, fun g hg => hnew g (List.mem_append_left _ hg)⟩, hnodup₂, ?_⟩
  intro g hg hmem
  rcases List.mem_append.mp hmem with hmem | hmem
  · exact hdisjoint g (List.mem_reverse.mp hmem) g hg rfl
  · exact hnew g (List.mem_append_right _ hg) hmem

/-- Where the plain descent meets nothing but fresh symbols, the descent finds all that it finds, and
has followed the generic symbols among them in the end. -/
theorem run_eq_plain (room : Nat) (path expanded : List SymbolId) (kind : UsageKind)
    (used : SymbolId) (hfresh : Fresh m expanded (plain m room path kind used)) :
    run m room path expanded kind used = (plain m room path kind used,
      (generics m (plain m room path kind used)).reverse ++ expanded) := by
  induction room generalizing path expanded kind used with
  | zero => rfl
  | succ room ih =>
    by_cases hpath : used ∈ path
    · simp [run, plain, hpath, generics]
    cases hs : symbol? m used with
    | none => simp [run, plain, hpath, hs, generics]
    | some symbol =>
      have hargs : argsOf m used = symbol.typeArgs := argsOf_of_some hs
      rw [plain_of_some hpath hs] at hfresh ⊢
      rw [run, if_neg hpath, hs]
      by_cases hnil : symbol.typeArgs = []
      · simp [hnil, generics, hargs]
      · have hgeneric : argsOf m used ≠ [] := hargs ▸ hnil
        have hcons := generics_cons_of_pos (o := ⟨used, kind⟩) hgeneric
          (symbol.typeArgs.flatMap (plain m room (used :: path) .typeArgument))
        have hnew : used ∉ expanded := hfresh.new used (by rw [hcons]; exact List.mem_cons_self)
        have hbelow : Fresh m (used :: expanded)
            (symbol.typeArgs.flatMap (plain m room (used :: path) .typeArgument)) := by
          have happend : Fresh m ((generics m [⟨used, kind⟩]).reverse ++ expanded)
              (symbol.typeArgs.flatMap (plain m room (used :: path) .typeArgument)) :=
            (Fresh.append hfresh).2
          rwa [generics_cons_of_pos hgeneric] at happend
        -- the arguments find the symbol itself followed, and leave behind what they have followed
        have hpass := gather_eq_flatMap (f := plain m room (used :: path) .typeArgument) (Fresh m)
          (fun os expanded => (generics m os).reverse ++ expanded) (fun _ => rfl)
          (fun s os₁ os₂ => by simp [generics_append]) (fun _ _ _ => Fresh.append) symbol.typeArgs
          (fun expanded arg _ => ih (used :: path) expanded .typeArgument arg) _ hbelow
        simp only [hnil, hnew, or_self, if_false, hpass, hcons]
        simp

theorem fresh_of_count_le_one {os : List Occurrence}
    (h : ∀ g, argsOf m g ≠ [] → (os.map Occurrence.used).count g ≤ 1) : Fresh m [] os := by
  refine ⟨?_, fun g _ => List.not_mem_nil⟩
  rw [generics, List.nodup_iff_count_le_one]
  intro g
  by_cases hg : argsOf m g = []
  · have hnot : g ∉ (os.map Occurrence.used).filter (argsOf m · ≠ []) := by simp [hg]
    rw [List.count_eq_zero_of_not_mem hnot]
    exact Nat.zero_le 1
  · rw [List.count_filter (by simpa using hg)]
    exact h g hg

end Descent

open Descent

/-! ### Findings -/

/-- The symbols that the plain descent judges at a site. -/
def Site.plainOccurrences (m : M) (maxDepth : Nat) (s : Site) : List Occurrence :=
  match s.subject with
  | .nameSpace .. => []
  | .symbol _ used => plain m (maxDepth + 1) [] s.kind used

namespace Engine

/-- The findings at a site if symbols are followed wherever they are met. -/
def evaluatePlainly (e : Engine) (m : M) (s : Site) : List Finding :=
  match s.subject with
  | .nameSpace outer inner =>
    ((e.registry.judgeNamespace outer inner).finding? inner outer s.span).toList
  | .symbol context _ =>
    match symbol? m context with
    | none => []
    | some symbol =>
      (s.plainOccurrences m e.maxDepth).filterMap (e.judge m context symbol.name s.span)

/-- Following each generic symbol once loses findings but neither adds nor reorders any, and it loses
none if the plain descent judges no generic symbol more than once. -/
theorem evaluate_refines_plain (e : Engine) (m : M) (s : Site) :
    (e.evaluate m s).Sublist (e.evaluatePlainly m s) ∧
    ((∀ g, argsOf m g ≠ [] →
        ((s.plainOccurrences m e.maxDepth).map Occurrence.used).count g ≤ 1) →
      e.evaluate m s = e.evaluatePlainly m s) := by
  obtain ⟨subject, span, kind⟩ := s
  cases subject with
  | nameSpace outer inner => exact ⟨.refl _, fun _ => rfl⟩
  | symbol context used =>
    cases hc : symbol? m context with
    | none => simp [evaluate, evaluatePlainly, hc]
    | some symbol =>
      simp only [evaluate, evaluatePlainly, hc, Site.plainOccurrences, occurrences]
      refine ⟨(run_sublist_plain _ _ _ _ _).filterMap _, fun hcount => ?_⟩
      rw [run_eq_plain _ _ _ _ _ (fresh_of_count_le_one hcount)]

/-- `List<Box<Leaf>>` has no symbol twice, and both descents judge all three. In
`Pair<List<Box<Leaf>>, Box<Leaf>>` the plain descent judges the `Leaf` below the second `Box` as well. -/
theorem evaluate_refines_plain_boxes :
    ((⟨.forbidAll "no-types" (.ofCategory .type), 32⟩ : Engine).evaluate boxes
        ⟨.symbol ⟨0⟩ ⟨3⟩, {}, .type⟩).map (·.used) = ["List", "Box", "Leaf"] ∧
    (⟨.forbidAll "no-types" (.ofCategory .type), 32⟩ : Engine).evaluate boxes
        ⟨.symbol ⟨0⟩ ⟨3⟩, {}, .type⟩ =
      (⟨.forbidAll "no-types" (.ofCategory .type), 32⟩ : Engine).evaluatePlainly boxes
        ⟨.symbol ⟨0⟩ ⟨3⟩, {}, .type⟩ ∧
    ((⟨.forbidAll "no-types" (.ofCategory .type), 32⟩ : Engine).evaluate boxes
        ⟨.symbol ⟨0⟩ ⟨4⟩, {}, .type⟩).map (·.used) = ["Pair", "List", "Box", "Leaf", "Box"] ∧
    ((⟨.forbidAll "no-types" (.ofCategory .type), 32⟩ : Engine).evaluatePlainly boxes
        ⟨.symbol ⟨0⟩ ⟨4⟩, {}, .type⟩).map (·.used) =
      ["Pair", "List", "Box", "Leaf", "Box", "Leaf"] := by
  have hnodup : ((Site.plainOccurrences boxes 32 ⟨.symbol ⟨0⟩ ⟨3⟩, {}, .type⟩).map
      Occurrence.used).Nodup := by decide
  refine ⟨by decide, ?_, by decide, by decide⟩
  refine (evaluate_refines_plain _ boxes ⟨.symbol ⟨0⟩ ⟨3⟩, {}, .type⟩).2 ?_
  exact fun g _ => List.nodup_iff_count_le_one.mp hnodup g

end Engine

end UsagePolicy
