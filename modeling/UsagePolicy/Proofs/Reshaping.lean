import Mathlib.Data.List.Range
import UsagePolicy.Proofs.Walk

/-! Trees in another shape. The engine sees of a node its kind, its span and its scope, and what it
reports about a tree is what it reports at the stops of a tour through the tree. Nodes that mean
nothing may be dissolved into their children: the tour loses their stops, and no diagnostic. The
children of nodes may be put in another order: the tour takes the same stops in the new order, and
each subtree goes on reporting the same in one piece. -/
namespace UsagePolicy

/-! ### What the engine sees of a node -/

/-- The node without its children. -/
def Node.alone (n : Node) : Node := { n with children := [] }

/-- All of a visit that the engine looks at. -/
def Node.seen (v : Node × Scope) : Node × Scope := (v.1.alone, v.2)

namespace Engine

variable {M : Type} [SymbolModel M]

/-- What a visited node reports. -/
def reported (e : Engine) (m : M) (file : String) (v : Node × Scope) : List Diagnostic :=
  (e.checkNode m v.2 v.1).map (Finding.diagnostic file)

theorem reported_seen (e : Engine) (m : M) (file : String) (v : Node × Scope) :
    e.reported m file (Node.seen v) = e.reported m file v := rfl

/-- What a node and all below it report in a scope. -/
def contribution (e : Engine) (m : M) (file : String) (scope : Scope) (n : Node) : List Diagnostic :=
  (n.visits scope).flatMap (e.reported m file)

theorem diagnostics_eq_contribution (e : Engine) (t : Tree) :
    e.diagnostics t = e.contribution t.symbols t.file .top t.root := by
  rw [diagnostics_eq_map, checkRoot_eq_flatMap, List.map_flatMap]
  rfl

end Engine

/-! ### Tours -/

/-- A visit with its place: the numbers of the children that lead there from the root. -/
structure Stop where
  place : List Nat
  node : Node
  scope : Scope

def Stop.visit (s : Stop) : Node × Scope := (s.node, s.scope)

namespace Node

mutual
/-- The stops at a node and at all below it, in source order. -/
def tour (scope : Scope) (place : List Nat) : Node → List Stop
  | ⟨kind, span, children⟩ =>
    ⟨place, ⟨kind, span, children⟩, scope⟩ ::
      tourAll (scope.enter ⟨kind, span, children⟩) place 0 children

/-- The stops at the children of a place from the `i`-th one on. -/
def tourAll (scope : Scope) (place : List Nat) (i : Nat) : List Node → List Stop
  | [] => []
  | n :: ns => n.tour scope (place ++ [i]) ++ tourAll scope place (i + 1) ns
end

mutual
theorem map_visit_tour (scope : Scope) (place : List Nat) : (n : Node) →
    (n.tour scope place).map Stop.visit = n.visits scope
  | ⟨kind, span, children⟩ => by
    rw [tour, visits, List.map_cons, map_visit_tourAll _ place 0 children]
    rfl

theorem map_visit_tourAll (scope : Scope) (place : List Nat) (i : Nat) : (ns : List Node) →
    (tourAll scope place i ns).map Stop.visit = visitsAll scope ns
  | [] => rfl
  | n :: ns => by
    rw [tourAll, visitsAll, List.map_append, map_visit_tour scope (place ++ [i]) n,
      map_visit_tourAll scope place (i + 1) ns]
end

theorem visitsAll_flatMap (scope : Scope) (ns : List Node) :
    visitsAll scope ns = ns.flatMap (·.visits scope) := by
  rw [visitsAll_eq_flatMap, List.flatMap_map]

end Node

namespace Engine

/-- Visits that look like those of some stops report what these report. -/
theorem flatMap_reported_eq {M : Type} [SymbolModel M] (e : Engine) (m : M) (file : String)
    {visits : List (Node × Scope)} {stops : List Stop}
    (h : visits.map Node.seen = stops.map fun s => Node.seen s.visit) :
    visits.flatMap (e.reported m file) = stops.flatMap fun s => e.reported m file s.visit := by
  have hseen := congrArg (List.flatMap (e.reported m file)) h
  simpa only [List.flatMap_map, reported_seen] using hseen

theorem diagnostics_eq_tour (e : Engine) (t : Tree) :
    e.diagnostics t =
      (t.root.tour .top []).flatMap fun s => e.reported t.symbols t.file s.visit := by
  rw [diagnostics_eq_contribution, contribution, ← t.root.map_visit_tour .top [], List.flatMap_map]

end Engine

/-! ### Nodes that mean nothing -/

/-- Whether a node of this kind neither uses nor declares anything. -/
def NodeKind.isIdle : NodeKind → Bool
  | compilationUnit | other _ => true
  | _ => false

theorem Scope.enter_of_isIdle {n : Node} (h : n.kind.isIdle) (scope : Scope) :
    scope.enter n = scope := by
  obtain ⟨kind, span, children⟩ := n
  cases kind with
  | compilationUnit | other _ => rfl
  | _ => cases h

theorem Engine.reported_of_isIdle {M : Type} [SymbolModel M] {v : Node × Scope}
    (h : v.1.kind.isIdle) (e : Engine) (m : M) (file : String) : e.reported m file v = [] := by
  obtain ⟨⟨kind, span, children⟩, scope⟩ := v
  cases kind with
  | compilationUnit | other _ => rfl
  | _ => cases h

namespace Node

mutual
/-- What a node leaves among its siblings: its children if its place is chosen, else itself; the
chosen nodes below it are replaced as well. -/
def dissolved (chosen : List Nat → Bool) (place : List Nat) : Node → List Node
  | ⟨kind, span, children⟩ =>
    let inner := dissolvedAll chosen place 0 children
    if chosen place then inner else [⟨kind, span, inner⟩]

def dissolvedAll (chosen : List Nat → Bool) (place : List Nat) (i : Nat) : List Node → List Node
  | [] => []
  | n :: ns => n.dissolved chosen (place ++ [i]) ++ dissolvedAll chosen place (i + 1) ns
end

/-- The root of a tree in which each chosen node below it is replaced by its children. -/
def dissolve (chosen : List Nat → Bool) (n : Node) : Node :=
  { n with children := dissolvedAll chosen [] 0 n.children }

theorem dissolved_root {chosen : List Nat → Bool} (hroot : chosen [] = false) (n : Node) :
    n.dissolved chosen [] = [n.dissolve chosen] := by
  obtain ⟨kind, span, children⟩ := n
  simp [dissolved, dissolve, hroot]

variable {chosen : List Nat → Bool}

mutual
/-- The chosen nodes are passed over and all others are seen as before, in the same scopes. -/
theorem visits_dissolved (scope : Scope) (place : List Nat) : (n : Node) →
    (∀ s ∈ n.tour scope place, chosen s.place → s.node.kind.isIdle) →
    (visitsAll scope (n.dissolved chosen place)).map seen =
      ((n.tour scope place).filter fun s => !chosen s.place).map fun s => seen s.visit
  | ⟨kind, span, children⟩, hidle => by
    rw [tour, List.forall_mem_cons] at hidle
    obtain ⟨hself, hbelow⟩ := hidle
    have ih := visits_dissolvedAll _ place 0 children hbelow
    rw [dissolved, tour]
    cases hchosen : chosen place with
    | true =>
      -- an idle node opens the scope that it stands in
      rw [Scope.enter_of_isIdle (hself hchosen)] at ih ⊢
      simpa [hchosen] using ih
    | false =>
      rw [List.filter_cons_of_pos (by simp [hchosen]), List.map_cons, ← ih]
      simp [visitsAll, visits, seen, alone, Stop.visit, Scope.enter]

theorem visits_dissolvedAll (scope : Scope) (place : List Nat) (i : Nat) : (ns : List Node) →
    (∀ s ∈ tourAll scope place i ns, chosen s.place → s.node.kind.isIdle) →
    (visitsAll scope (dissolvedAll chosen place i ns)).map seen =
      ((tourAll scope place i ns).filter fun s => !chosen s.place).map fun s => seen s.visit
  | [], _ => rfl
  | n :: ns, hidle => by
    rw [tourAll, List.forall_mem_append] at hidle
    have hn := visits_dissolved scope (place ++ [i]) n hidle.1
    have hns := visits_dissolvedAll scope place (i + 1) ns hidle.2
    rw [dissolvedAll, tourAll, List.filter_append, List.map_append, ← hn, ← hns, visitsAll_flatMap,
      visitsAll_flatMap, visitsAll_flatMap, List.flatMap_append, List.map_append]
end

end Node

/-- Dissolving nodes that mean nothing, wherever they stand below the root: of the tour only their
stops are lost, and the diagnostics stay as they are. -/
theorem Engine.diagnostics_dissolve (e : Engine) (t : Tree) (chosen : List Nat → Bool)
    (hroot : chosen [] = false)
    (hidle : ∀ s ∈ t.root.tour .top [], chosen s.place → s.node.kind.isIdle) :
    ((t.root.dissolve chosen).visits .top).map Node.seen =
        ((t.root.tour .top []).filter fun s => !chosen s.place).map (fun s => Node.seen s.visit) ∧
      e.diagnostics { t with root := t.root.dissolve chosen } = e.diagnostics t := by
  have hvisits := Node.visits_dissolved .top [] t.root hidle
  rw [Node.dissolved_root hroot, Node.visitsAll_flatMap, List.flatMap_singleton] at hvisits
  refine ⟨hvisits, ?_⟩
  rw [diagnostics_eq_contribution, contribution, e.flatMap_reported_eq t.symbols t.file hvisits,
    diagnostics_eq_tour]
  refine flatMap_filter fun s hs hchosen => ?_
  exact reported_of_isIdle (hidle s hs (by simpa using hchosen)) e t.symbols t.file

/-- Casts to `Leaf` in two types. Parts of the first one stand in regions and blocks. -/
def regionDocument : Tree where
  file := "Regions.cs"
  symbols := ⟨#[.ofTypeName "Host", .ofTypeName "Guest", .ofTypeName "Leaf"]⟩
  root := { kind := .compilationUnit, children := [
    { kind := .other (some "region"), children := [
      { kind := .typeDeclaration (some ⟨0⟩), children := [
        { kind := .other (some "block"), children := [castAt 3,
          { kind := .compilationUnit, children := [castAt 4] }] },
        castAt 5] }] },
    { kind := .typeDeclaration (some ⟨1⟩), children := [castAt 7] }] }
where
  castAt (line : UInt64) : Node := { kind := .cast { type := some ⟨2⟩, span := .start line 9 } }

/-- An engine that forbids `Leaf`. -/
def regionEngine : Engine where
  registry := { usageRules := [{
    name := "no-leaf", category := .type, context := .any, used := .named "Leaf",
    sites := UsageKind.ofSymbols, descriptor := .ofCategory .type }] }

/-- All casts are still reported, in the same order, when the regions and blocks are gone. -/
theorem diagnostics_dissolve_regions :
    (∀ s ∈ regionDocument.root.tour .top [],
      s.place ∈ [[0], [0, 0, 0], [0, 0, 0, 1]] → s.node.kind.isIdle) ∧
    (regionEngine.diagnostics regionDocument).map (·.location.span.line) = [3, 4, 5, 7] ∧
    regionEngine.diagnostics { regionDocument with
      root := regionDocument.root.dissolve fun p => p ∈ [[0], [0, 0, 0], [0, 0, 0, 1]] } =
        regionEngine.diagnostics regionDocument := by
  have hidle : ∀ s ∈ regionDocument.root.tour .top [],
      s.place ∈ [[0], [0, 0, 0], [0, 0, 0, 1]] → s.node.kind.isIdle := by decide
  refine ⟨hidle, ?_, (Engine.diagnostics_dissolve regionEngine regionDocument _ (by decide) ?_).2⟩
  · rw [Engine.diagnostics_eq_tour]
    decide +kernel
  · simpa using hidle

/-! ### Children in another order -/

/-- The entries of a list at some positions, in the order of the positions. -/
def pick {α : Type} (order : List Nat) (as : List α) : List α := order.filterMap (as[·]?)

theorem map_pick {α β : Type} (f : α → β) (order : List Nat) (as : List α) :
    (pick order as).map f = pick order (as.map f) := by
  simp [pick, List.map_filterMap]

theorem pick_perm {α : Type} {order : List Nat} {as : List α}
    (h : order.Perm (List.range as.length)) : (pick order as).Perm as := by
  have hall : pick (List.range as.length) as = as := by
    clear h
    induction as with
    | nil => rfl
    | cons a as ih =>
      rw [pick] at ih ⊢
      rw [List.length_cons, List.range_succ_eq_map, List.filterMap_cons, List.filterMap_map]
      simpa using ih
  have hperm : (pick order as).Perm (pick (List.range as.length) as) := h.filterMap _
  rwa [hall] at hperm

namespace Node

mutual
/-- The tree in which the children of each node stand in the order that is given for its place. -/
def reorder (order : List Nat → List Nat) (place : List Nat) : Node → Node
  | ⟨kind, span, children⟩ => ⟨kind, span, pick (order place) (reorderAll order place 0 children)⟩

def reorderAll (order : List Nat → List Nat) (place : List Nat) (i : Nat) : List Node → List Node
  | [] => []
  | n :: ns => n.reorder order (place ++ [i]) :: reorderAll order place (i + 1) ns
end

mutual
/-- The stops at a node and at all below it, where the children of each node are gone through in the
order that is given for its place, each with all below it. -/
def tourBy (order : List Nat → List Nat) (scope : Scope) (place : List Nat) : Node → List Stop
  | ⟨kind, span, children⟩ =>
    ⟨place, ⟨kind, span, children⟩, scope⟩ ::
      (pick (order place)
        (toursBy order (scope.enter ⟨kind, span, children⟩) place 0 children)).flatten

def toursBy (order : List Nat → List Nat) (scope : Scope) (place : List Nat) (i : Nat) :
    List Node → List (List Stop)
  | [] => []
  | n :: ns => n.tourBy order scope (place ++ [i]) :: toursBy order scope place (i + 1) ns
end

variable {order : List Nat → List Nat}

mutual
theorem visits_reorder (scope : Scope) (place : List Nat) : (n : Node) →
    ((n.reorder order place).visits scope).map seen =
      (n.tourBy order scope place).map fun s => seen s.visit
  | ⟨kind, span, children⟩ => by
    have ih := map_visits_reorderAll (scope.enter ⟨kind, span, children⟩) place 0 children
    rw [reorder, visits, tourBy, visitsAll_flatMap, List.map_cons, List.map_cons, List.map_flatMap,
      List.map_flatten, map_pick, ← ih, ← map_pick, List.flatMap_def]
    rfl

theorem map_visits_reorderAll (scope : Scope) (place : List Nat) (i : Nat) : (ns : List Node) →
    (reorderAll order place i ns).map (fun n => (n.visits scope).map seen) =
      (toursBy order scope place i ns).map fun stops => stops.map fun s => seen s.visit
  | [] => rfl
  | n :: ns => by
    rw [reorderAll, toursBy, List.map_cons, List.map_cons, visits_reorder scope (place ++ [i]) n,
      map_visits_reorderAll scope place (i + 1) ns]
end

theorem length_toursBy (scope : Scope) (place : List Nat) (i : Nat) (ns : List Node) :
    (toursBy order scope place i ns).length = ns.length := by
  induction ns generalizing i with
  | nil => rfl
  | cons n ns ih => rw [toursBy, List.length_cons, List.length_cons, ih]

mutual
/-- In another order the same stops are taken. -/
theorem tourBy_perm (scope : Scope) (place : List Nat) : (n : Node) →
    (∀ s ∈ n.tour scope place, (order s.place).Perm (List.range s.node.children.length)) →
    (n.tourBy order scope place).Perm (n.tour scope place)
  | ⟨kind, span, children⟩, horder => by
    rw [tour, List.forall_mem_cons] at horder
    obtain ⟨hself, hbelow⟩ := horder
    rw [tourBy, tour]
    refine .cons _ (.trans (.flatten (pick_perm ?_)) (toursBy_perm _ place 0 children hbelow))
    rwa [length_toursBy]

theorem toursBy_perm (scope : Scope) (place : List Nat) (i : Nat) : (ns : List Node) →
    (∀ s ∈ tourAll scope place i ns, (order s.place).Perm (List.range s.node.children.length)) →
    (toursBy order scope place i ns).flatten.Perm (tourAll scope place i ns)
  | [], _ => .nil
  | n :: ns, horder => by
    rw [tourAll, List.forall_mem_append] at horder
    rw [toursBy, List.flatten_cons, tourAll]
    exact (tourBy_perm scope (place ++ [i]) n horder.1).append
      (toursBy_perm scope place (i + 1) ns horder.2)
end

end Node

/-! ### Subtrees -/

/-- A node with a gap among its children. -/
structure Frame where
  kind : NodeKind
  span : Span := {}
  left : List Node := []
  right : List Node := []

/-- The node alone. -/
def Frame.head (f : Frame) : Node := { kind := f.kind, span := f.span }

def Frame.fill (f : Frame) (n : Node) : Node := { f.head with children := f.left ++ n :: f.right }

/-- The tree that has a node inside some frames, the outermost one standing first. -/
def Node.inside (frames : List Frame) (n : Node) : Node := frames.foldr Frame.fill n

namespace Engine

variable {M : Type} [SymbolModel M]

/-- A node reports before its children, and these report one after the other. -/
theorem contribution_eq_append (e : Engine) (m : M) (file : String) (scope : Scope) (n : Node) :
    e.contribution m file scope n = e.reported m file (n.alone, scope) ++
      n.children.flatMap (e.contribution m file (scope.enter n)) := by
  obtain ⟨kind, span, children⟩ := n
  rw [contribution, Node.visits, Node.visitsAll_flatMap, List.flatMap_cons, List.flatMap_assoc]
  rfl

/-- What stands in a gap reports in one piece, and what is reported before and after it does not
depend on it. -/
theorem contribution_inside (e : Engine) (m : M) (file : String) (above : List Node)
    (frames : List Frame) : ∃ before after, ∀ n : Node,
      e.contribution m file (Scope.below above) (n.inside frames) = before ++
        e.contribution m file (Scope.below (above ++ frames.map Frame.head)) n ++ after := by
  induction frames generalizing above with
  | nil => exact ⟨[], [], fun n => by simp [Node.inside]⟩
  | cons f frames ih =>
    obtain ⟨before, after, hbelow⟩ := ih (above ++ [f.head])
    rw [Scope.below_concat, List.append_assoc] at hbelow
    refine ⟨e.reported m file (f.head, Scope.below above) ++
      f.left.flatMap (e.contribution m file ((Scope.below above).enter f.head)) ++ before,
      after ++ f.right.flatMap (e.contribution m file ((Scope.below above).enter f.head)), ?_⟩
    intro n
    have hfill : n.inside (f :: frames) = f.fill (n.inside frames) := rfl
    have hchildren : (f.fill (n.inside frames)).children =
      f.left ++ n.inside frames :: f.right := rfl
    have henter : (Scope.below above).enter (f.fill (n.inside frames)) =
      (Scope.below above).enter f.head := rfl
    have halone : (f.fill (n.inside frames)).alone = f.head := rfl
    rw [hfill, contribution_eq_append, hchildren, henter, halone, List.flatMap_append,
      List.flatMap_cons, hbelow n]
    simp

/-- Siblings do not depend on each other. What stands at a place reports in one piece, by itself and
by the scope of the nodes above it, and nothing else of the report depends on it. Where the children
of nodes are put in another order, at any number of places, the report goes through the same stops in
the new order, and it has the same diagnostics. -/
theorem diagnostics_reorder (e : Engine) (t : Tree) :
    (∀ frames : List Frame, ∃ before after, ∀ n : Node,
      e.diagnostics { t with root := n.inside frames } = before ++
        e.contribution t.symbols t.file (Scope.below (frames.map Frame.head)) n ++ after) ∧
    ∀ order : List Nat → List Nat,
      (∀ s ∈ t.root.tour .top [], (order s.place).Perm (List.range s.node.children.length)) →
      e.diagnostics t =
          ((t.root.tour .top []).flatMap fun s => e.reported t.symbols t.file s.visit) ∧
        e.diagnostics { t with root := t.root.reorder order [] } =
          ((t.root.tourBy order .top []).flatMap fun s => e.reported t.symbols t.file s.visit) ∧
        (t.root.tourBy order .top []).Perm (t.root.tour .top []) ∧
        (e.diagnostics { t with root := t.root.reorder order [] }).Perm (e.diagnostics t) := by
  refine ⟨fun frames => ?_, fun order horder => ?_⟩
  · obtain ⟨before, after, hall⟩ := e.contribution_inside t.symbols t.file [] frames
    refine ⟨before, after, fun n => ?_⟩
    rw [diagnostics_eq_contribution]
    exact hall n
  · have hstops := Node.tourBy_perm .top [] t.root horder
    have hreordered : e.diagnostics { t with root := t.root.reorder order [] } =
        (t.root.tourBy order .top []).flatMap fun s => e.reported t.symbols t.file s.visit := by
      rw [diagnostics_eq_contribution, contribution]
      exact e.flatMap_reported_eq t.symbols t.file (Node.visits_reorder .top [] t.root)
    refine ⟨e.diagnostics_eq_tour t, hreordered, hstops, ?_⟩
    rw [hreordered, e.diagnostics_eq_tour t]
    exact hstops.flatMap_right _

/-- The last child first at three places of `regionDocument`. -/
def regionOrder (place : List Nat) : List Nat :=
  if place ∈ [[], [0, 0], [0, 0, 0]] then [1, 0]
  else if place ∈ [[0], [1], [0, 0, 0, 1]] then [0] else []

theorem diagnostics_reorder_regions :
    (∀ s ∈ regionDocument.root.tour .top [],
      (regionOrder s.place).Perm (List.range s.node.children.length)) ∧
    (regionEngine.diagnostics { regionDocument with
      root := regionDocument.root.reorder regionOrder [] }).map (·.location.span.line) =
        [7, 5, 4, 3] ∧
    (regionEngine.diagnostics { regionDocument with
      root := regionDocument.root.reorder regionOrder [] }).Perm
        (regionEngine.diagnostics regionDocument) := by
  have horder : ∀ s ∈ regionDocument.root.tour .top [],
      (regionOrder s.place).Perm (List.range s.node.children.length) := by decide
  obtain ⟨-, hreordered, -, hperm⟩ :=
    (diagnostics_reorder regionEngine regionDocument).2 regionOrder horder
  refine ⟨horder, ?_, hperm⟩
  rw [hreordered]
  decide +kernel

end Engine

end UsagePolicy
