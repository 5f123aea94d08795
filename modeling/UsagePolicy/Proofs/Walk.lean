import UsagePolicy.Engine

/-! The engine's own walk against a walk that a host drives. The engine works a list of nodes off,
keeps a scope beside each node and hands over its findings at the end; a host goes down the tree by
recursion, enters scopes on the way and reports node by node. Both leave the same sink. -/
namespace UsagePolicy

/-! ### Nodes and their ancestors -/

/-- The scope behind a list of ancestors, entered from the outermost one inwards. -/
def Scope.below (above : List Node) : Scope := above.foldl Scope.enter .top

@[simp] theorem Scope.below_nil : Scope.below [] = .top := rfl

theorem Scope.below_concat (above : List Node) (n : Node) :
    Scope.below (above ++ [n]) = (Scope.below above).enter n := by
  simp [Scope.below]

namespace Node

mutual
/-- A node and all below it in source order, each with its ancestors, the outermost one first. -/
def placed (above : List Node) : Node → List (List Node × Node)
  | ⟨kind, span, children⟩ =>
    (above, ⟨kind, span, children⟩) :: placedAll (above ++ [⟨kind, span, children⟩]) children

def placedAll (above : List Node) : List Node → List (List Node × Node)
  | [] => []
  | n :: ns => n.placed above ++ placedAll above ns
end

mutual
/-- The scope that the recursion hands down is the one that the ancestors make. -/
theorem visits_below (above : List Node) : (n : Node) →
    n.visits (Scope.below above) = (n.placed above).map fun p => (p.2, Scope.below p.1)
  | ⟨kind, span, children⟩ => by
    rw [visits, placed, List.map_cons, ← Scope.below_concat, visitsAll_below]

theorem visitsAll_below (above : List Node) : (ns : List Node) →
    visitsAll (Scope.below above) ns = (placedAll above ns).map fun p => (p.2, Scope.below p.1)
  | [] => rfl
  | n :: ns => by
    rw [visitsAll, placedAll, List.map_append, visits_below above n, visitsAll_below above ns]
end

theorem visitsAll_eq_flatMap (scope : Scope) (ns : List Node) :
    visitsAll scope ns = (ns.map (·, scope)).flatMap fun w => w.1.visits w.2 := by
  induction ns with
  | nil => rfl
  | cons n ns ih => rw [visitsAll, ih, List.map_cons, List.flatMap_cons]

/-- A node is visited before its children, which are visited in the scope that it opens. -/
theorem visits_eq_cons (scope : Scope) (n : Node) :
    n.visits scope = (n, scope) :: (Engine.opened scope n).flatMap fun w => w.1.visits w.2 := by
  obtain ⟨kind, span, children⟩ := n
  rw [visits, visitsAll_eq_flatMap, Engine.opened]

end Node

/-- Entries that add nothing can be left out. -/
theorem flatMap_filter {α β : Type} {f : α → List β} {p : α → Bool} {as : List α}
    (hskip : ∀ a ∈ as, p a = false → f a = []) : (as.filter p).flatMap f = as.flatMap f := by
  induction as with
  | nil => rfl
  | cons a as ih =>
    rw [List.forall_mem_cons] at hskip
    cases ha : p a with
    | true => rw [List.filter_cons_of_pos ha, List.flatMap_cons, List.flatMap_cons, ih hskip.2]
    | false =>
      rw [List.filter_cons_of_neg (by simp [ha]), List.flatMap_cons, hskip.1 ha, ih hskip.2,
        List.nil_append]

/-! ### The work list -/

namespace Engine

variable {M S : Type} [SymbolModel M] [DiagnosticSink S]

/-- Whatever is still to be visited, the walk adds the findings of all nodes below it in source
order. -/
theorem walk_eq_append (e : Engine) (m : M) (found : Array Finding) (work : List (Node × Scope)) :
    e.walk m found work = found ++
      ((work.flatMap fun w => w.1.visits w.2).flatMap fun v => e.checkNode m v.2 v.1).toArray := by
  fun_induction walk e m found work with
  | case1 found => simp
  | case2 found n scope rest ih =>
    -- the children stand before the rest of the work, where pre-order wants them
    rw [ih, List.flatMap_append, List.flatMap_cons, n.visits_eq_cons scope, List.cons_append,
      List.flatMap_cons, ← List.append_toArray, Array.append_assoc]

theorem checkRoot_eq_flatMap (e : Engine) (m : M) (root : Node) :
    e.checkRoot m root = (root.visits .top).flatMap fun v => e.checkNode m v.2 v.1 := by
  rw [checkRoot, walk_eq_append]
  simp

/-! ### Sinks -/

theorem emit_flatMap {α : Type} (file : String) (found : α → List Finding) (as : List α) (sink : S) :
    emit file (as.flatMap found) sink = as.foldl (fun sink a => emit file (found a) sink) sink := by
  simp only [emit, List.foldl_flatMap]

theorem emit_array (file : String) (found : List Finding) (sink : Array Diagnostic) :
    emit file found sink = sink ++ (found.map (Finding.diagnostic file)).toArray := by
  induction found generalizing sink with
  | nil => simp [emit]
  | cons f found ih =>
    change emit file found (sink.push (f.diagnostic file)) = _
    rw [ih, List.map_cons]
    simp

theorem diagnostics_eq_map (e : Engine) (t : Tree) :
    e.diagnostics t = (e.checkRoot t.symbols t.root).map (Finding.diagnostic t.file) := by
  simp [diagnostics, reportRoot, emit_array]

/-- The walk of the engine leaves any sink as it is left by a host that goes through the nodes in
source order and reports each one in the scope of its ancestors; a sink that stores diagnostics
keeps what it held, and what the host reports to an empty one comes after it. -/
theorem reportRoot_eq_host_driven (e : Engine) (m : M) (file : String) (root : Node) :
    (∀ sink : S, e.reportRoot m file root sink =
      (root.placed []).foldl (fun sink p => e.reportNode m file (Scope.below p.1) p.2 sink) sink) ∧
    ∀ sink : Array Diagnostic, e.reportRoot m file root sink = sink ++
      (root.placed []).foldl (fun sink p => e.reportNode m file (Scope.below p.1) p.2 sink) #[] := by
  have hfound : e.checkRoot m root =
      (root.placed []).flatMap fun p => e.checkNode m (Scope.below p.1) p.2 := by
    rw [checkRoot_eq_flatMap, ← Scope.below_nil, Node.visits_below, List.flatMap_map]
  constructor
  · intro sink
    rw [reportRoot, hfound, emit_flatMap]
    rfl
  · intro sink
    have hempty : (root.placed []).foldl
        (fun sink p => e.reportNode m file (Scope.below p.1) p.2 sink) #[] =
        emit file (e.checkRoot m root) (#[] : Array Diagnostic) := by
      rw [hfound, emit_flatMap]
      rfl
    rw [hempty, reportRoot, emit_array, emit_array, Array.empty_append]

end Engine

end UsagePolicy
