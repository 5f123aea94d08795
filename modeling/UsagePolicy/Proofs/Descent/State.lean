import Mathlib.Data.Finset.Dedup
import Mathlib.Data.Finset.Insert
import UsagePolicy.Proofs.Descent.Size
import UsagePolicy.Proofs.Descent.Verdicts

/-! The descent as its calls carry it out. All calls at a site share one state: a path, to which a
symbol is added while its arguments are gone through and from which it is taken afterwards, a set of
the symbols whose arguments have been followed, and the findings so far. Here the calls are rules
between states, with nothing that makes them end; the main result is what holds of the state at every
call, and that each call ends, with the path as it was. The findings are made on the way, but no call
looks at them, so that all registries lead to the same calls. -/
namespace UsagePolicy

open SymbolModel

namespace Descent

/-! ### States -/

structure State where
  /-- The symbols whose arguments are being gone through, the outermost one first. -/
  path : List SymbolId := []
  /-- The symbols whose arguments have been followed, those on the path included. -/
  expanded : Finset SymbolId := ∅
  out : List Finding := []

namespace State

variable (s : State) (g : SymbolId)

def report (f : Option Finding) : State := { s with out := s.out ++ f.toList }

def mark : State := { s with expanded := insert g s.expanded }

def push : State := { s with path := s.path ++ [g] }

def pop : State := { s with path := s.path.dropLast }

@[simp] theorem pop_path : s.pop.path = s.path.dropLast := rfl

end State

/-! ### Calls -/

/-- Who asks about symbols: a context, with its name, at a place. -/
structure Asker where
  context : SymbolId
  name : String
  span : Span

variable {M : Type} [SymbolModel M]

/-- The state after a symbol has been judged, without its arguments. -/
def State.judging (s : State) (e : Engine) (m : M) (a : Asker) (kind : UsageKind) (u : SymbolId) :
    State :=
  s.report (e.judge m a.context a.name a.span ⟨u, kind⟩)

/-- The state in which the arguments of a symbol are begun. -/
def State.opening (s : State) (e : Engine) (m : M) (a : Asker) (kind : UsageKind) (u : SymbolId) :
    State :=
  ((s.judging e m a kind u).mark u).push u

@[simp] theorem State.opening_path (s : State) (e : Engine) (m : M) (a : Asker) (kind : UsageKind)
    (u : SymbolId) : (s.opening e m a kind u).path = s.path ++ [u] := rfl

@[simp] theorem State.opening_expanded (s : State) (e : Engine) (m : M) (a : Asker)
    (kind : UsageKind) (u : SymbolId) :
    (s.opening e m a kind u).expanded = insert u s.expanded := rfl

/-- A call gets as far as the symbol behind its handle. -/
structure Enters (e : Engine) (m : M) (s : State) (u : SymbolId) (symbol : Symbol) : Prop where
  notMem_path : u ∉ s.path
  length_le : s.path.length ≤ e.maxDepth
  symbol_eq : symbol? m u = some symbol

mutual

/-- A call for a symbol finds a state and leaves one behind. -/
inductive Visits (e : Engine) (m : M) (a : Asker) : State → UsageKind → SymbolId → State → Prop
  | cycle {s : State} {kind : UsageKind} {u : SymbolId} (hpath : u ∈ s.path) :
    Visits e m a s kind u s
  | tooDeep {s : State} {kind : UsageKind} {u : SymbolId} (hdeep : e.maxDepth < s.path.length) :
    Visits e m a s kind u s
  | dangling {s : State} {kind : UsageKind} {u : SymbolId} (hu : symbol? m u = none) :
    Visits e m a s kind u s
  | leaf {s : State} {kind : UsageKind} {u : SymbolId} {symbol : Symbol}
    (henters : Enters e m s u symbol) (hargs : symbol.typeArgs = []) :
    Visits e m a s kind u (s.judging e m a kind u)
  | again {s : State} {kind : UsageKind} {u : SymbolId} {symbol : Symbol}
    (henters : Enters e m s u symbol) (hmarked : u ∈ s.expanded) :
    Visits e m a s kind u (s.judging e m a kind u)
  | follow {s s' : State} {kind : UsageKind} {u : SymbolId} {symbol : Symbol}
    (henters : Enters e m s u symbol) (hargs : symbol.typeArgs ≠ []) (hnew : u ∉ s.expanded)
    (hloop : Loops e m a (s.opening e m a kind u) symbol.typeArgs s') :
    Visits e m a s kind u s'.pop

/-- The calls for some arguments, one after the other. -/
inductive Loops (e : Engine) (m : M) (a : Asker) : State → List SymbolId → State → Prop
  | done {s : State} : Loops e m a s [] s
  | next {s s' s'' : State} {arg : SymbolId} {args : List SymbolId}
    (hvisit : Visits e m a s .typeArgument arg s') (hrest : Loops e m a s' args s'') :
    Loops e m a s (arg :: args) s''

end

/-- The calls that are made once there is one for the used symbol: a symbol that is followed has one
made for each argument, in the state that the calls for those before it leave. -/
inductive Makes (e : Engine) (m : M) (a : Asker) (kind : UsageKind) (u : SymbolId) :
    State → UsageKind → SymbolId → Prop
  | site : Makes e m a kind u {} kind u
  | argument {s s' : State} {as : UsageKind} {g arg : SymbolId} {symbol : Symbol}
    {before after : List SymbolId} (hmade : Makes e m a kind u s as g)
    (henters : Enters e m s g symbol) (hnew : g ∉ s.expanded)
    (hargs : symbol.typeArgs = before ++ arg :: after)
    (hloop : Loops e m a (s.opening e m a as g) before s') :
    Makes e m a kind u s' .typeArgument arg

variable {e : Engine} {m : M} {a : Asker}

/-! ### What a call leaves alone -/

mutual

theorem Visits.path_eq : ∀ {s s' : State} {kind : UsageKind} {u : SymbolId},
    Visits e m a s kind u s' → s'.path = s.path
  | _, _, _, _, .cycle _ => rfl
  | _, _, _, _, .tooDeep _ => rfl
  | _, _, _, _, .dangling _ => rfl
  | _, _, _, _, .leaf _ _ => rfl
  | _, _, _, _, .again _ _ => rfl
  | _, _, _, _, .follow _ _ _ hloop => by
    -- what the loop leaves is the path with the symbol at its end, which is then taken off
    rw [State.pop_path, Loops.path_eq hloop, State.opening_path, List.dropLast_concat]

theorem Loops.path_eq : ∀ {s s' : State} {args : List SymbolId},
    Loops e m a s args s' → s'.path = s.path
  | _, _, _, .done => rfl
  | _, _, _, .next hvisit hrest => (Loops.path_eq hrest).trans (Visits.path_eq hvisit)

end

mutual

theorem Visits.expanded_subset : ∀ {s s' : State} {kind : UsageKind} {u : SymbolId},
    Visits e m a s kind u s' → s.expanded ⊆ s'.expanded
  | _, _, _, _, .cycle _ => Finset.Subset.refl _
  | _, _, _, _, .tooDeep _ => Finset.Subset.refl _
  | _, _, _, _, .dangling _ => Finset.Subset.refl _
  | _, _, _, _, .leaf _ _ => Finset.Subset.refl _
  | _, _, _, _, .again _ _ => Finset.Subset.refl _
  | _, _, _, _, .follow _ _ _ hloop =>
    (Finset.subset_insert _ _).trans (Loops.expanded_subset hloop)

theorem Loops.expanded_subset : ∀ {s s' : State} {args : List SymbolId},
    Loops e m a s args s' → s.expanded ⊆ s'.expanded
  | _, _, _, .done => Finset.Subset.refl _
  | _, _, _, .next hvisit hrest =>
    (Visits.expanded_subset hvisit).trans (Loops.expanded_subset hrest)

end

/-! ### What a call comes to -/

/-- The state after the part of a descent that a run describes. -/
def State.ending (s : State) (e : Engine) (m : M) (a : Asker)
    (r : List Occurrence × List SymbolId) : State where
  path := s.path
  expanded := r.2.toFinset
  out := s.out ++ r.1.filterMap (e.judge m a.context a.name a.span)

theorem State.ending_nil {s : State} {expanded : List SymbolId}
    (hexpanded : expanded.toFinset = s.expanded) : s.ending e m a ([], expanded) = s := by
  simp [ending, hexpanded]

theorem State.ending_single {s : State} {expanded : List SymbolId}
    (hexpanded : expanded.toFinset = s.expanded) (kind : UsageKind) (u : SymbolId) :
    s.ending e m a ([⟨u, kind⟩], expanded) = s.judging e m a kind u := by
  cases h : e.judge m a.context a.name a.span ⟨u, kind⟩ <;>
    simp [ending, judging, report, hexpanded, h]

theorem State.ending_opening (s : State) (kind : UsageKind) (u : SymbolId)
    (r : List Occurrence × List SymbolId) :
    ((s.opening e m a kind u).ending e m a r).pop = s.ending e m a (⟨u, kind⟩ :: r.1, r.2) := by
  cases h : e.judge m a.context a.name a.span ⟨u, kind⟩ <;>
    simp [ending, opening, judging, report, mark, push, pop, h]

theorem run_of_stops {path expanded : List SymbolId} {u : SymbolId} {symbol : Symbol} (room : Nat)
    (kind : UsageKind) (hpath : u ∉ path) (hu : symbol? m u = some symbol)
    (hstop : symbol.typeArgs = [] ∨ u ∈ expanded) :
    run m (room + 1) path expanded kind u = ([⟨u, kind⟩], expanded) := by
  simp [run, hpath, hu, hstop]

theorem run_of_goesOn {path expanded : List SymbolId} {u : SymbolId} {symbol : Symbol} (room : Nat)
    (kind : UsageKind) (hpath : u ∉ path) (hu : symbol? m u = some symbol)
    (hargs : symbol.typeArgs ≠ []) (hnew : u ∉ expanded) :
    run m (room + 1) path expanded kind u =
      (⟨u, kind⟩ :: (gather (fun expanded arg =>
        run m room (u :: path) expanded .typeArgument arg) (u :: expanded) symbol.typeArgs).1,
      (gather (fun expanded arg =>
        run m room (u :: path) expanded .typeArgument arg) (u :: expanded) symbol.typeArgs).2) := by
  simp [run, hpath, hu, hargs, hnew]

/-- The calls for some arguments do what the runs for them describe, if each call does. -/
theorem loops_gather {room : Nat} {s : State} {expanded : List SymbolId}
    (hvisits : ∀ (s' : State) (expanded : List SymbolId) (arg : SymbolId), s'.path = s.path →
      expanded.toFinset = s'.expanded → Visits e m a s' .typeArgument arg
        (s'.ending e m a (run m room s.path.reverse expanded .typeArgument arg)))
    (hexpanded : expanded.toFinset = s.expanded) (args : List SymbolId) :
    Loops e m a s args (s.ending e m a (gather (fun expanded arg =>
      run m room s.path.reverse expanded .typeArgument arg) expanded args)) := by
  induction args generalizing s expanded with
  | nil =>
    rw [gather, State.ending_nil hexpanded]
    exact .done
  | cons arg args ih =>
    have hfirst := hvisits s expanded arg rfl hexpanded
    have hrest := ih (s := s.ending e m a (run m room s.path.reverse expanded .typeArgument arg))
      hvisits rfl
    rw [gather_cons]
    refine .next hfirst ?_
    convert hrest using 1
    simp [State.ending]

theorem Enters.notMem_reverse {s : State} {u : SymbolId} {symbol : Symbol}
    (h : Enters e m s u symbol) : u ∉ s.path.reverse := by
  simpa using h.notMem_path

theorem Enters.exists_room {s : State} {u : SymbolId} {symbol : Symbol} (h : Enters e m s u symbol)
    {room : Nat} (hroom : room + s.path.length = e.maxDepth + 1) : ∃ rest, room = rest + 1 := by
  have hle := h.length_le
  exact ⟨room - 1, by omega⟩

/-- Each call ends, and does what the run for its symbol describes. -/
theorem visits_run (room : Nat) {s : State} {expanded : List SymbolId}
    (hroom : room + s.path.length = e.maxDepth + 1) (hexpanded : expanded.toFinset = s.expanded)
    (kind : UsageKind) (u : SymbolId) : Visits e m a s kind u
      (s.ending e m a (run m room s.path.reverse expanded kind u)) := by
  induction room generalizing s expanded kind u with
  | zero =>
    rw [run, State.ending_nil hexpanded]
    exact .tooDeep (by omega)
  | succ room ih =>
    by_cases hpath : u ∈ s.path
    · rw [run, if_pos (List.mem_reverse.mpr hpath), State.ending_nil hexpanded]
      exact .cycle hpath
    cases hu : symbol? m u with
    | none =>
      have hrun : run m (room + 1) s.path.reverse expanded kind u = ([], expanded) := by
        simp [run, hu]
      rw [hrun, State.ending_nil hexpanded]
      exact .dangling hu
    | some symbol =>
      have henters : Enters e m s u symbol := ⟨hpath, by omega, hu⟩
      have hmarked : u ∈ expanded ↔ u ∈ s.expanded := by rw [← hexpanded, List.mem_toFinset]
      by_cases hargs : symbol.typeArgs = []
      · rw [run_of_stops room kind henters.notMem_reverse hu (.inl hargs),
          State.ending_single hexpanded]
        exact .leaf henters hargs
      by_cases hold : u ∈ expanded
      · rw [run_of_stops room kind henters.notMem_reverse hu (.inr hold),
          State.ending_single hexpanded]
        exact .again henters (hmarked.mp hold)
      rw [run_of_goesOn room kind henters.notMem_reverse hu hargs hold, ← State.ending_opening]
      refine .follow henters hargs (fun h => hold (hmarked.mpr h)) ?_
      -- the arguments are gone through with the symbol at the end of the path
      rw [← List.reverse_concat, ← State.opening_path s e m a kind u]
      refine loops_gather ?_ (by simp [hexpanded]) symbol.typeArgs
      intro s' expanded' arg hpath' hexpanded'
      rw [← hpath']
      refine ih ?_ hexpanded' .typeArgument arg
      rw [hpath', State.opening_path, List.length_append, List.length_singleton]
      omega

mutual

/-- A call can end in one way only. -/
theorem Visits.eq_ending : ∀ {s s' : State} {kind : UsageKind} {u : SymbolId},
    Visits e m a s kind u s' → ∀ (room : Nat) (expanded : List SymbolId),
    room + s.path.length = e.maxDepth + 1 → expanded.toFinset = s.expanded →
    s' = s.ending e m a (run m room s.path.reverse expanded kind u)
  | s, _, kind, u, .cycle hpath => by
    intro room expanded _ hexpanded
    have hrun : run m room s.path.reverse expanded kind u = ([], expanded) := by
      cases room <;> simp [run, hpath]
    rw [hrun, State.ending_nil hexpanded]
  | _, _, _, _, .tooDeep hdeep => by
    intro room expanded hroom hexpanded
    obtain rfl : room = 0 := by omega
    rw [run, State.ending_nil hexpanded]
  | s, _, kind, u, .dangling hu => by
    intro room expanded _ hexpanded
    have hrun : run m room s.path.reverse expanded kind u = ([], expanded) := by
      cases room <;> simp [run, hu]
    rw [hrun, State.ending_nil hexpanded]
  | _, _, kind, _, .leaf henters hargs => by
    intro room expanded hroom hexpanded
    obtain ⟨room, rfl⟩ := henters.exists_room hroom
    rw [run_of_stops room kind henters.notMem_reverse henters.symbol_eq (.inl hargs),
      State.ending_single hexpanded]
  | _, _, kind, _, .again henters hmarked => by
    intro room expanded hroom hexpanded
    obtain ⟨room, rfl⟩ := henters.exists_room hroom
    rw [← hexpanded, List.mem_toFinset] at hmarked
    rw [run_of_stops room kind henters.notMem_reverse henters.symbol_eq (.inr hmarked),
      State.ending_single hexpanded]
  | _, _, kind, u, .follow henters hargs hnew hloop => by
    intro room expanded hroom hexpanded
    obtain ⟨room, rfl⟩ := henters.exists_room hroom
    rw [← hexpanded, List.mem_toFinset] at hnew
    have hends := Loops.eq_ending hloop room (u :: expanded)
      (by rw [State.opening_path, List.length_append, List.length_singleton]; omega)
      (by simp [hexpanded])
    rw [run_of_goesOn room kind henters.notMem_reverse henters.symbol_eq hargs hnew,
      ← State.ending_opening, hends, State.opening_path, List.reverse_concat]

theorem Loops.eq_ending : ∀ {s s' : State} {args : List SymbolId},
    Loops e m a s args s' → ∀ (room : Nat) (expanded : List SymbolId),
    room + s.path.length = e.maxDepth + 1 → expanded.toFinset = s.expanded →
    s' = s.ending e m a (gather (fun expanded arg =>
      run m room s.path.reverse expanded .typeArgument arg) expanded args)
  | _, _, _, .done => by
    intro room expanded _ hexpanded
    rw [gather, State.ending_nil hexpanded]
  | _, _, _, .next hvisit hrest => by
    intro room expanded hroom hexpanded
    have hfirst := Visits.eq_ending hvisit room expanded hroom hexpanded
    have hlast := Loops.eq_ending hrest room
    subst hfirst
    rw [hlast _ hroom rfl, gather_cons]
    simp [State.ending]

end

/-- Calls end wherever the path is not too long, so far as the bound lets a path grow. -/
theorem existsUnique_visits {s : State} (hlength : s.path.length ≤ e.maxDepth + 1) (kind : UsageKind)
    (u : SymbolId) : ∃! s', Visits e m a s kind u s' := by
  have hroom : e.maxDepth + 1 - s.path.length + s.path.length = e.maxDepth + 1 := by omega
  have hexpanded : s.expanded.toList.toFinset = s.expanded := s.expanded.toList_toFinset
  exact ⟨_, visits_run _ hroom hexpanded kind u, fun s' h => h.eq_ending _ _ hroom hexpanded⟩

/-! ### Verdicts on the way -/

/-- Rules do not show in what a call leaves on the path and among the marks. -/
theorem Visits.alike {r r' : Registry} {maxDepth : Nat} {s s' t t' : State} {kind : UsageKind}
    {u : SymbolId} (hs : Visits ⟨r, maxDepth⟩ m a s kind u s')
    (ht : Visits ⟨r', maxDepth⟩ m a t kind u t') (hpath : t.path = s.path)
    (hexpanded : t.expanded = s.expanded) (hlength : s.path.length ≤ maxDepth + 1) :
    t'.path = s'.path ∧ t'.expanded = s'.expanded := by
  have hroom : maxDepth + 1 - s.path.length + s.path.length = maxDepth + 1 := by omega
  have hmarks : s.expanded.toList.toFinset = s.expanded := s.expanded.toList_toFinset
  rw [hs.eq_ending _ _ hroom hmarks, ht.eq_ending _ _ (hpath ▸ hroom) (hmarks.trans hexpanded.symm)]
  simp [State.ending, hpath]

/-- The call that a site makes puts out the findings of the site. -/
theorem Visits.out_eq_evaluate {site : Site} {context u : SymbolId} {c : Symbol} {s : State}
    (h : Visits e m ⟨context, c.name, site.span⟩ {} site.kind u s)
    (hsite : site.subject = .symbol context u) (hc : symbol? m context = some c) :
    s.out = e.evaluate m site := by
  rw [h.eq_ending (e.maxDepth + 1) [] rfl List.toFinset_nil]
  simp [State.ending, Engine.evaluate, hsite, hc, occurrences]

/-! ### What holds at every call -/

/-- What a call for a symbol can rely on. -/
structure State.Sound (s : State) (m : M) (maxDepth : Nat) (u : SymbolId) : Prop where
  nodup : s.path.Nodup
  generic : ∀ g ∈ s.path, ∃ symbol, symbol? m g = some symbol ∧ symbol.typeArgs ≠ []
  /-- Each symbol on the path lists the next one, and the last one lists the symbol of the call. -/
  listed : (s.path ++ [u]).IsChain (Lists m)
  marked : ∀ g ∈ s.path, g ∈ s.expanded
  length_le : s.path.length ≤ maxDepth + 1

theorem State.sound_empty (m : M) (maxDepth : Nat) (u : SymbolId) :
    ({} : State).Sound m maxDepth u where
  nodup := List.nodup_nil
  generic := nofun
  listed := List.isChain_singleton u
  marked := nofun
  length_le := Nat.zero_le _

/-- A symbol that has arguments and stands on no path yet may go to the end of it. -/
theorem State.Sound.opening {s : State} {kind : UsageKind} {g arg : SymbolId} {symbol : Symbol}
    (h : s.Sound m e.maxDepth g) (henters : Enters e m s g symbol) (harg : arg ∈ symbol.typeArgs) :
    (s.opening e m a kind g).Sound m e.maxDepth arg where
  nodup := by
    rw [opening_path, List.nodup_append_comm]
    exact List.nodup_cons.mpr ⟨henters.notMem_path, h.nodup⟩
  generic := by
    intro b hb
    rcases List.mem_append.mp hb with hb | hb
    · exact h.generic b hb
    · obtain rfl := List.mem_singleton.mp hb
      exact ⟨symbol, henters.symbol_eq, List.ne_nil_of_mem harg⟩
  listed := by
    have hlists : Lists m g arg := by rwa [Lists, argsOf_of_some henters.symbol_eq]
    rw [opening_path, List.append_assoc, List.singleton_append, List.isChain_append_cons_cons]
    exact ⟨h.listed, hlists, List.isChain_singleton arg⟩
  marked := by
    intro b hb
    rw [opening_expanded, Finset.mem_insert]
    rcases List.mem_append.mp hb with hb | hb
    · exact .inr (h.marked b hb)
    · exact .inl (List.mem_singleton.mp hb)
  length_le := by
    have hle := henters.length_le
    rw [opening_path, List.length_append, List.length_singleton]
    omega

/-- Only the path and the symbols on it matter. -/
theorem State.Sound.of_path_eq {s s' : State} {maxDepth : Nat} {u : SymbolId}
    (h : s.Sound m maxDepth u) (hpath : s'.path = s.path) (hsubset : s.expanded ⊆ s'.expanded) :
    s'.Sound m maxDepth u where
  nodup := hpath ▸ h.nodup
  generic := hpath ▸ h.generic
  listed := hpath ▸ h.listed
  marked g hg := hsubset (h.marked g (hpath ▸ hg))
  length_le := hpath ▸ h.length_le

theorem Makes.sound {kind as : UsageKind} {u v : SymbolId} {s : State}
    (h : Makes e m a kind u s as v) : s.Sound m e.maxDepth v := by
  induction h with
  | site => exact State.sound_empty m e.maxDepth u
  | @argument s s' as g arg symbol before after _ henters _ hargs hloop ih =>
    have harg : arg ∈ symbol.typeArgs := by simp [hargs]
    -- the calls for the arguments before this one have changed nothing that matters
    exact (ih.opening henters harg).of_path_eq hloop.path_eq hloop.expanded_subset

end Descent

namespace Engine

open Descent

variable {M : Type} [SymbolModel M]

/-- The calls that a site with a known context makes evaluate it. Each of them finds a path without
repetitions on which every symbol has arguments, lists the next one and has been marked, the last one
listing the symbol of the call, and which is at most one symbol longer than the bound; it ends, in
one way, with this path and with the marks that it has found. -/
theorem descent_state_sound (e : Engine) (m : M) (site : Site) (context u : SymbolId) (c : Symbol)
    (hsite : site.subject = .symbol context u) (hc : symbol? m context = some c) :
    (∃ s, Visits e m ⟨context, c.name, site.span⟩ {} site.kind u s ∧ s.out = e.evaluate m site) ∧
    ∀ s kind v, Makes e m ⟨context, c.name, site.span⟩ site.kind u s kind v →
      s.Sound m e.maxDepth v ∧
      (∃! s', Visits e m ⟨context, c.name, site.span⟩ s kind v s') ∧
      ∀ s', Visits e m ⟨context, c.name, site.span⟩ s kind v s' →
        s'.path = s.path ∧ s.expanded ⊆ s'.expanded := by
  constructor
  · have hends : ∃! s, Visits e m ⟨context, c.name, site.span⟩ {} site.kind u s :=
      existsUnique_visits (Nat.zero_le _) site.kind u
    obtain ⟨s, hvisit⟩ := hends.exists
    exact ⟨s, hvisit, hvisit.out_eq_evaluate hsite hc⟩
  · intro s kind v hmade
    have hsound := hmade.sound
    refine ⟨hsound, existsUnique_visits hsound.length_le kind v, ?_⟩
    exact fun s' hvisit => ⟨hvisit.path_eq, hvisit.expanded_subset⟩

/-- In `Knot<Pair, Knot>` the second argument has its call made in the state that the call for `Pair`
leaves behind: `Knot` stands alone on the path, as before. -/
theorem descent_state_sound_knots : ∃ s,
    Makes ⟨{}, 5⟩ knots ⟨⟨0⟩, "Run", {}⟩ .type ⟨1⟩ s .typeArgument ⟨1⟩ ∧
    s.path = [⟨1⟩] ∧ s.Sound knots 5 ⟨1⟩ := by
  have hall := (descent_state_sound ⟨{}, 5⟩ knots ⟨.symbol ⟨0⟩ ⟨1⟩, {}, .type⟩ ⟨0⟩ ⟨1⟩
    { name := "Run", kind := .method none [] } rfl rfl).2
  have henters : Enters ⟨{}, 5⟩ knots {} ⟨1⟩ { name := "Knot", kind := .type [⟨2⟩, ⟨1⟩] none } :=
    ⟨by simp, Nat.zero_le _, rfl⟩
  have hpair : Makes ⟨{}, 5⟩ knots ⟨⟨0⟩, "Run", {}⟩ .type ⟨1⟩ _ .typeArgument ⟨2⟩ :=
    .argument .site henters (by simp) rfl .done
  obtain ⟨-, ⟨s, hvisit, -⟩, hkeeps⟩ := hall _ _ _ hpair
  have hknot : Makes ⟨{}, 5⟩ knots ⟨⟨0⟩, "Run", {}⟩ .type ⟨1⟩ s .typeArgument ⟨1⟩ :=
    .argument .site henters (by simp) rfl (.next hvisit .done)
  exact ⟨s, hknot, (hkeeps s hvisit).1, (hall _ _ _ hknot).1⟩

/-- A site makes the same calls under all registries. Beside the findings that the rule against
everything makes on the way, any registry makes some of them, by its own rules and in the same order,
and both end with the same path and the same marks. -/
theorem visits_revised (m : M) (context u : SymbolId) (span : Span) (kind : UsageKind)
    (hkind : kind ≠ .nameSpace) (c : Symbol) (hc : symbol? m context = some c) (maxDepth : Nat) :
    ∃ symbols : List SymbolId, symbols.head? = ((symbol? m u).map fun _ => u) ∧
      ∀ (name : String) (descriptor : Descriptor) (s : State),
        Visits ⟨.forbidAll name descriptor, maxDepth⟩ m ⟨context, c.name, span⟩ {} kind u s →
        (s.out = symbols.map fun v => ⟨name, descriptor, nameOf m v, c.name, span⟩) ∧
        ∀ (r : Registry) (t : State), Visits ⟨r, maxDepth⟩ m ⟨context, c.name, span⟩ {} kind u t →
          t.path = s.path ∧ t.expanded = s.expanded ∧
          t.out = (s.out.zip (inTurn kind symbols)).filterMap
            fun p => r.revise m context p.1 p.2 := by
  refine ⟨(judgements m maxDepth kind u).map Call.used, head?_judgements m maxDepth kind u, ?_⟩
  intro name descriptor s hs
  have hout : s.out = evaluate ⟨.forbidAll name descriptor, maxDepth⟩ m
      ⟨.symbol context u, span, kind⟩ := hs.out_eq_evaluate rfl hc
  constructor
  · rw [hout, evaluate_forbidAll_used hc hkind]
  · intro r t ht
    obtain ⟨hpath, hexpanded⟩ := hs.alike ht rfl rfl (Nat.zero_le _)
    refine ⟨hpath, hexpanded, ?_⟩
    calc t.out = evaluate ⟨r, maxDepth⟩ m ⟨.symbol context u, span, kind⟩ :=
          ht.out_eq_evaluate rfl hc
      _ = _ := by rw [hout, evaluate_eq_revise hc hkind span maxDepth name descriptor r]

end Engine

end UsagePolicy
