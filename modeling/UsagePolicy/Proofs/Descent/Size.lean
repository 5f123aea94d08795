import Mathlib.Algebra.BigOperators.Group.List.Basic
import Mathlib.Data.List.Perm.Subperm
import UsagePolicy.Proofs.Descent.Findings

/-! How much a descent does. Whatever the bound, it turns to each argument place of each generic symbol
at most once, since shared arguments are followed once and cycles are cut. So a site makes at most one
call more than the table has argument places, and has no more findings than that. -/
namespace UsagePolicy

open SymbolModel Descent

/-! ### Argument places -/

namespace SymbolTable

/-- The places of a table where an argument stands: which symbol lists it, and where in its list. -/
def argumentPlaces (t : SymbolTable) : List (SymbolId × Nat) :=
  t.symbols.toList.zipIdx.flatMap fun p => (List.range p.1.typeArgs.length).map (⟨.ofNat p.2⟩, ·)

/-- How many type arguments the symbols of a table list, all together. -/
def argumentCount (t : SymbolTable) : Nat :=
  (t.symbols.toList.map fun s => s.typeArgs.length).sum

theorem length_argumentPlaces (t : SymbolTable) : t.argumentPlaces.length = t.argumentCount := by
  have hsizes : t.symbols.toList.zipIdx.map (fun p => p.1.typeArgs.length) =
      t.symbols.toList.map fun s => s.typeArgs.length := by
    rw [← List.zipIdx_map_fst 0 t.symbols.toList, List.map_map]
    simp [Function.comp_def]
  rw [argumentPlaces, argumentCount, List.length_flatMap, ← hsizes]
  simp

theorem mem_argumentPlaces {t : SymbolTable} {g a : SymbolId} {i : Nat}
    (h : (argsOf t g)[i]? = some a) : (g, i) ∈ t.argumentPlaces := by
  have hargs : argsOf t g ≠ [] := List.ne_nil_of_mem (List.mem_of_getElem? h)
  obtain ⟨s, hs⟩ := Option.isSome_iff_exists.mp (resolves_of_argsOf_ne_nil hargs)
  rw [argsOf_of_some hs] at h
  have hi : i < s.typeArgs.length := (List.getElem?_eq_some_iff.mp h).1
  have hlisted : t.symbols.toList[g.index.toNat]? = some s := by
    rw [Array.getElem?_toList]
    exact hs
  exact List.mem_flatMap.mpr ⟨(s, g.index.toNat), List.mk_mem_zipIdx_iff_getElem?.mpr hlisted,
    List.mem_map.mpr ⟨i, List.mem_range.mpr hi, by rw [UInt32.ofNat_toNat]⟩⟩

end SymbolTable

/-! ### Calls and judgements -/

namespace Descent

variable {M : Type} [SymbolModel M] {m : M} {maxDepth : Nat} {kind : UsageKind} {u : SymbolId}

variable (m maxDepth kind u) in
/-- Besides the site's own call, each call is for an argument place. -/
theorem length_callsAt : (callsAt m maxDepth kind u).length =
    1 + ((callsAt m maxDepth kind u).filterMap Call.position).length := by
  obtain ⟨rest, hcalls, hpath⟩ := callsAt_eq_cons m maxDepth kind u
  have hplaced : ∀ c ∈ rest, c.position.isSome := by
    intro c hc
    have hmem : c ∈ callsAt m maxDepth kind u := hcalls ▸ List.mem_cons_of_mem _ hc
    obtain ⟨p, -, -, hpc⟩ := exists_parent_of_mem_path hmem (hpath c hc)
    obtain ⟨i, hi, -⟩ := hpc.exists_position
    simp [hi]
  have hlength : (rest.filterMap Call.position).length = rest.length :=
    List.filterMap_length_eq_length.mpr hplaced
  have hsite : (Call.ofSite kind u).position = none := rfl
  rw [hcalls, List.filterMap_cons_none hsite, hlength, List.length_cons]
  omega

/-- A place that is asked is one of the table, and none is asked twice. -/
theorem length_callsAt_le (t : SymbolTable) (maxDepth : Nat) (kind : UsageKind) (u : SymbolId) :
    (callsAt t maxDepth kind u).length ≤ 1 + t.argumentCount := by
  have hsubset : (callsAt t maxDepth kind u).filterMap Call.position ⊆ t.argumentPlaces := by
    rintro ⟨g, i⟩ hposition
    obtain ⟨c, hc, hci⟩ := List.mem_filterMap.mp hposition
    obtain ⟨-, -, -, -, -, harg⟩ := exists_parent_of_position hc hci
    exact SymbolTable.mem_argumentPlaces harg
  have hle := (positions_nodup.subperm hsubset).length_le
  rw [t.length_argumentPlaces] at hle
  rw [length_callsAt]
  omega

theorem length_judgements_le (t : SymbolTable) (maxDepth : Nat) (kind : UsageKind) (u : SymbolId) :
    (judgements t maxDepth kind u).length ≤ 1 + t.argumentCount :=
  (List.length_filter_le _ _).trans (length_callsAt_le t maxDepth kind u)

variable (m maxDepth kind u) in
/-- The site's own symbol stands above all its arguments, so it is not judged among them. -/
theorem count_used_le_one : ((judgements m maxDepth kind u).map Call.used).count u ≤ 1 := by
  cases hu : symbol? m u with
  | none => simp [judgements_eq_nil hu]
  | some s =>
    obtain ⟨rest, hjudged, hrest⟩ := judgements_eq_cons maxDepth kind hu
    have hnone : u ∉ rest.map Call.used := by
      intro hmem
      obtain ⟨c, hc, hcu⟩ := List.mem_map.mp hmem
      exact (hrest c hc).1 hcu
    simp [hjudged, Call.ofSite, List.count_eq_zero.mpr hnone]

variable (m maxDepth kind u) in
theorem count_position_le_one (g : SymbolId) (i : Nat) :
    ((judgements m maxDepth kind u).filterMap Call.position).count (g, i) ≤ 1 :=
  List.nodup_iff_count_le_one.mp judged_positions_nodup (g, i)

end Descent

/-! ### Sites -/

/-- What keeps the descent from a symbol small. -/
structure Descent.Linear (t : SymbolTable) (maxDepth : Nat) (kind : UsageKind) (u : SymbolId) :
    Prop where
  /-- All calls, those that lead to no judgement included. -/
  calls : (callsAt t maxDepth kind u).length ≤ 1 + t.argumentCount
  /-- Calls stand within each other no deeper than the table has symbols. -/
  nesting : ∀ c ∈ callsAt t maxDepth kind u, c.path.length ≤ t.size
  own : ((judgements t maxDepth kind u).map Call.used).count u ≤ 1
  places : ∀ g i, ((judgements t maxDepth kind u).filterMap Call.position).count (g, i) ≤ 1

theorem Descent.linear (t : SymbolTable) (maxDepth : Nat) (kind : UsageKind) (u : SymbolId) :
    Linear t maxDepth kind u where
  calls := length_callsAt_le t maxDepth kind u
  nesting _ hc := (path_length_le hc).trans (ncard_genericsFrom_le_size t u)
  own := count_used_le_one t maxDepth kind u
  places := count_position_le_one t maxDepth kind u

namespace Engine

/-- The findings at a site come from its judgements. For every table, with cycles and with shared
arguments, and for every bound, the descent from the used symbol ends after at most one call more than
the table has argument places; it judges the used symbol once at most and each argument place once at
most, so there are no more findings than that either. -/
theorem evaluate_linear (e : Engine) (t : SymbolTable) (site : Site) :
    (e.evaluate t site).length ≤ 1 + t.argumentCount ∧
    ∀ context u, site.subject = .symbol context u → Linear t e.maxDepth site.kind u ∧
      ∀ c, t.get? context = some c → e.evaluate t site =
        (judgements t e.maxDepth site.kind u).filterMap
          fun j => e.judge t context c.name site.span j.occurrence := by
  obtain ⟨subject, span, kind⟩ := site
  refine ⟨?_, ?_⟩
  · cases subject with
    | nameSpace outer inner =>
      have hle : (e.evaluate t ⟨.nameSpace outer inner, span, kind⟩).length ≤ 1 :=
        Option.length_toList_le
      omega
    | symbol context u =>
      cases hc : symbol? t context with
      | none => simp [evaluate, hc]
      | some c =>
        rw [evaluate_eq_filterMap e hc]
        exact (List.length_filterMap_le _ _).trans (length_judgements_le t e.maxDepth kind u)
  · rintro context u rfl
    exact ⟨linear t e.maxDepth kind u, fun c hc => e.evaluate_eq_filterMap hc span kind⟩

/-- A method, and the types `Knot<Pair, Knot>` and `Pair<Knot, Pair, Knot>`, each of which lists both. -/
def knots : SymbolTable where
  symbols := #[
    { name := "Run", kind := .method none [] },
    { name := "Knot", kind := .type [⟨2⟩, ⟨1⟩] none },
    { name := "Pair", kind := .type [⟨1⟩, ⟨2⟩, ⟨1⟩] none }]

/-- However far the descent may go, it makes six calls at most. -/
theorem evaluate_linear_knots : knots.argumentCount = 5 ∧
    Linear knots 18446744073709551615 .type ⟨1⟩ ∧
    ((⟨.forbidAll "no-types" (.ofCategory .type), 18446744073709551615⟩ : Engine).evaluate knots
      ⟨.symbol ⟨0⟩ ⟨1⟩, {}, .type⟩).length ≤ 6 := by
  obtain ⟨hlength, hsymbol⟩ := evaluate_linear
    ⟨.forbidAll "no-types" (.ofCategory .type), 18446744073709551615⟩ knots
    ⟨.symbol ⟨0⟩ ⟨1⟩, {}, .type⟩
  exact ⟨rfl, (hsymbol ⟨0⟩ ⟨1⟩ rfl).1, hlength⟩

end Engine

end UsagePolicy
