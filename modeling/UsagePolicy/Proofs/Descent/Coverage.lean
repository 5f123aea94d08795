import Mathlib.Data.List.Chain
import Mathlib.Data.Set.Card
import Mathlib.Logic.Relation
import UsagePolicy.Proofs.Descent.Calls
import UsagePolicy.SymbolTable

/-! What a descent reaches. Type arguments make a directed graph of the symbols, with cycles and
shared parts as the table has them. A symbol is followed once, at the place where it is met first;
all that the bound hides hangs below symbols that are met first exactly at the bound. A bound that
no chain of distinct generic symbols can exceed hides nothing. -/
namespace UsagePolicy.Descent

open SymbolModel Relation

variable {M : Type} [SymbolModel M] {m : M} {maxDepth : Nat} {kind : UsageKind} {u : SymbolId}

/-- A symbol lists another one among its type arguments. -/
def Lists (m : M) (a b : SymbolId) : Prop := b ∈ argsOf m a

instance (m : M) (a b : SymbolId) : Decidable (Lists m a b) :=
  inferInstanceAs (Decidable (b ∈ argsOf m a))

theorem Lists.ne_nil {a b : SymbolId} (h : Lists m a b) : argsOf m a ≠ [] := List.ne_nil_of_mem h

/-- All calls of the descent at a site. -/
def callsAt (m : M) (maxDepth : Nat) (kind : UsageKind) (u : SymbolId) : List Call :=
  (trace m maxDepth (.ofSite kind u)).1

/-- The calls whose symbol is judged. -/
def judgements (m : M) (maxDepth : Nat) (kind : UsageKind) (u : SymbolId) : List Call :=
  (callsAt m maxDepth kind u).filter (·.Judged m maxDepth)

theorem mem_judgements {c : Call} :
    c ∈ judgements m maxDepth kind u ↔ c ∈ callsAt m maxDepth kind u ∧ c.Judged m maxDepth := by
  simp [judgements]

theorem occurrences_eq_map :
    occurrences m maxDepth kind u = (judgements m maxDepth kind u).map Call.occurrence :=
  congrArg Prod.fst (run_eq_trace (maxDepth + 1) (.ofSite kind u) rfl)

theorem mem_occurrences {o : Occurrence} : o ∈ occurrences m maxDepth kind u ↔
    ∃ c ∈ judgements m maxDepth kind u, c.used = o.used ∧ c.kind = o.kind := by
  obtain ⟨used, as⟩ := o
  simp [occurrences_eq_map, Call.occurrence]

/-! ### What holds of every call -/

theorem Call.IsChild.path_eq {p c : Call} (h : p.IsChild m c) : c.path = p.used :: p.path := by
  obtain ⟨expanded, arg, _, rfl⟩ := h
  rfl

theorem Call.IsChild.kind_eq {p c : Call} (h : p.IsChild m c) : c.kind = .typeArgument := by
  obtain ⟨expanded, arg, _, rfl⟩ := h
  rfl

theorem Call.IsChild.lists {p c : Call} (h : p.IsChild m c) : Lists m p.used c.used := by
  obtain ⟨expanded, arg, harg, rfl⟩ := h
  exact List.fst_mem_of_mem_zipIdx harg

theorem Call.IsChild.exists_position {p c : Call} (h : p.IsChild m c) :
    ∃ i, c.position = some (p.used, i) ∧ (argsOf m p.used)[i]? = some c.used := by
  obtain ⟨expanded, ⟨arg, i⟩, harg, rfl⟩ := h
  exact ⟨i, rfl, List.mk_mem_zipIdx_iff_getElem?.mp harg⟩

/-- What holds of the call of the site and passes from a call that follows its arguments to the
calls for them holds of all calls. -/
theorem callsAt_induction {P : Call → Prop} (hsite : P (.ofSite kind u))
    (hchild : ∀ p ∈ callsAt m maxDepth kind u, p.Follows m maxDepth → P p →
      ∀ c, p.IsChild m c → P c) :
    ∀ c ∈ callsAt m maxDepth kind u, P c := by
  intro c hc
  induction hn : c.path.length generalizing c with
  | zero =>
    rcases eq_or_exists_parent _ c hc with rfl | ⟨p, _, _, hpc⟩
    · exact hsite
    · simp [hpc.path_eq] at hn
  | succ n ih =>
    rcases eq_or_exists_parent _ c hc with rfl | ⟨p, hp, hf, hpc⟩
    · exact hsite
    · refine hchild p hp hf (ih p hp ?_) c hpc
      simpa [hpc.path_eq] using hn

/-- The site's own call apart, calls are for symbols that the site's symbol reaches, as type
arguments. -/
theorem eq_ofSite_or_reaches : ∀ c ∈ callsAt m maxDepth kind u,
    c = .ofSite kind u ∨ c.kind = .typeArgument ∧ TransGen (Lists m) u c.used := by
  refine callsAt_induction (.inl rfl) ?_
  intro p _ _ hp c hpc
  refine .inr ⟨hpc.kind_eq, ?_⟩
  rcases hp with rfl | ⟨_, hreach⟩
  · exact .single hpc.lists
  · exact hreach.tail hpc.lists

theorem kind_of_used_ne {c : Call} (hc : c ∈ callsAt m maxDepth kind u) (hne : c.used ≠ u) :
    c.kind = .typeArgument := by
  rcases eq_ofSite_or_reaches c hc with rfl | ⟨hkind, _⟩
  · exact absurd rfl hne
  · exact hkind

theorem reaches_used {c : Call} (hc : c ∈ callsAt m maxDepth kind u) :
    ReflTransGen (Lists m) u c.used := by
  rcases eq_ofSite_or_reaches c hc with rfl | ⟨_, hreach⟩
  · exact .refl
  · exact hreach.to_reflTransGen

theorem path_nodup : ∀ c ∈ callsAt m maxDepth kind u, c.path.Nodup := by
  refine callsAt_induction List.nodup_nil ?_
  intro p _ hf hp c hpc
  rw [hpc.path_eq]
  exact List.nodup_cons.mpr ⟨hf.1, hp⟩

/-- Whoever stands above a call has been followed, further up. -/
theorem exists_follows_of_mem_path : ∀ c ∈ callsAt m maxDepth kind u, ∀ g ∈ c.path,
    ∃ p ∈ callsAt m maxDepth kind u, p.Follows m maxDepth ∧ p.used = g ∧
      p.path.length < c.path.length := by
  refine callsAt_induction (by simp [Call.ofSite]) ?_
  intro p hp hf ih c hpc g hg
  rw [hpc.path_eq, List.length_cons]
  rw [hpc.path_eq] at hg
  rcases List.mem_cons.mp hg with rfl | hg
  · exact ⟨p, hp, hf, rfl, by omega⟩
  · obtain ⟨q, hq, hqf, hqg, hlt⟩ := ih g hg
    exact ⟨q, hq, hqf, hqg, by omega⟩

theorem transGen_of_mem_path : ∀ c ∈ callsAt m maxDepth kind u, ∀ g ∈ c.path,
    TransGen (Lists m) g c.used := by
  refine callsAt_induction (by simp [Call.ofSite]) ?_
  intro p _ _ ih c hpc g hg
  rw [hpc.path_eq] at hg
  rcases List.mem_cons.mp hg with rfl | hg
  · exact .single hpc.lists
  · exact (ih g hg).tail hpc.lists

/-- The symbols above a call and its own symbol are a chain that starts at the site's symbol. -/
theorem path_isChain : ∀ c ∈ callsAt m maxDepth kind u,
    (c.path.reverse ++ [c.used]).IsChain (Lists m) ∧ (c.path.reverse ++ [c.used]).head? = some u := by
  refine callsAt_induction (by simp [Call.ofSite]) ?_
  rintro p _ _ ⟨hchain, hhead⟩ c hpc
  rw [hpc.path_eq, List.reverse_cons]
  constructor
  · rw [List.append_assoc, List.singleton_append, List.isChain_append_cons_cons]
    exact ⟨hchain, hpc.lists, by simp⟩
  · simpa using hhead

/-- Below the site's own symbol, the symbols above a call are a chain from that symbol down to the
call. -/
theorem exists_chain {c : Call} (hc : c ∈ callsAt m maxDepth kind u) (hne : c.used ≠ u) :
    ∃ between, c.path.reverse = u :: between ∧ (u :: (between ++ [c.used])).IsChain (Lists m) := by
  obtain ⟨hchain, hhead⟩ := path_isChain c hc
  cases hpath : c.path.reverse with
  | nil =>
    rw [hpath] at hhead
    exact absurd (by simpa using hhead) hne
  | cons a between =>
    rw [hpath] at hchain hhead
    obtain rfl : a = u := by simpa using hhead
    exact ⟨between, rfl, hchain⟩

/-- Without cycles no symbol stands above itself. -/
theorem used_notMem_path (hacyclic : ∀ g, ReflTransGen (Lists m) u g → ¬ TransGen (Lists m) g g)
    {c : Call} (hc : c ∈ callsAt m maxDepth kind u) : c.used ∉ c.path := fun hcycle =>
  hacyclic c.used (reaches_used hc) (transGen_of_mem_path c hc c.used hcycle)

variable (m maxDepth kind u) in
/-- The site's own call comes first, and its symbol stands above all others. -/
theorem callsAt_eq_cons : ∃ rest, callsAt m maxDepth kind u = .ofSite kind u :: rest ∧
    ∀ c ∈ rest, u ∈ c.path := by
  by_cases h : (Call.ofSite kind u).Follows m maxDepth
  · refine ⟨(below m maxDepth (.ofSite kind u)).1, ?_, ?_⟩
    · rw [callsAt, trace_of_follows h]
    · intro c hc
      exact (path_suffix_of_mem_below _ c hc).subset List.mem_cons_self
  · exact ⟨[], by rw [callsAt, trace_of_not_follows h], by simp⟩

theorem exists_parent_of_mem_path {c : Call} (hc : c ∈ callsAt m maxDepth kind u)
    (hu : u ∈ c.path) : ∃ p ∈ callsAt m maxDepth kind u, p.Follows m maxDepth ∧ p.IsChild m c := by
  rcases eq_or_exists_parent _ c hc with rfl | hparent
  · simp [Call.ofSite] at hu
  · exact hparent

/-- The call for an argument place is made by the symbol that has the place. -/
theorem exists_parent_of_position {c : Call} {g : SymbolId} {i : Nat}
    (hc : c ∈ callsAt m maxDepth kind u) (hposition : c.position = some (g, i)) :
    ∃ p ∈ callsAt m maxDepth kind u, p.Follows m maxDepth ∧ p.IsChild m c ∧ p.used = g ∧
      (argsOf m g)[i]? = some c.used := by
  rcases eq_or_exists_parent _ c hc with rfl | ⟨p, hp, hf, hpc⟩
  · cases hposition
  · obtain ⟨j, hj, harg⟩ := hpc.exists_position
    obtain ⟨rfl, rfl⟩ := Prod.mk.inj (Option.some.inj (hj.symm.trans hposition))
    exact ⟨p, hp, hf, hpc, rfl, harg⟩

variable (maxDepth kind) in
/-- The site's own symbol is judged first and never again; all else is judged as an argument. -/
theorem judgements_eq_cons {s : Symbol} (hu : symbol? m u = some s) :
    ∃ rest, judgements m maxDepth kind u = .ofSite kind u :: rest ∧
      ∀ c ∈ rest, c.used ≠ u ∧ ∃ p : Call, p.IsChild m c := by
  obtain ⟨rest, hcalls, hpath⟩ := callsAt_eq_cons m maxDepth kind u
  have hsite : (Call.ofSite kind u).Judged m maxDepth :=
    ⟨by simp [Call.ofSite], Nat.zero_le _, by simp [Call.ofSite, hu]⟩
  refine ⟨rest.filter (·.Judged m maxDepth), ?_, ?_⟩
  · rw [judgements, hcalls, List.filter_cons_of_pos (by simpa using hsite)]
  · intro c hc
    obtain ⟨hrest, hj⟩ := List.mem_filter.mp hc
    have hmem : c ∈ callsAt m maxDepth kind u := hcalls ▸ List.mem_cons_of_mem _ hrest
    obtain ⟨p, -, -, hpc⟩ := exists_parent_of_mem_path hmem (hpath c hrest)
    refine ⟨?_, p, hpc⟩
    rintro rfl
    exact (of_decide_eq_true hj).1 (hpath c hrest)

theorem judgements_eq_nil (hu : symbol? m u = none) : judgements m maxDepth kind u = [] := by
  have hargs : argsOf m u = [] := by simp [argsOf, hu]
  have hf : ¬ (Call.ofSite kind u).Follows m maxDepth := fun h => h.2.2.1 hargs
  have hj : ¬ (Call.ofSite kind u).Judged m maxDepth := fun h => by
    simpa [Call.ofSite, hu] using h.2.2
  simp [judgements, callsAt, trace_of_not_follows hf, hj]

/-! ### Symbols are followed once -/

theorem expanded_eq_reverse : (trace m maxDepth (.ofSite kind u)).2 =
    (followed m maxDepth (callsAt m maxDepth kind u)).reverse := by
  rw [trace_expanded]
  exact List.append_nil _

theorem followed_nodup : (followed m maxDepth (callsAt m maxDepth kind u)).Nodup := by
  have h : (trace m maxDepth (.ofSite kind u)).2.Nodup := trace_expanded_nodup _ List.nodup_nil
  rwa [expanded_eq_reverse, List.nodup_reverse] at h

theorem follows_unique {p q : Call} (hp : p ∈ callsAt m maxDepth kind u)
    (hq : q ∈ callsAt m maxDepth kind u) (hpf : p.Follows m maxDepth) (hqf : q.Follows m maxDepth)
    (h : p.used = q.used) : p = q := by
  have hnodup : (followed m maxDepth (callsAt m maxDepth kind u)).Nodup := followed_nodup
  exact List.inj_on_of_nodup_map hnodup (List.mem_filter.mpr ⟨hp, by simpa using hpf⟩)
    (List.mem_filter.mpr ⟨hq, by simpa using hqf⟩) h

/-- A judged symbol with arguments is followed at some call. -/
theorem exists_follows_of_judged {c : Call} (hc : c ∈ judgements m maxDepth kind u)
    (hargs : argsOf m c.used ≠ []) :
    ∃ p ∈ callsAt m maxDepth kind u, p.Follows m maxDepth ∧ p.used = c.used := by
  obtain ⟨hmem, hj⟩ := mem_judgements.mp hc
  have h := mem_expanded_of_judged _ c hmem hj hargs
  rw [expanded_eq_reverse, List.mem_reverse] at h
  exact mem_followed.mp h

/-- A symbol that is met first with `maxDepth` symbols above it: it is judged and followed there, but
its arguments lie beyond the bound, and it is not followed again. -/
def MetAtBound (m : M) (maxDepth : Nat) (kind : UsageKind) (u g : SymbolId) : Prop :=
  ∃ c ∈ callsAt m maxDepth kind u, c.Follows m maxDepth ∧ c.used = g ∧ c.path.length = maxDepth

instance (m : M) (maxDepth : Nat) (kind : UsageKind) (u g : SymbolId) :
    Decidable (MetAtBound m maxDepth kind u g) :=
  inferInstanceAs (Decidable (∃ c ∈ _, _))

/-! ### Coverage -/

/-- The arguments of a symbol that is followed above the bound are judged: at their place, or above
it if they stand there. -/
theorem exists_judgement_of_lists {p : Call} {v : SymbolId} (hp : p ∈ callsAt m maxDepth kind u)
    (hf : p.Follows m maxDepth) (hlen : p.path.length < maxDepth) (hv : Lists m p.used v)
    (hres : (symbol? m v).isSome) : ∃ c ∈ judgements m maxDepth kind u, c.used = v := by
  obtain ⟨i, hi⟩ := List.getElem?_of_mem hv
  have harg : (v, i) ∈ (argsOf m p.used).zipIdx := List.mk_mem_zipIdx_iff_getElem?.mpr hi
  obtain ⟨expanded, hc⟩ := exists_child_mem_trace _ p hp hf (v, i) harg
  by_cases hpath : v ∈ p.used :: p.path
  · obtain ⟨q, hq, hqf, hqv, _⟩ := exists_follows_of_mem_path _ hc v hpath
    exact ⟨q, mem_judgements.mpr ⟨hq, hqf.judged⟩, hqv⟩
  · exact ⟨_, mem_judgements.mpr ⟨hc, hpath, hlen, hres⟩, rfl⟩

/-- Symbols that are reached along symbols which are not met first at the bound are judged. -/
theorem exists_judgement_of_reaches {v : SymbolId} (hu : (symbol? m u).isSome)
    (h : ReflTransGen (fun a b => Lists m a b ∧ ¬ MetAtBound m maxDepth kind u a) u v)
    (hv : (symbol? m v).isSome) : ∃ c ∈ judgements m maxDepth kind u, c.used = v := by
  induction h with
  | refl =>
    exact ⟨.ofSite kind u, mem_judgements.mpr ⟨self_mem_trace _, by simp [Call.ofSite],
      Nat.zero_le _, hu⟩, rfl⟩
  | @tail g v _ hgv ih =>
    obtain ⟨hlists, hmet⟩ := hgv
    obtain ⟨c, hc, rfl⟩ := ih (resolves_of_argsOf_ne_nil hlists.ne_nil)
    obtain ⟨p, hp, hf, hpc⟩ := exists_follows_of_judged hc hlists.ne_nil
    have hlen : p.path.length < maxDepth :=
      lt_of_le_of_ne hf.2.1 fun heq => hmet ⟨p, hp, hf, hpc, heq⟩
    exact exists_judgement_of_lists hp hf hlen (hpc ▸ hlists) hv

theorem reaches_of_isChain {Q : SymbolId → Prop} (a : SymbolId) (between : List SymbolId)
    (v : SymbolId) (hchain : (a :: (between ++ [v])).IsChain (Lists m))
    (hQ : ∀ g ∈ a :: between, Q g) : ReflTransGen (fun a b => Lists m a b ∧ Q a) a v := by
  induction between generalizing a with
  | nil => exact .single ⟨(List.isChain_cons_cons.mp hchain).1, hQ a (by simp)⟩
  | cons b between ih =>
    obtain ⟨hab, hrest⟩ := List.isChain_cons_cons.mp hchain
    exact (ih b hrest fun g hg => hQ g (by simp [hg])).head ⟨hab, hQ a (by simp)⟩

/-- A chain of at most `maxDepth` steps, along symbols none of which is met first at the bound. -/
def OpenChain (m : M) (maxDepth : Nat) (kind : UsageKind) (u v : SymbolId)
    (between : List SymbolId) : Prop :=
  (u :: (between ++ [v])).IsChain (Lists m) ∧ between.length < maxDepth ∧
    ∀ g ∈ u :: between, ¬ MetAtBound m maxDepth kind u g

instance (m : M) (maxDepth : Nat) (kind : UsageKind) (u v : SymbolId) (between : List SymbolId) :
    Decidable (OpenChain m maxDepth kind u v between) :=
  inferInstanceAs (Decidable (_ ∧ _ ∧ _))

/-- The symbols above a judged argument are such a chain. -/
theorem exists_openChain_of_judged {c : Call} (hc : c ∈ judgements m maxDepth kind u)
    (hne : c.used ≠ u) : ∃ between, OpenChain m maxDepth kind u c.used between := by
  obtain ⟨hmem, hj⟩ := mem_judgements.mp hc
  obtain ⟨between, hpath, hchain⟩ := exists_chain hmem hne
  have hlen : between.length < maxDepth := by
    have hle : c.path.reverse.length ≤ maxDepth := by simpa using hj.2.1
    rwa [hpath, List.length_cons] at hle
  refine ⟨between, hchain, hlen, ?_⟩
  -- a symbol above the call has been followed above it, and nowhere else
  rintro g hg ⟨q, hq, hqf, rfl, hqlen⟩
  have hgpath : q.used ∈ c.path := by rwa [← List.mem_reverse, hpath]
  obtain ⟨p, hp, hpf, hpq, hlt⟩ := exists_follows_of_mem_path c hmem _ hgpath
  obtain rfl := follows_unique hp hq hpf hqf hpq
  exact absurd (hlt.trans_le hj.2.1) (by omega)

/-- What is judged as a type argument, besides the site's own symbol: what an open chain leads to. -/
theorem mem_occurrences_iff_openChain {v : SymbolId} (hu : (symbol? m u).isSome)
    (hv : (symbol? m v).isSome) (hne : v ≠ u) :
    ⟨v, .typeArgument⟩ ∈ occurrences m maxDepth kind u ↔
      ∃ between, OpenChain m maxDepth kind u v between := by
  rw [mem_occurrences]
  constructor
  · rintro ⟨c, hc, rfl, _⟩
    exact exists_openChain_of_judged hc hne
  · rintro ⟨between, hchain, _, hmet⟩
    have hreach := reaches_of_isChain u between v hchain hmet
    obtain ⟨c, hc, rfl⟩ := exists_judgement_of_reaches hu hreach hv
    exact ⟨c, hc, rfl, kind_of_used_ne (mem_judgements.mp hc).1 hne⟩

/-! ### Bounds that hide nothing -/

/-- The symbols with type arguments that a symbol reaches, itself included. -/
def genericsFrom (m : M) (u : SymbolId) : Set SymbolId :=
  {g | ReflTransGen (Lists m) u g ∧ argsOf m g ≠ []}

instance : Finite SymbolId :=
  Finite.of_injective (fun id : SymbolId => id.index.toFin) fun _ _ h =>
    congrArg SymbolId.mk (UInt32.toFin_inj.mp h)

theorem length_le_ncard {s : Set SymbolId} {l : List SymbolId} (hn : l.Nodup)
    (hs : ∀ g ∈ l, g ∈ s) : l.length ≤ s.ncard := by
  have hsub : (l.toFinset : Set SymbolId) ⊆ s := fun g hg => hs g (by simpa using hg)
  rw [← List.toFinset_card_of_nodup hn, ← Set.ncard_coe_finset]
  exact Set.ncard_le_ncard hsub (Set.toFinite s)

/-- As many symbols as a table has are enough. -/
theorem ncard_genericsFrom_le_size (t : SymbolTable) (u : SymbolId) :
    (genericsFrom t u).ncard ≤ t.size := by
  have hindex : ∀ g ∈ genericsFrom t u, g.index.toNat ∈ (Finset.range t.size : Set Nat) := by
    rintro g ⟨_, hargs⟩
    have hres : (t.get? g).isSome := resolves_of_argsOf_ne_nil hargs
    simpa [SymbolTable.get?, SymbolTable.size] using hres
  have hinj : Set.InjOn (fun g : SymbolId => g.index.toNat) (genericsFrom t u) :=
    fun _ _ _ _ h => congrArg SymbolId.mk (UInt32.toNat_inj.mp h)
  have hle := Set.ncard_le_ncard_of_injOn _ hindex hinj
  rwa [Set.ncard_coe_finset, Finset.card_range] at hle

theorem mem_genericsFrom {c : Call} (hc : c ∈ callsAt m maxDepth kind u)
    (hf : c.Follows m maxDepth) : c.used ∈ genericsFrom m u :=
  ⟨reaches_used hc, hf.2.2.1⟩

theorem path_subset_genericsFrom {c : Call} (hc : c ∈ callsAt m maxDepth kind u) :
    ∀ g ∈ c.path, g ∈ genericsFrom m u := by
  intro g hg
  obtain ⟨p, hp, hf, rfl, _⟩ := exists_follows_of_mem_path c hc g hg
  exact mem_genericsFrom hp hf

/-- Symbols above each other are distinct and generic, so there are no more of them than there are
generic symbols. -/
theorem path_length_le {c : Call} (hc : c ∈ callsAt m maxDepth kind u) :
    c.path.length ≤ (genericsFrom m u).ncard :=
  length_le_ncard (path_nodup c hc) (path_subset_genericsFrom hc)

theorem path_length_lt {c : Call} (hc : c ∈ callsAt m maxDepth kind u)
    (hf : c.Follows m maxDepth) : c.path.length < (genericsFrom m u).ncard := by
  have hnodup : (c.used :: c.path).Nodup := List.nodup_cons.mpr ⟨hf.1, path_nodup c hc⟩
  refine length_le_ncard hnodup fun g hg => ?_
  rcases List.mem_cons.mp hg with rfl | hg
  · exact mem_genericsFrom hc hf
  · exact path_subset_genericsFrom hc g hg

/-- Nothing is met first at a bound that is large enough. -/
theorem not_metAtBound (hd : (genericsFrom m u).ncard ≤ maxDepth) (g : SymbolId) :
    ¬ MetAtBound m maxDepth kind u g := by
  rintro ⟨c, hc, hf, _, hlen⟩
  have hlt := path_length_lt hc hf
  omega

theorem exists_judgement_of_bound (hu : (symbol? m u).isSome)
    (hd : (genericsFrom m u).ncard ≤ maxDepth) {v : SymbolId} (h : ReflTransGen (Lists m) u v)
    (hv : (symbol? m v).isSome) : ∃ c ∈ judgements m maxDepth kind u, c.used = v :=
  exists_judgement_of_reaches hu
    (ReflTransGen.mono (fun a _ hab => ⟨hab, not_metAtBound hd a⟩) _ _ h) hv

theorem judgements_eq_of_le {maxDepth' : Nat} (hd : (genericsFrom m u).ncard ≤ maxDepth)
    (hle : maxDepth ≤ maxDepth') : judgements m maxDepth' kind u = judgements m maxDepth kind u := by
  have hcut : ∀ c ∈ callsAt m maxDepth kind u, c.path.length ≤ maxDepth :=
    fun c hc => (path_length_le hc).trans hd
  have hcalls : callsAt m maxDepth' kind u = callsAt m maxDepth kind u :=
    congrArg Prod.fst (trace_eq_of_le hle _ hcut)
  rw [judgements, judgements, hcalls]
  refine List.filter_congr fun c hc => ?_
  have hlen := hcut c hc
  simp only [Call.Judged, hlen, hlen.trans hle]

/-- The judged symbols besides the site's own are those that it reaches. -/
theorem exists_judgement_iff_reaches (hu : (symbol? m u).isSome)
    (hd : (genericsFrom m u).ncard ≤ maxDepth) {v : SymbolId} (hne : v ≠ u) :
    (∃ c ∈ judgements m maxDepth kind u, c.used = v ∧ c.kind = .typeArgument) ↔
      (symbol? m v).isSome ∧ TransGen (Lists m) u v := by
  constructor
  · rintro ⟨c, hc, rfl, _⟩
    obtain ⟨hmem, hj⟩ := mem_judgements.mp hc
    rcases eq_ofSite_or_reaches c hmem with rfl | ⟨_, hreach⟩
    · exact absurd rfl hne
    · exact ⟨hj.2.2, hreach⟩
  · rintro ⟨hv, hreach⟩
    obtain ⟨c, hc, rfl⟩ := exists_judgement_of_bound hu hd hreach.to_reflTransGen hv
    exact ⟨c, hc, rfl, kind_of_used_ne (mem_judgements.mp hc).1 hne⟩

/-! ### Argument positions -/

theorem positions_nodup : ((callsAt m maxDepth kind u).filterMap Call.position).Nodup := by
  have hperm : ((callsAt m maxDepth kind u).filterMap Call.position).Perm
      (((callsAt m maxDepth kind u).filter (·.Follows m maxDepth)).flatMap (Call.slots m)) :=
    trace_positions (.ofSite kind u)
  refine hperm.nodup_iff.mpr ?_
  refine List.nodup_flatMap.mpr ⟨fun c _ => c.slots_nodup, ?_⟩
  -- the slots of different symbols are different
  have hne : ((callsAt m maxDepth kind u).filter (·.Follows m maxDepth)).Pairwise
      fun c c' => c.used ≠ c'.used := List.pairwise_map.mp followed_nodup
  refine hne.imp fun hcc' => ?_
  rw [Function.onFun, List.disjoint_left]
  rintro ⟨g, i⟩ hg hg'
  obtain ⟨_, _, hc⟩ := List.mem_map.mp hg
  obtain ⟨_, _, hc'⟩ := List.mem_map.mp hg'
  exact hcc' ((congrArg Prod.fst hc).trans (congrArg Prod.fst hc').symm)

theorem judged_positions_nodup : ((judgements m maxDepth kind u).filterMap Call.position).Nodup :=
  positions_nodup.sublist (List.filter_sublist.filterMap _)

/-- Without cycles the arguments of a symbol that is followed above the bound are judged, each at its
position. -/
theorem mem_positions_of_follows
    (hacyclic : ∀ g, ReflTransGen (Lists m) u g → ¬ TransGen (Lists m) g g) {p : Call}
    {a : SymbolId} {i : Nat} (hp : p ∈ callsAt m maxDepth kind u) (hf : p.Follows m maxDepth)
    (hlen : p.path.length < maxDepth) (hi : (argsOf m p.used)[i]? = some a)
    (ha : (symbol? m a).isSome) :
    (p.used, i) ∈ (judgements m maxDepth kind u).filterMap Call.position := by
  obtain ⟨expanded, hchild⟩ := exists_child_mem_trace _ p hp hf (a, i)
    (List.mk_mem_zipIdx_iff_getElem?.mpr hi)
  have hjudged : p.child expanded (a, i) ∈ judgements m maxDepth kind u :=
    mem_judgements.mpr ⟨hchild, used_notMem_path hacyclic hchild, hlen, ha⟩
  exact List.mem_filterMap.mpr ⟨_, hjudged, rfl⟩

/-- Without cycles, each argument position of each symbol that is reached is judged exactly once if
the argument resolves. -/
theorem count_position_eq_one (hu : (symbol? m u).isSome)
    (hd : (genericsFrom m u).ncard ≤ maxDepth)
    (hacyclic : ∀ g, ReflTransGen (Lists m) u g → ¬ TransGen (Lists m) g g) {g a : SymbolId} {i : Nat}
    (hg : ReflTransGen (Lists m) u g) (hi : (argsOf m g)[i]? = some a) (ha : (symbol? m a).isSome) :
    ((judgements m maxDepth kind u).filterMap Call.position).count (g, i) = 1 := by
  have hlists : Lists m g a := List.mem_of_getElem? hi
  obtain ⟨c, hc, rfl⟩ :=
    exists_judgement_of_bound hu hd hg (resolves_of_argsOf_ne_nil hlists.ne_nil)
  obtain ⟨p, hp, hf, hpc⟩ := exists_follows_of_judged hc hlists.ne_nil
  have hlen : p.path.length < maxDepth := (path_length_lt hp hf).trans_le hd
  rw [← hpc] at hi ⊢
  exact List.count_eq_one_of_mem judged_positions_nodup
    (mem_positions_of_follows hacyclic hp hf hlen hi ha)

end UsagePolicy.Descent
