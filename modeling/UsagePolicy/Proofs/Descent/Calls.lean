import Mathlib.Data.List.Nodup
import Mathlib.Data.List.Perm.Basic
import UsagePolicy.Descent

/-! The calls that a descent makes. A call is the state that the descent finds when it turns to a
symbol: the symbols above it, those whose arguments have been followed by then, and the argument
position that led there. The calls of a descent form a tree, and the facts about that tree are
collected here: who calls whom, whose arguments are followed, and which positions are asked. The
occurrences are the calls that are judged. -/
namespace UsagePolicy.Descent

open SymbolModel

/-! ### Gathering -/

section Gather
variable {σ α β : Type}

theorem gather_cons (step : σ → α → List β × σ) (s : σ) (a : α) (as : List α) :
    gather step s (a :: as) =
      ((step s a).1 ++ (gather step (step s a).2 as).1, (gather step (step s a).2 as).2) := rfl

/-- A relation between the states around what is found holds of the whole pass if it holds of each
step and composes. -/
theorem gather_rel {step : σ → α → List β × σ} (R : σ → List β → σ → Prop)
    (hnil : ∀ s, R s [] s)
    (happend : ∀ s₁ s₂ s₃ l₁ l₂, R s₁ l₁ s₂ → R s₂ l₂ s₃ → R s₁ (l₁ ++ l₂) s₃)
    (as : List α) (hstep : ∀ s, ∀ a ∈ as, R s (step s a).1 (step s a).2) (s : σ) :
    R s (gather step s as).1 (gather step s as).2 := by
  induction as generalizing s with
  | nil => exact hnil s
  | cons a as ih =>
    rw [gather_cons]
    exact happend _ _ _ _ _ (hstep s a (by simp)) (ih (fun s b hb => hstep s b (by simp [hb])) _)

/-- Each entry has its step taken at some state, and all that the step finds is found. -/
theorem exists_step_subset_gather (step : σ → α → List β × σ) {a : α} {as : List α} (ha : a ∈ as)
    (s : σ) : ∃ s', (step s' a).1 ⊆ (gather step s as).1 := by
  induction as generalizing s with
  | nil => simp at ha
  | cons b as ih =>
    rw [gather_cons]
    rcases List.mem_cons.mp ha with rfl | ha
    · exact ⟨s, List.subset_append_left _ _⟩
    · obtain ⟨s', hs'⟩ := ih ha (step s b).2
      exact ⟨s', List.Subset.trans hs' (List.subset_append_right _ _)⟩

/-- Two passes whose steps agree up to a view of what they find agree up to that view. -/
theorem gather_view {α' β' : Type} {step : σ → α → List β × σ} {step' : σ → α' → List β' × σ}
    (view : List β' → List β) (hnil : view [] = [])
    (happend : ∀ l₁ l₂, view (l₁ ++ l₂) = view l₁ ++ view l₂) (entry : α' → α) (as : List α')
    (hstep : ∀ s, ∀ a ∈ as, step s (entry a) = (view (step' s a).1, (step' s a).2)) (s : σ) :
    gather step s (as.map entry) = (view (gather step' s as).1, (gather step' s as).2) := by
  induction as generalizing s with
  | nil => simp [gather, hnil]
  | cons a as ih =>
    have htail := ih (fun s b hb => hstep s b (by simp [hb])) (step' s a).2
    rw [List.map_cons, gather_cons, gather_cons, hstep s a (by simp), htail, happend]

/-- A second step that agrees with the first one wherever that finds nothing unwanted makes the same
pass, if the first pass finds nothing unwanted. -/
theorem gather_congr {step step' : σ → α → List β × σ} (P : β → Prop) (as : List α)
    (hstep : ∀ s, ∀ a ∈ as, (∀ b ∈ (step s a).1, P b) → step' s a = step s a) (s : σ)
    (hfound : ∀ b ∈ (gather step s as).1, P b) : gather step' s as = gather step s as := by
  induction as generalizing s with
  | nil => rfl
  | cons a as ih =>
    rw [gather_cons] at hfound ⊢
    have hhead : step' s a = step s a :=
      hstep s a (by simp) fun b hb => hfound b (List.mem_append_left _ hb)
    rw [gather_cons, hhead, ih (fun s b hb => hstep s b (by simp [hb])) _
      fun b hb => hfound b (List.mem_append_right _ hb)]

/-- Two passes over the same entries keep a relation between their states and one between what they
find, if their steps do as long as neither finds anything unwanted. -/
theorem gather_sim {σ' β' : Type} {step : σ → α → List β × σ} {step' : σ' → α → List β' × σ'}
    (States : σ → σ' → Prop) (Found : List β → List β' → Prop) (hnil : Found [] [])
    (happend : ∀ l₁ l₂ l₁' l₂', Found l₁ l₁' → Found l₂ l₂' → Found (l₁ ++ l₂) (l₁' ++ l₂'))
    (P : β → Prop) (P' : β' → Prop) (as : List α)
    (hstep : ∀ s s', ∀ a ∈ as, States s s' → (∀ b ∈ (step s a).1, P b) →
      (∀ b ∈ (step' s' a).1, P' b) →
      Found (step s a).1 (step' s' a).1 ∧ States (step s a).2 (step' s' a).2)
    {s : σ} {s' : σ'} (hs : States s s') (hP : ∀ b ∈ (gather step s as).1, P b)
    (hP' : ∀ b ∈ (gather step' s' as).1, P' b) :
    Found (gather step s as).1 (gather step' s' as).1 ∧
      States (gather step s as).2 (gather step' s' as).2 := by
  induction as generalizing s s' with
  | nil => exact ⟨hnil, hs⟩
  | cons a as ih =>
    rw [gather_cons] at hP hP'
    obtain ⟨hfound, hstates⟩ := hstep s s' a (by simp) hs
      (fun b hb => hP b (List.mem_append_left _ hb)) fun b hb => hP' b (List.mem_append_left _ hb)
    obtain ⟨hrest, hlast⟩ := ih (fun s s' b hb => hstep s s' b (by simp [hb])) hstates
      (fun b hb => hP b (List.mem_append_right _ hb)) fun b hb => hP' b (List.mem_append_right _ hb)
    rw [gather_cons, gather_cons]
    exact ⟨happend _ _ _ _ hfound hrest, hlast⟩

end Gather

/-! ### Calls -/

variable {M : Type} [SymbolModel M]

/-- The type arguments behind a handle; there are none if it dangles. -/
def argsOf (m : M) (id : SymbolId) : List SymbolId := ((symbol? m id).map Symbol.typeArgs).getD []

theorem argsOf_of_some {m : M} {id : SymbolId} {s : Symbol} (h : symbol? m id = some s) :
    argsOf m id = s.typeArgs := by
  simp [argsOf, h]

theorem resolves_of_argsOf_ne_nil {m : M} {id : SymbolId} (h : argsOf m id ≠ []) :
    (symbol? m id).isSome := by
  cases hs : symbol? m id with
  | none => simp [argsOf, hs] at h
  | some s => rfl

structure Call where
  /-- The symbols above, the innermost one first. -/
  path : List SymbolId
  /-- The symbols whose arguments have been followed before. -/
  expanded : List SymbolId
  /-- The generic symbol that lists this one, and the place in its list. -/
  position : Option (SymbolId × Nat)
  kind : UsageKind
  used : SymbolId
deriving DecidableEq

namespace Call

/-- The call that a site makes. -/
def ofSite (kind : UsageKind) (used : SymbolId) : Call := ⟨[], [], none, kind, used⟩

/-- The call for an argument, found in its place in the list. -/
def child (c : Call) (expanded : List SymbolId) (arg : SymbolId × Nat) : Call :=
  ⟨c.used :: c.path, expanded, some (c.used, arg.2), .typeArgument, arg.1⟩

def occurrence (c : Call) : Occurrence := ⟨c.used, c.kind⟩

/-- The symbol is judged: it is not its own ancestor, it lies within the bound, and it resolves. -/
def Judged (m : M) (maxDepth : Nat) (c : Call) : Prop :=
  c.used ∉ c.path ∧ c.path.length ≤ maxDepth ∧ (symbol? m c.used).isSome

/-- The arguments of the symbol are followed: there are some, and this is the first time. -/
def Follows (m : M) (maxDepth : Nat) (c : Call) : Prop :=
  c.used ∉ c.path ∧ c.path.length ≤ maxDepth ∧ argsOf m c.used ≠ [] ∧ c.used ∉ c.expanded

instance (m : M) (maxDepth : Nat) (c : Call) : Decidable (c.Judged m maxDepth) :=
  inferInstanceAs (Decidable (_ ∧ _ ∧ _))

instance (m : M) (maxDepth : Nat) (c : Call) : Decidable (c.Follows m maxDepth) :=
  inferInstanceAs (Decidable (_ ∧ _ ∧ _ ∧ _))

theorem Follows.judged {m : M} {maxDepth : Nat} {c : Call} (h : c.Follows m maxDepth) :
    c.Judged m maxDepth :=
  ⟨h.1, h.2.1, resolves_of_argsOf_ne_nil h.2.2.1⟩

end Call

/-- The calls at and below a call in depth-first order, with the symbols whose arguments have been
followed at the end. -/
def trace (m : M) (maxDepth : Nat) (c : Call) : List Call × List SymbolId :=
  if _h : c.Follows m maxDepth then
    let (below, expanded) :=
      gather (fun expanded arg => trace m maxDepth (c.child expanded arg)) (c.used :: c.expanded)
        (argsOf m c.used).zipIdx
    (c :: below, expanded)
  else ([c], c.expanded)
termination_by maxDepth + 1 - c.path.length
decreasing_by
  have hdepth := _h.2.1
  simp only [Call.child, List.length_cons]
  omega

/-- What a call that follows its arguments finds below itself. -/
def below (m : M) (maxDepth : Nat) (c : Call) : List Call × List SymbolId :=
  gather (fun expanded arg => trace m maxDepth (c.child expanded arg)) (c.used :: c.expanded)
    (argsOf m c.used).zipIdx

variable {m : M} {maxDepth : Nat}

theorem trace_of_follows {c : Call} (h : c.Follows m maxDepth) :
    trace m maxDepth c = (c :: (below m maxDepth c).1, (below m maxDepth c).2) := by
  rw [trace, dif_pos h]
  rfl

theorem trace_of_not_follows {c : Call} (h : ¬ c.Follows m maxDepth) :
    trace m maxDepth c = ([c], c.expanded) := by
  rw [trace, dif_neg h]

theorem self_mem_trace (c : Call) : c ∈ (trace m maxDepth c).1 := by
  by_cases h : c.Follows m maxDepth
  · simp [trace_of_follows h]
  · simp [trace_of_not_follows h]

variable (m maxDepth) in
/-- Induction along the tree of calls: the two cases are those of the descent. -/
theorem trace_induction {P : Call → Prop} (hleaf : ∀ c, ¬ c.Follows m maxDepth → P c)
    (hnode : ∀ c, c.Follows m maxDepth → (∀ expanded arg, P (c.child expanded arg)) → P c)
    (c : Call) : P c := by
  fun_induction trace m maxDepth c with
  | case1 c h _ _ _ ih => exact hnode c h ih
  | case2 c h => exact hleaf c h

/-- A relation between what has been followed before and after holds of all that a call finds below
itself if it holds of the call for each argument and composes. -/
theorem below_rel (R : List SymbolId → List Call → List SymbolId → Prop) (hnil : ∀ s, R s [] s)
    (happend : ∀ s₁ s₂ s₃ cs₁ cs₂, R s₁ cs₁ s₂ → R s₂ cs₂ s₃ → R s₁ (cs₁ ++ cs₂) s₃) (c : Call)
    (hchild : ∀ s, ∀ arg ∈ (argsOf m c.used).zipIdx,
      R s (trace m maxDepth (c.child s arg)).1 (trace m maxDepth (c.child s arg)).2) :
    R (c.used :: c.expanded) (below m maxDepth c).1 (below m maxDepth c).2 :=
  gather_rel R hnil happend _ hchild _

/-! ### Whose arguments are followed -/

/-- The symbols of the calls that follow their arguments, in order. -/
def followed (m : M) (maxDepth : Nat) (cs : List Call) : List SymbolId :=
  (cs.filter (·.Follows m maxDepth)).map Call.used

theorem followed_append (cs₁ cs₂ : List Call) :
    followed m maxDepth (cs₁ ++ cs₂) = followed m maxDepth cs₁ ++ followed m maxDepth cs₂ := by
  simp [followed]

theorem mem_followed {cs : List Call} {g : SymbolId} :
    g ∈ followed m maxDepth cs ↔ ∃ c ∈ cs, c.Follows m maxDepth ∧ c.used = g := by
  simp [followed, and_assoc]

/-- What has been followed at the end is what the calls follow, before what was there. -/
theorem trace_expanded (c : Call) :
    (trace m maxDepth c).2 = (followed m maxDepth (trace m maxDepth c).1).reverse ++ c.expanded := by
  induction c using trace_induction m maxDepth with
  | hleaf c h => simp [trace_of_not_follows h, followed, h]
  | hnode c h ih =>
    have hbelow : (below m maxDepth c).2 =
        (followed m maxDepth (below m maxDepth c).1).reverse ++ (c.used :: c.expanded) := by
      refine below_rel (fun s cs s' => s' = (followed m maxDepth cs).reverse ++ s) ?_ ?_ c ?_
      · intro s
        simp [followed]
      · intro s₁ s₂ s₃ cs₁ cs₂ h₁ h₂
        rw [h₂, h₁, followed_append, List.reverse_append, List.append_assoc]
      · intro s arg _
        exact ih s arg
    rw [trace_of_follows h, hbelow]
    simp [followed, h]

/-- No symbol is followed twice. -/
theorem trace_expanded_nodup (c : Call) (hn : c.expanded.Nodup) :
    (trace m maxDepth c).2.Nodup := by
  induction c using trace_induction m maxDepth with
  | hleaf c h => simpa [trace_of_not_follows h] using hn
  | hnode c h ih =>
    rw [trace_of_follows h]
    refine below_rel (fun s _ s' => s.Nodup → s'.Nodup) (fun _ => id) ?_ c ?_ ?_
    · intro s₁ s₂ s₃ _ _ h₁ h₂ hs
      exact h₂ (h₁ hs)
    · intro s arg _ hs
      exact ih s arg hs
    · exact List.nodup_cons.mpr ⟨h.2.2.2, hn⟩

/-- A judged symbol with arguments has been followed in the end: at this call, or before it. -/
theorem mem_expanded_of_judged (c : Call) : ∀ c' ∈ (trace m maxDepth c).1,
    c'.Judged m maxDepth → argsOf m c'.used ≠ [] → c'.used ∈ (trace m maxDepth c).2 := by
  induction c using trace_induction m maxDepth with
  | hleaf c h =>
    intro c' hc' hj ha
    rw [trace_of_not_follows h] at hc' ⊢
    obtain rfl := List.mem_singleton.mp hc'
    by_contra hnot
    exact h ⟨hj.1, hj.2.1, ha, hnot⟩
  | hnode c h ih =>
    -- the pass only adds to what has been followed
    have hbelow : c.used :: c.expanded ⊆ (below m maxDepth c).2 ∧ ∀ c' ∈ (below m maxDepth c).1,
        c'.Judged m maxDepth → argsOf m c'.used ≠ [] → c'.used ∈ (below m maxDepth c).2 := by
      refine below_rel (fun s cs s' => s ⊆ s' ∧ ∀ c' ∈ cs, c'.Judged m maxDepth →
        argsOf m c'.used ≠ [] → c'.used ∈ s') ?_ ?_ c ?_
      · intro s
        simp
      · rintro s₁ s₂ s₃ cs₁ cs₂ ⟨hsub₁, hmem₁⟩ ⟨hsub₂, hmem₂⟩
        refine ⟨List.Subset.trans hsub₁ hsub₂, fun c' hc' hj ha => ?_⟩
        rcases List.mem_append.mp hc' with hc' | hc'
        · exact hsub₂ (hmem₁ c' hc' hj ha)
        · exact hmem₂ c' hc' hj ha
      · intro s arg _
        refine ⟨?_, ih s arg⟩
        rw [trace_expanded]
        exact List.subset_append_right _ _
    intro c' hc' hj ha
    rw [trace_of_follows h] at hc' ⊢
    rcases List.mem_cons.mp hc' with rfl | hc'
    · exact hbelow.1 (by simp)
    · exact hbelow.2 c' hc' hj ha

/-! ### Who calls whom -/

/-- A call for one of the arguments of another call's symbol. -/
def Call.IsChild (m : M) (p c : Call) : Prop :=
  ∃ expanded, ∃ arg ∈ (argsOf m p.used).zipIdx, c = p.child expanded arg

/-- Whoever follows its arguments makes a call for each of them. -/
theorem exists_child_mem_trace (c : Call) : ∀ p ∈ (trace m maxDepth c).1, p.Follows m maxDepth →
    ∀ arg ∈ (argsOf m p.used).zipIdx, ∃ expanded, p.child expanded arg ∈ (trace m maxDepth c).1 := by
  induction c using trace_induction m maxDepth with
  | hleaf c h =>
    intro p hp hf
    rw [trace_of_not_follows h] at hp
    exact absurd (List.mem_singleton.mp hp ▸ hf) h
  | hnode c h ih =>
    have hbelow : ∀ p ∈ (below m maxDepth c).1, p.Follows m maxDepth →
        ∀ arg ∈ (argsOf m p.used).zipIdx, ∃ expanded,
          p.child expanded arg ∈ (below m maxDepth c).1 := by
      refine below_rel (fun _ cs _ => ∀ p ∈ cs, p.Follows m maxDepth →
        ∀ arg ∈ (argsOf m p.used).zipIdx, ∃ expanded, p.child expanded arg ∈ cs) ?_ ?_ c ?_
      · intro s
        simp
      · intro s₁ s₂ s₃ cs₁ cs₂ h₁ h₂ p hp hf arg harg
        rcases List.mem_append.mp hp with hp | hp
        · exact (h₁ p hp hf arg harg).imp fun _ hx => List.mem_append_left _ hx
        · exact (h₂ p hp hf arg harg).imp fun _ hx => List.mem_append_right _ hx
      · intro s arg _
        exact ih s arg
    intro p hp hf arg harg
    rw [trace_of_follows h] at hp ⊢
    rcases List.mem_cons.mp hp with rfl | hp
    · obtain ⟨s, hs⟩ := exists_step_subset_gather
        (fun expanded arg => trace m maxDepth (p.child expanded arg)) harg (p.used :: p.expanded)
      exact ⟨s, List.mem_cons_of_mem _ (hs (self_mem_trace _))⟩
    · exact (hbelow p hp hf arg harg).imp fun _ hx => List.mem_cons_of_mem _ hx

/-- Every call but the first one is made for an argument of a call that follows its arguments. -/
theorem eq_or_exists_parent (c : Call) : ∀ c' ∈ (trace m maxDepth c).1,
    c' = c ∨ ∃ p ∈ (trace m maxDepth c).1, p.Follows m maxDepth ∧ p.IsChild m c' := by
  induction c using trace_induction m maxDepth with
  | hleaf c h =>
    intro c' hc'
    rw [trace_of_not_follows h] at hc'
    exact .inl (List.mem_singleton.mp hc')
  | hnode c h ih =>
    have hbelow : ∀ c' ∈ (below m maxDepth c).1, c.IsChild m c' ∨
        ∃ p ∈ (below m maxDepth c).1, p.Follows m maxDepth ∧ p.IsChild m c' := by
      refine below_rel (fun _ cs _ => ∀ c' ∈ cs, c.IsChild m c' ∨
        ∃ p ∈ cs, p.Follows m maxDepth ∧ p.IsChild m c') ?_ ?_ c ?_
      · intro s
        simp
      · intro s₁ s₂ s₃ cs₁ cs₂ h₁ h₂ c' hc'
        rcases List.mem_append.mp hc' with hc' | hc'
        · exact (h₁ c' hc').imp_right fun ⟨p, hp, hx⟩ => ⟨p, List.mem_append_left _ hp, hx⟩
        · exact (h₂ c' hc').imp_right fun ⟨p, hp, hx⟩ => ⟨p, List.mem_append_right _ hp, hx⟩
      · intro s arg harg c' hc'
        rcases ih s arg c' hc' with rfl | hparent
        · exact .inl ⟨s, arg, harg, rfl⟩
        · exact .inr hparent
    intro c' hc'
    rw [trace_of_follows h] at hc' ⊢
    rcases List.mem_cons.mp hc' with rfl | hc'
    · exact .inl rfl
    · rcases hbelow c' hc' with hchild | ⟨p, hp, hx⟩
      · exact .inr ⟨c, List.mem_cons_self, h, hchild⟩
      · exact .inr ⟨p, List.mem_cons_of_mem _ hp, hx⟩

/-- All that a call finds below itself has what all calls for its arguments find. -/
theorem forall_mem_below {P : Call → Prop} (c : Call)
    (hchild : ∀ s arg, ∀ c' ∈ (trace m maxDepth (c.child s arg)).1, P c') :
    ∀ c' ∈ (below m maxDepth c).1, P c' := by
  refine below_rel (fun _ cs _ => ∀ c' ∈ cs, P c') (by simp) ?_ c fun s arg _ => hchild s arg
  intro s₁ s₂ s₃ cs₁ cs₂ h₁ h₂ c' hc'
  rcases List.mem_append.mp hc' with hc' | hc'
  · exact h₁ c' hc'
  · exact h₂ c' hc'

/-- The symbols above a call stay above all calls that it leads to. -/
theorem path_suffix_of_mem_trace (c : Call) :
    ∀ c' ∈ (trace m maxDepth c).1, c.path <:+ c'.path := by
  induction c using trace_induction m maxDepth with
  | hleaf c h =>
    intro c' hc'
    rw [trace_of_not_follows h] at hc'
    obtain rfl := List.mem_singleton.mp hc'
    exact List.suffix_rfl
  | hnode c h ih =>
    have hbelow : ∀ c' ∈ (below m maxDepth c).1, c.used :: c.path <:+ c'.path :=
      forall_mem_below c ih
    intro c' hc'
    rw [trace_of_follows h] at hc'
    rcases List.mem_cons.mp hc' with rfl | hc'
    · exact List.suffix_rfl
    · exact (List.suffix_cons _ _).trans (hbelow c' hc')

/-- A call stands above all that it finds below itself. -/
theorem path_suffix_of_mem_below (c : Call) :
    ∀ c' ∈ (below m maxDepth c).1, c.used :: c.path <:+ c'.path :=
  forall_mem_below c fun s arg => path_suffix_of_mem_trace (c.child s arg)

/-! ### Which positions are asked -/

/-- The argument positions of a call's symbol. -/
def Call.slots (m : M) (c : Call) : List (SymbolId × Nat) :=
  (argsOf m c.used).zipIdx.map fun arg => (c.used, arg.2)

theorem below_positions (c : Call) (args : List (SymbolId × Nat)) (s : List SymbolId)
    (ih : ∀ s arg, ((trace m maxDepth (c.child s arg)).1.filterMap Call.position).Perm
      ((c.used, arg.2) ::
        ((trace m maxDepth (c.child s arg)).1.filter (·.Follows m maxDepth)).flatMap (Call.slots m))) :
    ((gather (fun s arg => trace m maxDepth (c.child s arg)) s args).1.filterMap Call.position).Perm
      (args.map (fun arg => (c.used, arg.2)) ++
        ((gather (fun s arg => trace m maxDepth (c.child s arg)) s args).1.filter
          (·.Follows m maxDepth)).flatMap (Call.slots m)) := by
  induction args generalizing s with
  | nil => simp [gather]
  | cons arg args ihargs =>
    rw [gather_cons, List.filterMap_append, List.filter_append, List.flatMap_append, List.map_cons,
      List.cons_append]
    refine ((ih s arg).append (ihargs _)).trans ?_
    rw [List.cons_append]
    exact (List.perm_append_comm_assoc _ _ _).cons _

/-- The positions that are asked are those of the symbols that are followed, besides the position of
the first call itself. -/
theorem trace_positions (c : Call) : ((trace m maxDepth c).1.filterMap Call.position).Perm
    (c.position.toList ++
      ((trace m maxDepth c).1.filter (·.Follows m maxDepth)).flatMap (Call.slots m)) := by
  induction c using trace_induction m maxDepth with
  | hleaf c h => cases hp : c.position <;> simp [trace_of_not_follows h, h, hp]
  | hnode c h ih =>
    have hbelow := below_positions c (argsOf m c.used).zipIdx (c.used :: c.expanded)
      (fun s arg => by simpa [Call.child] using ih s arg)
    have hself : (c :: (below m maxDepth c).1).filterMap Call.position =
        c.position.toList ++ (below m maxDepth c).1.filterMap Call.position := by
      cases hp : c.position <;> simp [hp]
    rw [trace_of_follows h, List.filter_cons_of_pos (by simpa using h), List.flatMap_cons, hself]
    exact hbelow.append_left _

theorem Call.slots_nodup (c : Call) : (c.slots m).Nodup := by
  have hslots : c.slots m = (List.range' 0 (argsOf m c.used).length).map fun i => (c.used, i) := by
    rw [Call.slots, ← List.zipIdx_map_snd 0 (argsOf m c.used), List.map_map]
    rfl
  have hindices : (List.range' 0 (argsOf m c.used).length).Nodup := List.nodup_range'
  rw [hslots]
  exact hindices.map fun i j hij => congrArg Prod.snd hij

/-! ### Occurrences -/

/-- What is judged in a list of calls. -/
def judged (m : M) (maxDepth : Nat) (cs : List Call) : List Occurrence :=
  (cs.filter (·.Judged m maxDepth)).map Call.occurrence

theorem judged_cons_of_pos {c : Call} (h : c.Judged m maxDepth) (cs : List Call) :
    judged m maxDepth (c :: cs) = c.occurrence :: judged m maxDepth cs := by
  simp [judged, h]

theorem judged_cons_of_neg {c : Call} (h : ¬ c.Judged m maxDepth) (cs : List Call) :
    judged m maxDepth (c :: cs) = judged m maxDepth cs := by
  simp [judged, h]

theorem judged_append (cs₁ cs₂ : List Call) :
    judged m maxDepth (cs₁ ++ cs₂) = judged m maxDepth cs₁ ++ judged m maxDepth cs₂ := by
  simp [judged]

/-- The occurrences are the calls that are judged. -/
theorem run_eq_trace (room : Nat) (c : Call) (hroom : room + c.path.length = maxDepth + 1) :
    run m room c.path c.expanded c.kind c.used =
      (judged m maxDepth (trace m maxDepth c).1, (trace m maxDepth c).2) := by
  induction room generalizing c with
  | zero =>
    have hf : ¬ c.Follows m maxDepth := fun h => by have := h.2.1; omega
    have hj : ¬ c.Judged m maxDepth := fun h => by have := h.2.1; omega
    simp [run, trace_of_not_follows hf, judged, hj]
  | succ room ih =>
    rw [run]
    split
    next hp =>
      have hf : ¬ c.Follows m maxDepth := fun h => h.1 hp
      have hj : ¬ c.Judged m maxDepth := fun h => h.1 hp
      simp [trace_of_not_follows hf, judged, hj]
    next hp =>
      split
      next hs =>
        have hj : ¬ c.Judged m maxDepth := fun h => by simpa [hs] using h.2.2
        simp [trace_of_not_follows fun h => hj h.judged, judged, hj]
      next s hs =>
        have hj : c.Judged m maxDepth := ⟨hp, by omega, by simp [hs]⟩
        have hargs := argsOf_of_some hs
        split
        next hstop =>
          have hf : ¬ c.Follows m maxDepth := fun h => by
            rcases hstop with hnil | hmem
            · exact h.2.2.1 (hargs.trans hnil)
            · exact h.2.2.2 hmem
          simp [trace_of_not_follows hf, judged, hj, Call.occurrence]
        next hgo =>
          rw [not_or] at hgo
          have hf : c.Follows m maxDepth := ⟨hp, by omega, hargs ▸ hgo.1, hgo.2⟩
          -- the plain pass over the arguments is a view of the pass over their positions
          have hpass : gather (fun expanded arg =>
              run m room (c.used :: c.path) expanded .typeArgument arg) (c.used :: c.expanded)
              ((argsOf m c.used).zipIdx.map Prod.fst) =
              (judged m maxDepth (below m maxDepth c).1, (below m maxDepth c).2) := by
            refine gather_view (judged m maxDepth) rfl judged_append Prod.fst _ ?_ _
            intro expanded arg _
            refine ih (c.child expanded arg) ?_
            simp only [Call.child, List.length_cons]
            omega
          rw [List.zipIdx_map_fst, hargs] at hpass
          rw [hpass, trace_of_follows hf]
          simp [judged, hj, Call.occurrence]

/-- A bound that cuts nothing off can be raised without effect. -/
theorem trace_eq_of_le {maxDepth' : Nat} (hle : maxDepth ≤ maxDepth') (c : Call)
    (hcut : ∀ c' ∈ (trace m maxDepth c).1, c'.path.length ≤ maxDepth) :
    trace m maxDepth' c = trace m maxDepth c := by
  induction c using trace_induction m maxDepth with
  | hleaf c h =>
    have hlen := hcut c (self_mem_trace c)
    have h' : ¬ c.Follows m maxDepth' := fun hf => h ⟨hf.1, hlen, hf.2.2⟩
    rw [trace_of_not_follows h, trace_of_not_follows h']
  | hnode c h ih =>
    have h' : c.Follows m maxDepth' := ⟨h.1, Nat.le_trans h.2.1 hle, h.2.2⟩
    rw [trace_of_follows h] at hcut
    have hbelow : below m maxDepth' c = below m maxDepth c :=
      gather_congr (fun c' => c'.path.length ≤ maxDepth) _ (fun s arg _ hs => ih s arg hs) _
        fun c' hc' => hcut c' (List.mem_cons_of_mem _ hc')
    rw [trace_of_follows h, trace_of_follows h', hbelow]

end UsagePolicy.Descent
