import Mathlib.Data.List.Forall2

/-! Computations that may fail: what follows when they succeed, and where those stop that look for
faults in a fixed order. -/
namespace UsagePolicy

variable {ε α β : Type}

/-- A computation in steps succeeds if its first step does and the others do with its result. -/
theorem bind_eq_ok_iff {x : Except ε α} {f : α → Except ε β} {b : β} :
    x >>= f = .ok b ↔ ∃ a, x = .ok a ∧ f a = .ok b := by
  cases x with
  | error e => simp [bind, Except.bind]
  | ok a => simp [bind, Except.bind]

theorem toOption_eq_some_iff {x : Except ε α} {a : α} : x.toOption = some a ↔ x = .ok a := by
  cases x <;> simp [Except.toOption]

/-- A list is worked off successfully if each entry is. -/
theorem mapM_eq_ok_iff {f : α → Except ε β} {as : List α} {bs : List β} :
    as.mapM f = .ok bs ↔ List.Forall₂ (fun a b => f a = .ok b) as bs := by
  induction as generalizing bs with
  | nil =>
    rw [List.mapM_nil, List.forall₂_nil_left_iff]
    exact ⟨fun h => (Except.ok.inj h).symm, fun h => h ▸ rfl⟩
  | cons a as ih =>
    rw [List.mapM_cons, bind_eq_ok_iff, List.forall₂_cons_left_iff]
    constructor
    · rintro ⟨b, hb, h⟩
      obtain ⟨rest, hrest, h⟩ := bind_eq_ok_iff.mp h
      exact ⟨b, rest, hb, ih.mp hrest, (Except.ok.inj h).symm⟩
    · rintro ⟨b, rest, hb, hrest, rfl⟩
      exact ⟨b, hb, bind_eq_ok_iff.mpr ⟨rest, ih.mpr hrest, rfl⟩⟩

theorem forall_mem_of_forall₂ {R : α → β → Prop} {as : List α} {bs : List β} {P : β → Prop}
    (h : List.Forall₂ R as bs) (hP : ∀ a ∈ as, ∀ b, R a b → P b) : ∀ b ∈ bs, P b := by
  induction h with
  | nil => exact fun b hb => nomatch hb
  | cons hab _ ih =>
    intro b hb
    rcases List.mem_cons.mp hb with rfl | hb
    · exact hP _ List.mem_cons_self b hab
    · exact ih (fun a ha => hP a (List.mem_cons_of_mem _ ha)) b hb

theorem forall_mem_of_mapM_eq_ok {f : α → Except ε β} {as : List α} {bs : List β} {P : β → Prop}
    (h : as.mapM f = .ok bs) (hP : ∀ a b, f a = .ok b → P b) : ∀ b ∈ bs, P b :=
  forall_mem_of_forall₂ (mapM_eq_ok_iff.mp h) fun a _ => hP a

theorem map_eq_map_of_forall₂ {γ : Type} {R : α → β → Prop} {as : List α} {bs : List β} {f : α → γ}
    {g : β → γ} (h : List.Forall₂ R as bs) (hR : ∀ a b, R a b → g b = f a) : bs.map g = as.map f := by
  induction h with
  | nil => rfl
  | cons hab _ ih => rw [List.map_cons, List.map_cons, hR _ _ hab, ih]

/-! ### Stopping at the first fault -/

/-- A computation screens its input for a list of faults: it stops at the first one, and if there are
none it comes to a value of some kind. -/
inductive Screens (P : α → Prop) : Except ε α → List ε → Prop
  | pass {a : α} (h : P a) : Screens P (.ok a) []
  | stop (e : ε) (others : List ε) : Screens P (.error e) (e :: others)

/-- The fault of a condition that does not hold. -/
def faultUnless (p : Prop) [Decidable p] (e : ε) : List ε := if p then [] else [e]

section FaultUnless
variable {p : Prop} [Decidable p] {e : ε}

theorem faultUnless_of_pos (h : p) : faultUnless p e = [] := if_pos h

theorem faultUnless_of_neg (h : ¬ p) : faultUnless p e = [e] := if_neg h

@[simp] theorem faultUnless_eq_nil_iff : faultUnless p e = [] ↔ p := by
  by_cases h : p <;> simp [faultUnless, h]

theorem eq_of_mem_faultUnless {e' : ε} (h : e' ∈ faultUnless p e) : e' = e := by
  by_cases hp : p
  · simp [faultUnless_of_pos hp] at h
  · simpa [faultUnless_of_neg hp] using h

theorem head?_faultUnless {e' : ε} : (faultUnless p e).head? = some e' ↔ ¬ p ∧ e' = e := by
  by_cases h : p <;> simp [faultUnless, h, eq_comm]

end FaultUnless

namespace Screens

variable {P : α → Prop} {Q : β → Prop} {x : Except ε α} {f : α → Except ε β} {faults others : List ε}

/-- A check of one condition. -/
theorem guard {p : Prop} [Decidable p] {e : ε} (hpass : p → ∃ a, x = .ok a ∧ P a)
    (hstop : ¬ p → x = .error e) : Screens P x (faultUnless p e) := by
  by_cases h : p
  · obtain ⟨a, rfl, ha⟩ := hpass h
    rw [faultUnless_of_pos h]
    exact .pass ha
  · rw [hstop h, faultUnless_of_neg h]
    exact .stop e []

/-- Two steps look for the faults of the first and then for those of the second, which do not depend
on what the first one comes to. -/
theorem bind (hx : Screens P x faults) (hf : ∀ a, P a → Screens Q (f a) others) :
    Screens Q (x >>= f) (faults ++ others) := by
  cases hx with
  | pass ha => exact hf _ ha
  | stop e rest => exact .stop e (rest ++ others)

/-- A list is looked through entry by entry. -/
theorem mapM {R : α → β → Prop} {found : α → List ε} (as : List α)
    (h : ∀ a ∈ as, Screens (R a) (f a) (found a)) :
    Screens (List.Forall₂ R as) (as.mapM f) (as.flatMap found) := by
  induction as with
  | nil => exact .pass .nil
  | cons a as ih =>
    rw [List.mapM_cons, List.flatMap_cons]
    refine (h a (by simp)).bind fun b hb => ?_
    have hrest := ih fun a' ha' => h a' (by simp [ha'])
    rw [← List.append_nil (as.flatMap found)]
    exact hrest.bind fun bs hbs => .pass (.cons hb hbs)

theorem exists_ok_iff (h : Screens P x faults) : (∃ a, x = .ok a) ↔ faults = [] := by
  cases h <;> simp

theorem of_ok (h : Screens P x faults) {a : α} (ha : x = .ok a) : P a := by
  cases h with
  | pass hp => exact Except.ok.inj ha ▸ hp
  | stop e others => cases ha

theorem error_iff (h : Screens P x faults) {e : ε} : x = .error e ↔ faults.head? = some e := by
  cases h <;> simp

end Screens

/-- The first fault of a list of entries is the first one of the first entry that has any. -/
theorem head?_flatMap_zipIdx {Valid : α → Prop} {found : α → Nat → List ε}
    (hvalid : ∀ a i, found a i = [] ↔ Valid a) (as : List α) (start : Nat) {e : ε} :
    ((as.zipIdx start).flatMap fun p => found p.1 p.2).head? = some e ↔
      ∃ before a after, as = before ++ a :: after ∧ (∀ x ∈ before, Valid x) ∧
        (found a (start + before.length)).head? = some e := by
  induction as generalizing start with
  | nil => simp
  | cons b as ih =>
    rw [List.zipIdx_cons, List.flatMap_cons]
    by_cases hb : Valid b
    · rw [(hvalid b start).mpr hb, List.nil_append, ih]
      constructor
      · rintro ⟨before, a, after, rfl, hbefore, hfound⟩
        refine ⟨b :: before, a, after, rfl, by simpa [hb] using hbefore, ?_⟩
        rwa [List.length_cons, ← Nat.add_assoc, Nat.add_right_comm]
      · rintro ⟨before, a, after, hsplit, hbefore, hfound⟩
        cases before with
        | nil =>
          obtain ⟨rfl, -⟩ := List.cons.inj hsplit
          simp [(hvalid b _).mpr hb] at hfound
        | cons b' before =>
          obtain ⟨rfl, rfl⟩ := List.cons.inj hsplit
          refine ⟨before, a, after, rfl, fun x hx => hbefore x (List.mem_cons_of_mem b hx), ?_⟩
          rwa [List.length_cons, ← Nat.add_assoc, Nat.add_right_comm] at hfound
    · have hne : found b start ≠ [] := fun h => hb ((hvalid b start).mp h)
      rw [List.head?_append_of_ne_nil _ hne]
      constructor
      · exact fun hfound => ⟨[], b, as, rfl, by simp, hfound⟩
      · rintro ⟨before, a, after, hsplit, hbefore, hfound⟩
        cases before with
        | nil =>
          obtain ⟨rfl, -⟩ := List.cons.inj hsplit
          exact hfound
        | cons b' before =>
          obtain ⟨rfl, -⟩ := List.cons.inj hsplit
          exact absurd (hbefore b List.mem_cons_self) hb

end UsagePolicy
