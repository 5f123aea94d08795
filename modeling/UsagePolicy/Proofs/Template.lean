import UsagePolicy.Template

/-! Filling templates. A slot starts with a brace and has no other opening brace in it, so a template
can be cut before any opening brace and its parts filled one by one. Hence whatever stands around a
slot, the name that belongs there comes out in full. -/
namespace UsagePolicy

theorem Text.occurs_iff_infix {word text : List Char} : Text.occurs word text ↔ word <:+: text := by
  induction text with
  | nil => simp [Text.occurs]
  | cons c text ih =>
    rw [Text.occurs, List.infix_cons_iff, Bool.or_eq_true, List.isPrefixOf_iff_prefix, ih]

namespace Template

/-- What is left of a slot behind its brace does not run over another opening brace. -/
theorem slot_before_brace {digit : Char} (hdigit : '\x7b' ≠ digit) {cs t rest : List Char}
    (h : cs ++ '\x7b' :: t = digit :: '\x7d' :: rest) : ∃ more, cs = digit :: '\x7d' :: more := by
  match cs with
  | [] => exact absurd (List.cons.inj h).1 hdigit
  | [c] => simp at h
  | c :: c' :: cs =>
    simp only [List.cons_append, List.cons.injEq] at h
    exact ⟨cs, by rw [h.1, h.2.1]⟩

variable (used context : List Char)

/-- A template may be cut before an opening brace. -/
theorem fill_append_brace (s t : List Char) :
    fill used context (s ++ '\x7b' :: t) =
      fill used context s ++ fill used context ('\x7b' :: t) := by
  fun_induction fill used context s with
  | case1 cs ih => simp [fill, ih]
  | case2 cs ih => simp [fill, ih]
  | case3 c cs hused hcontext ih =>
    -- `c` does not start a slot in `c :: cs`, so it does not start one with more text behind it
    rw [List.cons_append, fill.eq_3, ih, List.cons_append]
    · intro rest hc hslot
      obtain ⟨more, hmore⟩ := slot_before_brace (by decide) hslot
      exact hused more hc hmore
    · intro rest hc hslot
      obtain ⟨more, hmore⟩ := slot_before_brace (by decide) hslot
      exact hcontext more hc hmore
  | case4 => simp

theorem fill_append_usedSlot (s t : List Char) :
    fill used context (s ++ usedSlot ++ t) =
      fill used context s ++ used ++ fill used context t := by
  rw [List.append_assoc, usedSlot, List.cons_append, fill_append_brace, List.append_assoc]
  rfl

theorem fill_append_contextSlot (s t : List Char) :
    fill used context (s ++ contextSlot ++ t) =
      fill used context s ++ context ++ fill used context t := by
  rw [List.append_assoc, contextSlot, List.cons_append, fill_append_brace, List.append_assoc]
  rfl

/-- A template with both slots. -/
def HasSlots (template : String) : Prop :=
  usedSlot <:+: template.toList ∧ contextSlot <:+: template.toList

theorem hasSlots_iff {template : String} : hasSlots template ↔ HasSlots template := by
  rw [hasSlots, HasSlots, Bool.and_eq_true, Text.occurs_iff_infix, Text.occurs_iff_infix]

/-- Both names come out in full, whatever characters they have. -/
theorem names_infix_fill {template : String} (h : HasSlots template) :
    used <:+: fill used context template.toList ∧
      context <:+: fill used context template.toList := by
  obtain ⟨⟨s, t, hs⟩, s', t', hs'⟩ := h
  constructor
  · rw [← hs, fill_append_usedSlot]
    exact ⟨_, _, rfl⟩
  · rw [← hs', fill_append_contextSlot]
    exact ⟨_, _, rfl⟩

end Template

end UsagePolicy
