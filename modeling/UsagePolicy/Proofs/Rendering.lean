import UsagePolicy.Descriptor
import UsagePolicy.Proofs.Template

/-! Messages from templates. A template is a row of letters and slots that does not depend on the names,
so all slots are filled at once and names are not looked through for slots. The same text comes from a
pass over the bytes of a template, from opening brace to opening brace, which takes a turn for each of
them and never cuts a character in two. -/
namespace UsagePolicy.Template

/-! ### Letters and slots -/

inductive Part where
  | letter (c : Char)
  | used
  | context

/-- What stands for a part in a message. -/
def Part.text (used context : List Char) : Part → List Char
  | letter c => [c]
  | .used => used
  | .context => context

def parts : List Char → List Part
  | '\x7b' :: '0' :: '\x7d' :: cs => .used :: parts cs
  | '\x7b' :: '1' :: '\x7d' :: cs => .context :: parts cs
  | c :: cs => .letter c :: parts cs
  | [] => []

theorem fill_eq_flatMap (used context cs : List Char) :
    fill used context cs = (parts cs).flatMap (Part.text used context) := by
  fun_induction parts cs with
  | case1 cs ih => rw [fill, ih]; rfl
  | case2 cs ih => rw [fill, ih]; rfl
  | case3 c cs hused hcontext ih => rw [fill.eq_3 _ _ _ _ hused hcontext, ih]; rfl
  | case4 => rfl

/-- A slot as a name brings the slot back. -/
theorem fill_slots (cs : List Char) : fill usedSlot contextSlot cs = cs := by
  fun_induction fill usedSlot contextSlot cs with
  | case1 cs ih => rw [ih]; rfl
  | case2 cs ih => rw [ih]; rfl
  | case3 c cs _ _ ih => rw [ih]
  | case4 => rfl

variable (used context : List Char)

theorem fill_eq_self {cs : List Char} (hused : ¬ usedSlot <:+: cs) (hcontext : ¬ contextSlot <:+: cs) :
    fill used context cs = cs := by
  fun_induction fill used context cs with
  | case1 cs => exact absurd (List.prefix_append usedSlot cs).isInfix hused
  | case2 cs => exact absurd (List.prefix_append contextSlot cs).isInfix hcontext
  | case3 c cs _ _ ih =>
    rw [ih (fun h => hused (h.trans (List.suffix_cons c cs).isInfix))
      (fun h => hcontext (h.trans (List.suffix_cons c cs).isInfix))]
  | case4 => rfl

/-- Text without opening braces stays as it is. -/
theorem fill_eq_self_of_notMem {cs : List Char} (h : '\x7b' ∉ cs) : fill used context cs = cs :=
  fill_eq_self used context (fun hslot => h (hslot.subset (by decide)))
    (fun hslot => h (hslot.subset (by decide)))

/-! ### Cuts between bytes -/

/-- Cuts a text at a number of bytes, unless that is inside a character or behind the end. -/
def cut? (s : String) (offset : Nat) : Option (String × String) :=
  if h : String.Pos.Raw.IsValid s ⟨offset⟩ then
    some ((s.sliceTo ⟨⟨offset⟩, h⟩).copy, (s.sliceFrom ⟨⟨offset⟩, h⟩).copy)
  else none

theorem cut?_eq_some_iff {s a b : String} {offset : Nat} :
    cut? s offset = some (a, b) ↔ s = a ++ b ∧ a.utf8ByteSize = offset := by
  constructor
  · intro h
    unfold cut? at h
    split at h
    · next hvalid =>
      obtain ⟨rfl, rfl⟩ := Prod.mk.inj (Option.some.inj h)
      have hsplits := @String.Pos.splits s ⟨⟨offset⟩, hvalid⟩
      exact ⟨hsplits.eq_append, congrArg String.Pos.Raw.byteIdx hsplits.offset_eq_rawEndPos.symm⟩
    · cases h
  · rintro ⟨rfl, rfl⟩
    have hvalid : String.Pos.Raw.IsValid (a ++ b) ⟨a.utf8ByteSize⟩ :=
      String.Pos.Raw.isValid_iff_exists_append.mpr ⟨a, b, rfl, rfl⟩
    have hsplits := @String.Pos.splits (a ++ b) ⟨⟨a.utf8ByteSize⟩, hvalid⟩
    obtain ⟨ha, hb⟩ : _ = a ∧ _ = b := hsplits.eq ⟨rfl, rfl⟩
    rw [cut?, dif_pos hvalid, ha, hb]

/-- The byte at which the first opening brace stands. -/
def braceOffset? (s : String) : Option Nat := (s.find? '\x7b').map (·.offset.byteIdx)

theorem braceOffset?_append {a b : String} (h : '\x7b' ∉ a.toList) :
    braceOffset? (a ++ ("\x7b" ++ b)) = some a.utf8ByteSize := by
  have hvalid : String.Pos.Raw.IsValid (a ++ ("\x7b" ++ b)) ⟨a.utf8ByteSize⟩ :=
    String.Pos.Raw.isValid_iff_exists_append.mpr ⟨a, _, rfl, rfl⟩
  have hfind : (a ++ ("\x7b" ++ b)).find? '\x7b' = some ⟨⟨a.utf8ByteSize⟩, hvalid⟩ :=
    String.find?_char_eq_some_iff_splits.mpr ⟨a, b, ⟨rfl, rfl⟩, h⟩
  rw [braceOffset?, hfind]
  rfl

theorem braceOffset?_eq_none {s : String} (h : '\x7b' ∉ s.toList) : braceOffset? s = none := by
  rw [braceOffset?, Option.map_eq_none_iff, Option.eq_none_iff_forall_ne_some]
  intro pos hpos
  obtain ⟨a, b, hsplits, -⟩ := String.find?_char_eq_some_iff_splits.mp hpos
  apply h
  rw [hsplits.eq_append]
  simp

/-! ### A pass over the bytes -/

/-- A pass has written some of a message and has to read what is left of the template, until it has
the whole message. -/
inductive Pass where
  | reading (written left : String)
  | finished (message : String)

/-- What a brace is written as and how many bytes it takes with what belongs to it: a slot takes three,
and any other brace is text. -/
def opening (used context left : String) : String × Nat :=
  if left.startsWith "\x7b0\x7d" then (used, 3)
  else if left.startsWith "\x7b1\x7d" then (context, 3)
  else ("\x7b", 1)

namespace Pass

/-- One turn goes past the next opening brace, or to the end if there is none. There is no result if
a cut is inside a character. -/
def turn (used context : String) : Pass → Option Pass
  | finished message => some (.finished message)
  | reading written left =>
    match braceOffset? left with
    | none => some (.finished (written ++ left))
    | some offset => do
      let (before, atBrace) ← cut? left offset
      let (text, size) := opening used context atBrace
      let (_, after) ← cut? atBrace size
      return .reading (written ++ before ++ text) after

def run (used context : String) : Nat → Pass → Option Pass
  | 0, p => some p
  | n + 1, p => p.turn used context >>= run used context n

end Pass

theorem exists_eq_append_of_startsWith {slot s : String} (h : s.startsWith slot) :
    ∃ after, s = slot ++ after := by
  obtain ⟨after, hafter⟩ := String.startsWith_string_iff.mp h
  refine ⟨String.ofList after, String.toList_injective ?_⟩
  rw [String.toList_append, String.toList_ofList, hafter]

section Turns

variable (used context : String)

/-- A brace is read with what belongs to it, and with no other brace. -/
theorem opening_spec {s t : String} (hs : s = "\x7b" ++ t) : ∃ taken after, s = taken ++ after ∧
    taken.utf8ByteSize = (opening used context s).2 ∧ taken.toList.count '\x7b' = 1 ∧
    fill used.toList context.toList s.toList =
      (opening used context s).1.toList ++ fill used.toList context.toList after.toList := by
  rw [opening]
  split
  next hused =>
    obtain ⟨after, rfl⟩ := exists_eq_append_of_startsWith hused
    refine ⟨_, after, rfl, rfl, rfl, ?_⟩
    rw [String.toList_append]
    exact fill_append_usedSlot _ _ [] after.toList
  next hused =>
    split
    next hcontext =>
      obtain ⟨after, rfl⟩ := exists_eq_append_of_startsWith hcontext
      refine ⟨_, after, rfl, rfl, rfl, ?_⟩
      rw [String.toList_append]
      exact fill_append_contextSlot _ _ [] after.toList
    next hcontext =>
      rw [String.startsWith_string_iff] at hused hcontext
      refine ⟨_, t, hs, rfl, rfl, ?_⟩
      rw [hs, String.toList_append] at hused hcontext ⊢
      refine fill.eq_3 _ _ _ _ ?_ ?_
      · rintro rest - hrest
        exact hused ⟨rest, congrArg ('\x7b' :: ·) hrest.symm⟩
      · rintro rest - hrest
        exact hcontext ⟨rest, congrArg ('\x7b' :: ·) hrest.symm⟩

/-- What has been written and what will be. -/
def Pass.message : Pass → List Char
  | reading written left => written.toList ++ fill used.toList context.toList left.toList
  | finished message => message.toList

/-- One for each brace, and one for the end. -/
def Pass.turnsLeft : Pass → Nat
  | reading _ left => left.toList.count '\x7b' + 1
  | finished _ => 0

theorem exists_eq_append_brace {s : String} (h : '\x7b' ∈ s.toList) :
    ∃ before t : String, s = before ++ ("\x7b" ++ t) ∧ '\x7b' ∉ before.toList := by
  obtain ⟨before, t, hs, hbefore⟩ := List.eq_append_cons_of_mem h
  refine ⟨String.ofList before, String.ofList t, String.toList_injective ?_, ?_⟩
  · simpa using hs
  · simpa using hbefore

/-- A turn cuts between characters, keeps to the message and leaves one turn less. -/
theorem Pass.turn_reading (written left : String) : ∃ p : Pass,
    (reading written left).turn used context = some p ∧
    p.message used context = (reading written left).message used context ∧
    p.turnsLeft + 1 = (reading written left).turnsLeft := by
  by_cases h : '\x7b' ∈ left.toList
  · obtain ⟨before, t, rfl, hbefore⟩ := exists_eq_append_brace h
    -- from here on only what is read at the brace matters, a slot or the brace alone
    generalize hatBrace : "\x7b" ++ t = atBrace
    obtain ⟨taken, after, htaken, hsize, hcount, hfill⟩ := opening_spec used context hatBrace.symm
    have hfirst : cut? (before ++ atBrace) before.utf8ByteSize = some (before, atBrace) :=
      cut?_eq_some_iff.mpr ⟨rfl, rfl⟩
    have hsecond : cut? atBrace (opening used context atBrace).2 = some (taken, after) :=
      cut?_eq_some_iff.mpr ⟨htaken, hsize⟩
    have hoffset : braceOffset? (before ++ atBrace) = some before.utf8ByteSize := by
      rw [← hatBrace, braceOffset?_append hbefore]
    refine ⟨reading (written ++ before ++ (opening used context atBrace).1) after, ?_, ?_, ?_⟩
    · simp [turn, hoffset, hfirst, hsecond]
    · have hcut : fill used.toList context.toList (before.toList ++ atBrace.toList) =
          before.toList ++ fill used.toList context.toList atBrace.toList := by
        have hlist : atBrace.toList = '\x7b' :: t.toList := by simp [← hatBrace]
        rw [hlist, fill_append_brace, fill_eq_self_of_notMem _ _ hbefore]
      simp [message, hcut, hfill]
    · simp [turnsLeft, htaken, hcount, List.count_eq_zero_of_not_mem hbefore, Nat.add_comm]
  · refine ⟨finished (written ++ left), ?_, ?_, ?_⟩
    · rw [turn, braceOffset?_eq_none h]
    · simp [message, fill_eq_self_of_notMem _ _ h]
    · simp [turnsLeft, List.count_eq_zero_of_not_mem h]

/-- A pass comes to its message in as many turns as it has left. -/
theorem Pass.run_turnsLeft (p : Pass) :
    p.run used context p.turnsLeft = some (.finished (String.ofList (p.message used context))) := by
  induction hturns : p.turnsLeft generalizing p with
  | zero =>
    cases p with
    | reading written left => simp [turnsLeft] at hturns
    | finished message => simp [run, Pass.message]
  | succ n ih =>
    cases p with
    | finished message => simp [turnsLeft] at hturns
    | reading written left =>
      obtain ⟨p, hturn, hmessage, hleft⟩ := turn_reading used context written left
      rw [run, hturn, ← hmessage]
      exact ih p (by omega)

end Turns

end UsagePolicy.Template

namespace UsagePolicy.Descriptor

open Template

/-- Rendering puts both names into all slots at once. A template without slots is its own message, a
slot gives its name between the messages of what stands before and behind it, and the message is a row
of letters and names that is the same for all names, so that a slot inside a name is not filled and
slots as names bring the template back. A pass over the bytes ends with the same message after a turn
for each opening brace and one more, and all its cuts are between characters. -/
theorem render_simultaneous (d : Descriptor) (used context : String) :
    (¬ usedSlot <:+: d.template.toList → ¬ contextSlot <:+: d.template.toList →
      d.render used context = d.template) ∧
    (∀ s t : String, render { d with template := s ++ "\x7b0\x7d" ++ t } used context =
      render { d with template := s } used context ++ used ++
        render { d with template := t } used context) ∧
    (∀ s t : String, render { d with template := s ++ "\x7b1\x7d" ++ t } used context =
      render { d with template := s } used context ++ context ++
        render { d with template := t } used context) ∧
    (∃ parts : List Part, ∀ used context : String,
      d.render used context = String.ofList (parts.flatMap (Part.text used.toList context.toList))) ∧
    d.render "\x7b0\x7d" "\x7b1\x7d" = d.template ∧
    Pass.run used context (d.template.toList.count '\x7b' + 1) (.reading "" d.template) =
      some (.finished (d.render used context)) := by
  refine ⟨fun hused hcontext => ?_, fun s t => ?_, fun s t => ?_, ?_, ?_, ?_⟩
  · rw [render, fill_eq_self _ _ hused hcontext, String.ofList_toList]
  · have hslot : (s ++ "\x7b0\x7d" ++ t).toList = s.toList ++ usedSlot ++ t.toList := by
      rw [String.toList_append, String.toList_append]
      rfl
    simp only [render, hslot, fill_append_usedSlot, String.ofList_append, String.ofList_toList]
  · have hslot : (s ++ "\x7b1\x7d" ++ t).toList = s.toList ++ contextSlot ++ t.toList := by
      rw [String.toList_append, String.toList_append]
      rfl
    simp only [render, hslot, fill_append_contextSlot, String.ofList_append, String.ofList_toList]
  · exact ⟨parts d.template.toList, fun used context => by rw [render, fill_eq_flatMap]⟩
  · rw [render]
    exact (congrArg String.ofList (fill_slots d.template.toList)).trans String.ofList_toList
  · exact Pass.run_turnsLeft used context (.reading "" d.template)

/-- Braces that belong to no slot. -/
def looseBraces : Descriptor where
  id := "NS001"
  template := "ß\x7b2\x7d\x7b"

/-- A slot behind a brace is filled, the name in it is not looked through, and the pass takes a turn for
each of the four braces. -/
theorem render_simultaneous_loose :
    ¬ usedSlot <:+: looseBraces.template.toList ∧ ¬ contextSlot <:+: looseBraces.template.toList ∧
    looseBraces.render "\x7b1\x7d" "é" = looseBraces.template ∧
    render { looseBraces with template := "\x7b\x7b0\x7dß\x7b2\x7d\x7b" } "\x7b1\x7d" "é" =
      "\x7b\x7b1\x7dß\x7b2\x7d\x7b" ∧
    Pass.run "\x7b1\x7d" "é" 5 (.reading "" "\x7b\x7b0\x7dß\x7b2\x7d\x7b") =
      some (.finished "\x7b\x7b1\x7dß\x7b2\x7d\x7b") := by
  have hused : ¬ usedSlot <:+: looseBraces.template.toList := by decide
  have hcontext : ¬ contextSlot <:+: looseBraces.template.toList := by decide
  obtain ⟨hself, hlaw, -⟩ := render_simultaneous looseBraces "\x7b1\x7d" "é"
  obtain ⟨-, -, -, -, -, hrun⟩ := render_simultaneous
    { looseBraces with template := "\x7b\x7b0\x7dß\x7b2\x7d\x7b" } "\x7b1\x7d" "é"
  have hmessage : render { looseBraces with template := "\x7b\x7b0\x7dß\x7b2\x7d\x7b" }
      "\x7b1\x7d" "é" = "\x7b\x7b1\x7dß\x7b2\x7d\x7b" := by
    have hbrace : render { looseBraces with template := "\x7b" } "\x7b1\x7d" "é" = "\x7b" := by decide
    have hparts := hlaw "\x7b" looseBraces.template
    rw [hbrace, hself hused hcontext] at hparts
    exact hparts
  rw [hmessage] at hrun
  exact ⟨hused, hcontext, hself hused hcontext, hmessage, hrun⟩

end UsagePolicy.Descriptor
