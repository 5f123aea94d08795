import Mathlib.Data.List.DropRight
import UsagePolicy.Proofs.Json.Layout

/-! Reading undoes every layout. A text is read as a draft if a reader with enough fuel finds the
draft in front of anything that can follow a value; this is kept by the words, by the brackets
around entries and so by all values whose numbers are words. -/
namespace UsagePolicy.Json

namespace Draft

variable {fuel : Nat} {cs gap rest : List Char}

/-! ### Space -/

theorem skipSpace_append (hgap : ∀ c ∈ gap, isSpace c) : skipSpace (gap ++ cs) = skipSpace cs :=
  List.dropWhile_append_of_pos hgap

theorem skipSpace_cons {c : Char} (hc : isSpace c = false) : skipSpace (c :: cs) = c :: cs := by
  simp [skipSpace, hc]

theorem value_skipSpace : value fuel (skipSpace cs) = value fuel cs := by
  cases fuel with
  | zero => rfl
  | succ fuel => simp only [value, skipSpace, List.dropWhile_idempotent]

theorem value_append (hgap : ∀ c ∈ gap, isSpace c) : value fuel (gap ++ cs) = value fuel cs := by
  rw [← value_skipSpace, skipSpace_append hgap, value_skipSpace]

/-! ### Words -/

/-- The text is read as a draft, whatever follows; two steps a character are enough. -/
def Reads (text : List Char) (d : Draft) : Prop :=
  ∀ fuel rest, 2 * text.length ≤ fuel + 1 → EndsWord rest → value fuel (text ++ rest) = some (d, rest)

theorem Reads.of_succ {text : List Char} {d : Draft} (htext : text ≠ [])
    (h : ∀ fuel rest, 2 * text.length ≤ fuel + 2 → EndsWord rest →
      value (fuel + 1) (text ++ rest) = some (d, rest)) : Reads text d := by
  intro fuel rest hfuel hrest
  have hlength := List.length_pos_iff.mpr htext
  obtain ⟨fuel, rfl⟩ : ∃ n, fuel = n + 1 := ⟨fuel - 1, by omega⟩
  exact h fuel rest hfuel hrest

theorem reads_null : Reads Json.null.compact.toList .null :=
  .of_succ (by simp [compact]) fun fuel rest _ _ => by simp [compact, value, skipSpace, isSpace]

theorem reads_bool (b : Bool) : Reads (Json.bool b).compact.toList (.bool b) := by
  refine .of_succ (by cases b <;> simp [compact]) fun fuel rest _ _ => ?_
  cases b <;> simp [compact, value, skipSpace, isSpace]

/-- A digit starts a number and nothing else. -/
theorem value_digit {d : Char} (hd : d.isDigit) :
    value (fuel + 1) (d :: cs) = (number (d :: cs)).map fun (n, cs) => (.num n, cs) := by
  have hne {c : Char} (hc : c.isDigit = false) : d ≠ c := by
    rintro rfl
    rw [hd] at hc
    cases hc
  have hspace : isSpace d = false := by
    simp [isSpace, hne (c := ' ') rfl, hne (c := '\t') rfl, hne (c := '\n') rfl, hne (c := '\r') rfl]
  simp only [value, skipSpace_cons hspace]
  split
  next h => exact absurd (List.cons.inj h).1 (hne rfl)
  next h => exact absurd (List.cons.inj h).1 (hne rfl)
  next h => exact absurd (List.cons.inj h).1 (hne rfl)
  next h => exact absurd (List.cons.inj h).1 (hne rfl)
  next h => exact absurd (List.cons.inj h).1 (hne rfl)
  next h => exact absurd (List.cons.inj h).1 (hne rfl)
  next => rfl

theorem reads_number {n : Nat} (hn : n < Nat.pow 2 64) :
    Reads (Json.num (.natural n)).compact.toList (.num (some (.natural n))) := by
  have htext : (Json.num (.natural n)).compact.toList = Nat.toDigits 10 n := by
    simp [compact, Number.text]
  obtain ⟨d, ds, hds⟩ := List.exists_cons_of_ne_nil (Nat.toDigits_ne_nil (n := n) (b := 10))
  have hd : d.isDigit :=
    Nat.isDigit_of_mem_toDigits (b := 10) (n := n) (by decide) (by decide) (by simp [hds])
  rw [htext]
  refine .of_succ Nat.toDigits_ne_nil fun fuel rest _ hrest => ?_
  have hnumber := number_toDigits hn hrest
  rw [hds, List.cons_append] at hnumber ⊢
  rw [value_digit hd, hnumber, Option.map_some]

theorem toList_quote (s : String) : (quote s).toList = '"' :: (s.toList.flatMap escape ++ ['"']) := by
  simp [quote]

theorem reads_string (s : String) : Reads (Json.str s).compact.toList (.str (some s)) := by
  rw [compact, toList_quote]
  refine .of_succ (List.cons_ne_nil _ _) fun fuel rest _ _ => ?_
  rw [List.cons_append, List.append_assoc, List.singleton_append]
  simp only [value, skipSpace_cons (c := '"') rfl, text_escape, Option.map_some]

/-! ### Entries between brackets -/

theorem endsWord_comma : EndsWord (',' :: rest) := by simp [EndsWord]

/-- Space and a closing bracket can follow a value. -/
theorem endsWord_closing {c : Char} (hc : c = ']' ∨ c = '\x7d') (hgap : ∀ c ∈ gap, isSpace c) :
    EndsWord (gap ++ c :: rest) := by
  intro c' hc'
  cases gap with
  | nil =>
    obtain rfl : c = c' := by simpa using hc'
    exact .inr (.inr hc)
  | cons g gap =>
    obtain rfl : g = c' := by simpa using hc'
    exact .inl (hgap g List.mem_cons_self)

/-- A container is read by a loop that takes one entry at a time, goes on after a comma and ends at
the closing bracket. -/
structure Encloses {β : Type} (opening closing : Char) (ReadsEntry : List Char → β → Prop)
    (make : List β → Draft) (loop : Nat → List β → List Char → Option (Draft × List Char)) : Prop where
  closing_eq : closing = ']' ∨ closing = '\x7d'
  start {fuel : Nat} {cs : List Char} {r : Draft × List Char} (h : loop fuel [] cs = some r) :
    value (fuel + 1) (opening :: cs) = some r
  empty {fuel : Nat} {rest : List Char} :
    value (fuel + 1) (opening :: closing :: rest) = some (make [], rest)
  more {fuel : Nat} {gap e rest cs : List Char} {b : β} {read : List β} (he : ReadsEntry e b)
    (hgap : ∀ c ∈ gap, isSpace c) (hfuel : 2 * e.length ≤ fuel + 1) (hrest : EndsWord rest)
    (hcs : skipSpace rest = ',' :: cs) :
    loop (fuel + 1) read (gap ++ (e ++ rest)) = loop fuel (b :: read) cs
  last {fuel : Nat} {gap e rest cs : List Char} {b : β} {read : List β} (he : ReadsEntry e b)
    (hgap : ∀ c ∈ gap, isSpace c) (hfuel : 2 * e.length ≤ fuel + 1) (hrest : EndsWord rest)
    (hcs : skipSpace rest = closing :: cs) :
    loop (fuel + 1) read (gap ++ (e ++ rest)) = some (make (b :: read).reverse, cs)

namespace Encloses

variable {β : Type} {opening closing : Char} {ReadsEntry : List Char → β → Prop}
  {make : List β → Draft} {loop : Nat → List β → List Char → Option (Draft × List Char)}
  (h : Encloses opening closing ReadsEntry make loop) {l : Layout} {depth : Nat}
  {es : List (List Char)} {bs : List β} (hes : List.Forall₂ ReadsEntry es bs)

include h hes

/-- The entries are read one by one up to the end. -/
theorem loop_following {tail : List Char} (htail : ∀ c ∈ tail, isSpace c) {e : List Char} {b : β}
    (he : ReadsEntry e b) (hgap : ∀ c ∈ gap, isSpace c) (read : List β)
    (hfuel : 2 * (e ++ l.following depth es).length + 1 ≤ fuel) :
    loop fuel read (gap ++ (e ++ (l.following depth es ++ (tail ++ closing :: rest)))) =
      some (make (read.reverse ++ b :: bs), rest) := by
  have hclosing : isSpace closing = false := by
    rcases h.closing_eq with rfl | rfl <;> rfl
  induction hes generalizing e b gap read fuel with
  | nil =>
    obtain ⟨fuel, rfl⟩ : ∃ n, fuel = n + 1 := ⟨fuel - 1, by omega⟩
    simp only [Layout.following, List.flatMap_nil, List.append_nil, List.nil_append] at hfuel ⊢
    rw [h.last he hgap (by omega) (endsWord_closing h.closing_eq htail)
      ((skipSpace_append htail).trans (skipSpace_cons hclosing))]
    simp
  | cons he' hes ih =>
    obtain ⟨fuel, rfl⟩ : ∃ n, fuel = n + 1 := ⟨fuel - 1, by omega⟩
    simp only [Layout.following, List.flatMap_cons, List.cons_append, List.append_assoc,
      List.length_append, List.length_cons] at hfuel ih ⊢
    rw [h.more he hgap (by omega) endsWord_comma (skipSpace_cons rfl),
      ih he' l.isSpace_of_mem_gap (b :: read) (by omega)]
    simp

theorem reads_enclose : Reads (l.enclose opening closing depth es) (make bs) := by
  cases hes with
  | nil => exact .of_succ (List.cons_ne_nil _ _) fun fuel rest _ _ => h.empty
  | cons he hes =>
    refine .of_succ (List.cons_ne_nil _ _) fun fuel rest hfuel hrest => ?_
    simp only [Layout.enclose, List.cons_append, List.append_assoc, List.nil_append,
      List.length_cons, List.length_append] at hfuel ⊢
    refine h.start (h.loop_following hes l.isSpace_of_mem_gap he l.isSpace_of_mem_gap [] ?_)
    rw [List.length_append]
    omega

end Encloses

/-! ### Arrays -/

theorem items_skipSpace (read : List Draft) :
    items fuel read (skipSpace cs) = items fuel read cs := by
  cases fuel with
  | zero => rfl
  | succ fuel => simp only [items, value_skipSpace]

/-- No entry starts with a closing bracket. -/
theorem items_bracket {cs' : List Char} (h : skipSpace cs = ']' :: cs') (read : List Draft) :
    items fuel read cs = none := by
  cases fuel with
  | zero => rfl
  | succ fuel =>
    have hvalue : value fuel cs = none := by
      cases fuel with
      | zero => rfl
      | succ fuel =>
        simp only [value, h]
        rfl
    simp [items, hvalue]

theorem encloses_items : Encloses '[' ']' Reads .arr items where
  closing_eq := .inl rfl
  start {fuel cs r} h := by
    simp only [value, skipSpace_cons (c := '[') rfl]
    split
    next h' => rw [items_bracket h'] at h; cases h
    next => rw [items_skipSpace, h]
  empty := by simp [value, skipSpace, isSpace]
  more he hgap hfuel hrest hcs := by
    rw [items, value_append hgap, he _ _ hfuel hrest]
    simp [hcs]
  last he hgap hfuel hrest hcs := by
    rw [items, value_append hgap, he _ _ hfuel hrest]
    simp [hcs]

/-! ### Objects -/

/-- The text is read as a field. -/
inductive ReadsField : List Char → Option String × Draft → Prop
  | mk {name : String} {gap e : List Char} {d : Draft} (hgap : ∀ c ∈ gap, isSpace c)
    (he : Reads e d) :
    ReadsField ((quote name).toList ++ ':' :: (gap ++ e)) (some name, d)

theorem fields_skipSpace (read : List (Option String × Draft)) :
    fields fuel read (skipSpace cs) = fields fuel read cs := by
  cases fuel with
  | zero => rfl
  | succ fuel => simp only [fields, skipSpace, List.dropWhile_idempotent]

/-- No field starts with a closing bracket. -/
theorem fields_bracket {cs' : List Char} (h : skipSpace cs = '\x7d' :: cs')
    (read : List (Option String × Draft)) : fields fuel read cs = none := by
  cases fuel with
  | zero => rfl
  | succ fuel => simp [fields, h]

/-- One field is read, and what follows it is looked at. -/
theorem fields_entry {e : List Char} {f : Option String × Draft} (he : ReadsField e f)
    (hgap : ∀ c ∈ gap, isSpace c) (read : List (Option String × Draft)) (hrest : EndsWord rest)
    (hfuel : 2 * e.length ≤ fuel + 1) :
    fields (fuel + 1) read (gap ++ (e ++ rest)) =
      match skipSpace rest with
      | ',' :: cs => fields fuel (f :: read) cs
      | '\x7d' :: cs => some (.obj (f :: read).reverse, cs)
      | _ => none := by
  obtain @⟨name, gap', e, d, hgap', he⟩ := he
  have hvalue : value fuel (gap' ++ (e ++ rest)) = some (d, rest) := by
    rw [value_append hgap']
    refine he fuel rest ?_ hrest
    simp only [List.length_append, List.length_cons] at hfuel
    omega
  simp only [toList_quote, List.cons_append, List.append_assoc, List.nil_append]
  rw [fields, skipSpace_append hgap, skipSpace_cons rfl]
  simp only [text_escape, Option.bind_eq_bind, Option.bind_some, skipSpace_cons (c := ':') rfl]
  exact congrArg (Option.bind · _) hvalue

theorem encloses_fields : Encloses '\x7b' '\x7d' ReadsField .obj fields where
  closing_eq := .inr rfl
  start {fuel cs r} h := by
    simp only [value, skipSpace_cons (c := '\x7b') rfl]
    split
    next h' => rw [fields_bracket h'] at h; cases h
    next => rw [fields_skipSpace, h]
  empty := by simp [value, skipSpace, isSpace]
  more he hgap hfuel hrest hcs := by rw [fields_entry he hgap _ hrest hfuel, hcs]; rfl
  last he hgap hfuel hrest hcs := by rw [fields_entry he hgap _ hrest hfuel, hcs]; rfl

/-! ### Values -/

theorem reads_spread (l : Layout) {v : Json} (hv : v.FitsWords) (depth : Nat) :
    Reads (l.spread depth v) (ofJson v) := by
  induction hv generalizing depth with
  | null => exact reads_null
  | bool b => exact reads_bool b
  | natural hn => exact reads_number hn
  | str s => exact reads_string s
  | @arr items _ ih =>
    have hitems : List.Forall₂ Reads (l.spreadItems (depth + 1) items) (ofJsonItems items) := by
      clear * - ih
      induction items with
      | nil => exact .nil
      | cons v vs ihvs =>
        rw [List.forall_mem_cons] at ih
        exact .cons (ih.1 _) (ihvs ih.2)
    exact encloses_items.reads_enclose hitems
  | @obj fields _ ih =>
    have hfields : List.Forall₂ ReadsField (l.spreadFields (depth + 1) fields)
        (ofJsonFields fields) := by
      clear * - ih
      induction fields with
      | nil => exact .nil
      | cons f fs ihfs =>
        rw [List.forall_mem_cons] at ih
        exact .cons (.mk l.isSpace_of_mem_afterColon (ih.1 _)) (ihfs ih.2)
    exact encloses_fields.reads_enclose hfields

theorem parse?_spread (l : Layout) {v : Json} (hv : v.FitsWords) {input : String}
    (hinput : input.toList = l.spread 0 v) : parse? input = some (ofJson v) := by
  have hread := reads_spread l hv 0 (2 * input.toList.length + 2) [] (by rw [hinput]; omega)
    (by simp [EndsWord])
  rw [List.append_nil, ← hinput] at hread
  simp only [parse?, hread, Option.bind_eq_bind, Option.bind_some]
  rfl

end Draft

/-- A text in any layout is read as the value that it was made of, unless that is nested too
deeply. -/
theorem parseOutline?_spread (l : Layout) {outline : Draft → Draft} {v : Json} (hv : v.FitsWords)
    (houtline : outline (Draft.ofJson v) = Draft.ofJson v) {input : String}
    (hinput : input.toList = l.spread 0 v) :
    parseOutline? outline input = if v.nesting ≤ maxNesting then some v else none := by
  rw [parseOutline?, Draft.parse?_spread l hv hinput, Option.bind_some, houtline,
    Draft.settle?_ofJson]

end UsagePolicy.Json
