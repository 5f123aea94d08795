import UsagePolicy.Proofs.Json.Words

/-! JSON text as a whole. A layout fills the places between the words of a value with space; the text
on one line and the indented text are two of them. Reading undoes every layout of a value whose
numbers are words, and settling then refuses only what is nested too deeply. -/
namespace UsagePolicy.Json

/-! ### Values -/

/-- What holds of every value, if it holds of a container as soon as it does of all its entries. -/
@[elab_as_elim]
theorem induction {P : Json → Prop} (null : P .null) (bool : ∀ b, P (.bool b)) (num : ∀ n, P (.num n))
    (str : ∀ s, P (.str s)) (arr : ∀ items, (∀ v ∈ items, P v) → P (.arr items))
    (obj : ∀ fields, (∀ f ∈ fields, P f.2) → P (.obj fields)) (v : Json) : P v := by
  refine @Json.rec P (fun items => ∀ v ∈ items, P v) (fun fields => ∀ f ∈ fields, P f.2)
    (fun f => P f.2) null bool num str arr obj ?_ ?_ ?_ ?_ (fun _ _ h => h) v
  · simp
  · exact fun v vs hv hvs => List.forall_mem_cons.mpr ⟨hv, hvs⟩
  · simp
  · exact fun f fs hf hfs => List.forall_mem_cons.mpr ⟨hf, hfs⟩

/-- All numbers are naturals below `2 ^ 64`. -/
inductive FitsWords : Json → Prop
  | null : FitsWords .null
  | bool (b : Bool) : FitsWords (.bool b)
  | natural {n : Nat} (hn : n < Nat.pow 2 64) : FitsWords (.num (.natural n))
  | str (s : String) : FitsWords (.str s)
  | arr {items : List Json} (h : ∀ v ∈ items, FitsWords v) : FitsWords (.arr items)
  | obj {fields : List (String × Json)} (h : ∀ f ∈ fields, FitsWords f.2) : FitsWords (.obj fields)

mutual
/-- How many containers stand one in another. -/
def nesting : Json → Nat
  | .arr items => nestingItems items + 1
  | .obj fields => nestingFields fields + 1
  | _ => 0

def nestingItems : List Json → Nat
  | [] => 0
  | v :: vs => max v.nesting (nestingItems vs)

def nestingFields : List (String × Json) → Nat
  | [] => 0
  | (_, v) :: fs => max v.nesting (nestingFields fs)
end

namespace Draft

mutual
/-- A value as a draft. -/
def ofJson : Json → Draft
  | .null => .null
  | .bool b => .bool b
  | .num n => .num (some n)
  | .str s => .str (some s)
  | .arr items => .arr (ofJsonItems items)
  | .obj fields => .obj (ofJsonFields fields)

def ofJsonItems : List Json → List Draft
  | [] => []
  | v :: vs => ofJson v :: ofJsonItems vs

def ofJsonFields : List (String × Json) → List (Option String × Draft)
  | [] => []
  | (name, v) :: fs => (some name, ofJson v) :: ofJsonFields fs
end

theorem ofJsonFields_eq_map (fs : List (String × Json)) :
    ofJsonFields fs = fs.map fun f => (some f.1, ofJson f.2) := by
  induction fs with
  | nil => rfl
  | cons f fs ih => rw [ofJsonFields, ih, List.map_cons]

theorem settleItems?_ofJson {vs : List Json} {room : Nat}
    (h : ∀ v ∈ vs, settle? room (ofJson v) = if v.nesting ≤ room then some v else none) :
    settleItems? room (ofJsonItems vs) = if nestingItems vs ≤ room then some vs else none := by
  induction vs with
  | nil => rfl
  | cons v vs ih =>
    rw [List.forall_mem_cons] at h
    simp only [ofJsonItems, settleItems?, nestingItems, h.1, ih h.2, Nat.max_le]
    by_cases hv : v.nesting ≤ room <;> by_cases hvs : nestingItems vs ≤ room <;> simp [hv, hvs]

theorem settleFields?_ofJson {fs : List (String × Json)} {room : Nat}
    (h : ∀ f ∈ fs, settle? room (ofJson f.2) = if f.2.nesting ≤ room then some f.2 else none) :
    settleFields? room (ofJsonFields fs) = if nestingFields fs ≤ room then some fs else none := by
  induction fs with
  | nil => rfl
  | cons f fs ih =>
    rw [List.forall_mem_cons] at h
    obtain ⟨name, v⟩ := f
    simp only [ofJsonFields, settleFields?, nestingFields, h.1, ih h.2, Nat.max_le]
    by_cases hv : v.nesting ≤ room <;> by_cases hfs : nestingFields fs ≤ room <;> simp [hv, hfs]

/-- Only nesting can keep a value from being settled. -/
theorem settle?_ofJson (v : Json) (room : Nat) :
    settle? room (ofJson v) = if v.nesting ≤ room then some v else none := by
  induction v using Json.induction generalizing room with
  | null => rfl
  | bool b => rfl
  | num n => rfl
  | str s => rfl
  | arr items ih =>
    rw [ofJson, settle?, nesting]
    cases room with
    | zero => simp
    | succ room =>
      rw [if_neg (Nat.succ_ne_zero room), Nat.add_sub_cancel,
        settleItems?_ofJson fun v hv => ih v hv room]
      by_cases h : nestingItems items ≤ room <;> simp [h]
  | obj fields ih =>
    rw [ofJson, settle?, nesting]
    cases room with
    | zero => simp
    | succ room =>
      rw [if_neg (Nat.succ_ne_zero room), Nat.add_sub_cancel,
        settleFields?_ofJson fun f hf => ih f hf room]
      by_cases h : nestingFields fields ≤ room <;> simp [h]

end Draft

/-! ### Layouts -/

open Draft

/-- What stands between the words of a value: a gap on both sides of each entry of a container,
which depends on the depth, and another one between a name and its value. -/
structure Layout where
  gap : Nat → List Char
  afterColon : List Char
  isSpace_of_mem_gap {depth : Nat} : ∀ c ∈ gap depth, isSpace c
  isSpace_of_mem_afterColon : ∀ c ∈ afterColon, isSpace c

namespace Layout

/-- The entries after the first. -/
def following (l : Layout) (depth : Nat) (entries : List (List Char)) : List Char :=
  entries.flatMap fun e => ',' :: (l.gap depth ++ e)

/-- Entries between brackets. -/
def enclose (l : Layout) (opening closing : Char) (depth : Nat) : List (List Char) → List Char
  | [] => [opening, closing]
  | e :: es =>
    opening :: (l.gap (depth + 1) ++
      (e ++ (l.following (depth + 1) es ++ (l.gap depth ++ [closing]))))

mutual
/-- The text of a value that starts at some depth. -/
def spread (l : Layout) (depth : Nat) : Json → List Char
  | .arr items => l.enclose '[' ']' depth (spreadItems l (depth + 1) items)
  | .obj fields => l.enclose '\x7b' '\x7d' depth (spreadFields l (depth + 1) fields)
  | v => v.compact.toList

def spreadItems (l : Layout) (depth : Nat) : List Json → List (List Char)
  | [] => []
  | v :: vs => spread l depth v :: spreadItems l depth vs

def spreadFields (l : Layout) (depth : Nat) : List (String × Json) → List (List Char)
  | [] => []
  | (name, v) :: fs =>
    ((quote name).toList ++ ':' :: (l.afterColon ++ spread l depth v)) :: spreadFields l depth fs
end

theorem intercalate_cons_eq (separator e : List Char) (es : List (List Char)) :
    separator.intercalate (e :: es) = e ++ es.flatMap (separator ++ ·) := by
  induction es generalizing e with
  | nil => simp
  | cons e' es ih => rw [List.intercalate_cons_cons, ih]; simp

/-! ### One line -/

/-- All on one line. -/
def oneLine : Layout where
  gap _ := []
  afterColon := []
  isSpace_of_mem_gap := by simp
  isSpace_of_mem_afterColon := by simp

theorem enclose_oneLine (opening closing : Char) (depth : Nat) (entries : List String) :
    oneLine.enclose opening closing depth (entries.map String.toList) =
      opening :: ((String.intercalate "," entries).toList ++ [closing]) := by
  rw [String.toList_intercalate]
  cases entries with
  | nil => rfl
  | cons e es => simp [enclose, following, oneLine, intercalate_cons_eq]

theorem spread_oneLine (v : Json) (depth : Nat) : oneLine.spread depth v = v.compact.toList := by
  induction v using Json.induction generalizing depth with
  | null => rfl
  | bool b => rfl
  | num n => rfl
  | str s => rfl
  | arr items ih =>
    have hitems : oneLine.spreadItems (depth + 1) items = (compactItems items).map String.toList := by
      induction items with
      | nil => rfl
      | cons v vs ihvs =>
        rw [List.forall_mem_cons] at ih
        rw [spreadItems, compactItems, List.map_cons, ih.1, ihvs ih.2]
    rw [spread, hitems, enclose_oneLine, compact]
    simp
  | obj fields ih =>
    have hfields : oneLine.spreadFields (depth + 1) fields =
        (compactFields fields).map String.toList := by
      induction fields with
      | nil => rfl
      | cons f fs ihfs =>
        rw [List.forall_mem_cons] at ih
        rw [spreadFields, compactFields, List.map_cons, ih.1, ihfs ih.2]
        simp [oneLine]
    rw [spread, hfields, enclose_oneLine, compact]
    simp

/-! ### Indented -/

/-- Entries on lines of their own. -/
def indented : Layout where
  gap depth := (newline depth).toList
  afterColon := [' ']
  isSpace_of_mem_gap {depth} c hc := by
    have hc : c = '\n' ∨ 2 * depth ≠ 0 ∧ c = ' ' := by
      simpa [newline] using hc
    rcases hc with rfl | ⟨-, rfl⟩ <;> rfl
  isSpace_of_mem_afterColon := by simp [isSpace]

theorem enclose_indented (opening closing : Char) (depth : Nat) (entries : List String) :
    indented.enclose opening closing depth (entries.map String.toList) =
      (bracket (String.singleton opening) (String.singleton closing) depth entries).toList := by
  cases entries with
  | nil => simp [enclose, bracket]
  | cons e es =>
    simp [enclose, bracket, following, indented, String.toList_intercalate, intercalate_cons_eq]

theorem spread_indented (v : Json) (depth : Nat) :
    indented.spread depth v = (v.prettyAt depth).toList := by
  induction v using Json.induction generalizing depth with
  | null => rfl
  | bool b => rfl
  | num n => rfl
  | str s => rfl
  | arr items ih =>
    have hitems : indented.spreadItems (depth + 1) items =
        (prettyItems (depth + 1) items).map String.toList := by
      induction items with
      | nil => rfl
      | cons v vs ihvs =>
        rw [List.forall_mem_cons] at ih
        rw [spreadItems, prettyItems, List.map_cons, ih.1, ihvs ih.2]
    rw [spread, hitems, enclose_indented, prettyAt]
    rfl
  | obj fields ih =>
    have hfields : indented.spreadFields (depth + 1) fields =
        (prettyFields (depth + 1) fields).map String.toList := by
      induction fields with
      | nil => rfl
      | cons f fs ihfs =>
        rw [List.forall_mem_cons] at ih
        rw [spreadFields, prettyFields, List.map_cons, ih.1, ihfs ih.2]
        simp [indented]
    rw [spread, hfields, enclose_indented, prettyAt]
    rfl

end Layout

end UsagePolicy.Json
