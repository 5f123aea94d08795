import Mathlib.Data.List.Perm.Basic
import UsagePolicy.Document.Nodes
import UsagePolicy.Proofs.Documents.Values

/-! The arrangement of documents. Symbols and nodes are read by the names of their fields: what
matters of an object is, for each name that it knows, the values that stand under this name. Neither
the order of the fields nor fields with other names play a part, and a known name with two values is
refused. -/
namespace UsagePolicy

/-! ### Values by name -/

namespace Record

/-- All values that stand under a name. -/
def values (r : Record) (name : String) : List Json :=
  r.filterMap fun f => if f.1 = name then some f.2 else none

variable {r s : Record} {name : String} {names : List String}

@[simp] theorem values_nil (name : String) : values [] name = [] := rfl

theorem values_cons (f : String × Json) (r : Record) (name : String) :
    values (f :: r) name = if f.1 = name then f.2 :: values r name else values r name := by
  by_cases h : f.1 = name <;> simp [values, h]

theorem values_append (r s : Record) (name : String) :
    values (r ++ s) name = values r name ++ values s name :=
  List.filterMap_append

theorem values_insert {other : String} (h : other ≠ name) (r s : Record) (v : Json) :
    values (r ++ (other, v) :: s) name = values (r ++ s) name := by
  rw [values_append, values_cons, if_neg h, values_append]

theorem lookup_eq_head? (r : Record) (name : String) : r.lookup name = (r.values name).head? := by
  induction r with
  | nil => rfl
  | cons f r ih =>
    obtain ⟨n, v⟩ := f
    rw [values_cons, List.lookup_cons]
    by_cases h : n = name
    · simp [h]
    · have hne : (name == n) = false := by simpa using Ne.symm h
      simp only [h, hne, if_false, ih]

theorem length_values (r : Record) (name : String) :
    (r.values name).length = (r.map Prod.fst).count name := by
  induction r with
  | nil => rfl
  | cons f r ih =>
    rw [values_cons, List.map_cons, List.count_cons, ← ih]
    by_cases h : f.1 = name <;> simp [h]

/-- Leaving fields out by their names leaves the values under all other names. -/
theorem values_filter (r : Record) (names : List String) (name : String) :
    values (r.filter fun f => names.contains f.1) name =
      if name ∈ names then r.values name else [] := by
  induction r with
  | nil => simp
  | cons f r ih =>
    rw [values_cons, List.filter_cons]
    by_cases h : f.1 = name
    · subst h
      by_cases hname : f.1 ∈ names <;> simp_all [values_cons]
    · by_cases hmem : f.1 ∈ names <;> simp_all [values_cons]

theorem lookup_filter (r : Record) (hname : name ∈ names) :
    (r.filter fun f => names.contains f.1).lookup name = r.lookup name := by
  rw [lookup_eq_head?, lookup_eq_head?, values_filter, if_pos hname]

/-- Where a name has at most one value, the order of the fields is no matter. -/
theorem lookup_eq_of_perm (h : (s.values name).Perm (r.values name))
    (hone : (r.values name).length ≤ 1) : s.lookup name = r.lookup name := by
  rw [lookup_eq_head?, lookup_eq_head?]
  generalize r.values name = vs at h hone
  generalize s.values name = ws at h
  match vs, hone with
  | [], _ => rw [List.perm_nil.mp h]
  | [v], _ => rw [List.perm_singleton.mp h]

theorem lookup_eq_some_of_mem {v : Json} (h : (name, v) ∈ r) (hone : (r.values name).length ≤ 1) :
    r.lookup name = some v := by
  have hmem : v ∈ r.values name := List.mem_filterMap.mpr ⟨(name, v), h, if_pos rfl⟩
  rw [lookup_eq_head?]
  generalize r.values name = vs at hmem hone
  match vs, hone with
  | [w], _ => rw [List.mem_singleton.mp hmem, List.head?_cons]

theorem isProper_iff (r : Record) : r.isProper = true ↔ ∀ name, (r.values name).length ≤ 1 := by
  rw [isProper, decide_eq_true_iff, List.nodup_iff_count_le_one]
  simp only [length_values]

variable {α : Type} {decode : Json → Option α} {value : α}

theorem required_congr (h : s.lookup name = r.lookup name) :
    s.required name decode = r.required name decode := by
  rw [required, required, h]

theorem optional_congr (h : s.lookup name = r.lookup name) :
    s.optional name decode = r.optional name decode := by
  rw [optional, optional, h]

theorem withDefault_congr (h : s.lookup name = r.lookup name) :
    s.withDefault name value decode = r.withDefault name value decode := by
  rw [withDefault, withDefault, h]

end Record

namespace Json

open Record (values)

/-! ### Tagged objects -/

theorem known?_eq_ite (names : List String) (fields : Record) :
    known? names fields = if ∀ name ∈ names, (values fields name).length ≤ 1
      then some (fields.filter fun f => names.contains f.1) else none := by
  have hproper : Record.isProper (fields.filter fun f => names.contains f.1) = true ↔
      ∀ name ∈ names, (values fields name).length ≤ 1 := by
    rw [Record.isProper_iff]
    refine forall_congr' fun name => ?_
    rw [Record.values_filter]
    by_cases hname : name ∈ names <;> simp [hname]
  simp only [known?, hproper]

/-- The names that a tagged object knows: its tag, its own fields, and the fields of the kind that
the tag stands for. -/
def knownNames (tag : String) (own : List String) (shapes : Shapes) (fields : Record) :
    List String :=
  tag :: own ++ (((fields.lookup tag).bind shapes.find?).map Prod.snd).getD []

theorem knownNames_mono {own read : List String} (hread : read ⊆ own) (tag : String)
    (shapes : Shapes) (fields : Record) :
    knownNames tag read shapes fields ⊆ knownNames tag own shapes fields := by
  intro name hname
  rw [knownNames, List.mem_append] at hname ⊢
  exact hname.imp_left fun h => List.cons_subset_cons tag hread h

theorem Shapes.mem_of_find? {shapes : Shapes} {v : Json} {shape : String × List String}
    (h : shapes.find? v = some shape) : shape ∈ shapes := by
  cases v with
  | str name => exact List.mem_of_find?_eq_some h
  | num n =>
    cases n with
    | natural n => exact List.mem_of_getElem? h
    | other literal => cases h
  | _ => cases h

variable {tag : String} {own read : List String} {shapes : Shapes} {fields fields' : Record}

theorem tagged?_eq_bind (tag : String) (own : List String) (shapes : Shapes) (fields : Record) :
    tagged? tag own shapes fields = ((fields.lookup tag).bind shapes.find?).bind fun shape =>
      (known? (tag :: own ++ shape.2) fields).map fun r => (shape.1, r) := by
  rw [tagged?]
  cases fields.lookup tag with
  | none => rfl
  | some v =>
    simp only [bind, Option.bind_some]
    cases shapes.find? v with
    | none => rfl
    | some shape =>
      simp only [Option.bind_some]
      cases known? (tag :: own ++ shape.2) fields with
      | none => rfl
      | some r => rfl

theorem tagged?_eq_none_of_repeated {name : String}
    (hname : name ∈ knownNames tag own shapes fields) (htwo : 2 ≤ (values fields name).length) :
    tagged? tag own shapes fields = none := by
  rw [knownNames] at hname
  rw [tagged?_eq_bind]
  cases hfind : (fields.lookup tag).bind shapes.find? with
  | none => rfl
  | some shape =>
    rw [hfind] at hname
    rw [Option.bind_some, known?_eq_ite, if_neg, Option.map_none]
    intro hone
    have := hone name hname
    omega

/-- Two objects are read as the same kind, and the fields that are read have the same values. -/
structure SameReading (tag : String) (read : List String) (shapes : Shapes)
    (a b : String × Record) : Prop where
  kind : b.1 = a.1
  lookup : ∃ names, (a.1, names) ∈ shapes ∧
    ∀ name ∈ tag :: read ++ names, b.2.lookup name = a.2.lookup name

/-- Objects are told apart only by what stands under known names. A field that is not read has to be
there as often. -/
theorem tagged?_rel (hread : read ⊆ own)
    (hlength : ∀ name ∈ knownNames tag own shapes fields,
      (values fields' name).length = (values fields name).length)
    (hperm : ∀ name ∈ knownNames tag read shapes fields,
      (values fields' name).Perm (values fields name)) :
    Option.Rel (SameReading tag read shapes) (tagged? tag own shapes fields)
      (tagged? tag own shapes fields') := by
  have htag : tag ∈ knownNames tag own shapes fields := List.mem_cons_self
  have htag' : tag ∈ knownNames tag own shapes fields' := List.mem_cons_self
  by_cases hone : (values fields tag).length ≤ 1
  · -- both have the same tag, so they know the same names
    have hlookup : fields'.lookup tag = fields.lookup tag :=
      Record.lookup_eq_of_perm (hperm tag List.mem_cons_self) hone
    have hsub := knownNames_mono hread tag shapes fields
    unfold knownNames at hlength hperm hsub
    rw [tagged?_eq_bind, tagged?_eq_bind, hlookup]
    cases hfind : (fields.lookup tag).bind shapes.find? with
    | none => exact .none
    | some shape =>
      rw [hfind] at hlength hperm hsub
      have hproper : (∀ name ∈ tag :: own ++ shape.2, (values fields' name).length ≤ 1) ↔
          ∀ name ∈ tag :: own ++ shape.2, (values fields name).length ≤ 1 :=
        forall₂_congr fun name hname => by rw [hlength name hname]
      simp only [Option.bind_some, known?_eq_ite, hproper]
      by_cases hall : ∀ name ∈ tag :: own ++ shape.2, (values fields name).length ≤ 1
      · rw [if_pos hall, if_pos hall]
        obtain ⟨v, -, hv⟩ := Option.bind_eq_some_iff.mp hfind
        refine .some ⟨rfl, shape.2, Shapes.mem_of_find? hv, fun name hname => ?_⟩
        have hknown : name ∈ tag :: own ++ shape.2 := hsub hname
        rw [Record.lookup_filter _ hknown, Record.lookup_filter _ hknown]
        exact Record.lookup_eq_of_perm (hperm name hname) (hall name hknown)
      · rw [if_neg hall, if_neg hall]
        exact .none
  · rw [tagged?_eq_none_of_repeated htag (by omega),
      tagged?_eq_none_of_repeated htag' (by rw [hlength tag htag]; omega)]
    exact .none

/-! ### Edits -/

/-- An edit of the fields of an object: they change places, or a field that the object does not know
is put among them. -/
inductive Rearranges (tag : String) (own : List String) (shapes : Shapes) : Record → Record → Prop
  | reorder {fields fields' : Record} (h : fields'.Perm fields) :
      Rearranges tag own shapes fields fields'
  | insert (before after : Record) {name : String} (v : Json)
      (h : name ∉ knownNames tag own shapes (before ++ after)) :
      Rearranges tag own shapes (before ++ after) (before ++ (name, v) :: after)

theorem Rearranges.values_perm (h : Rearranges tag own shapes fields fields') {name : String}
    (hname : name ∈ knownNames tag own shapes fields) :
    (values fields' name).Perm (values fields name) := by
  cases h with
  | reorder h => exact h.filterMap _
  | @insert before after other _ h =>
    have hne : other ≠ name := fun heq => h (heq ▸ hname)
    rw [Record.values_insert hne]

/-- An edited object is read as the same kind, with the same values. -/
theorem Rearranges.tagged?_rel (h : Rearranges tag own shapes fields fields') :
    Option.Rel (SameReading tag own shapes) (tagged? tag own shapes fields)
      (tagged? tag own shapes fields') :=
  Json.tagged?_rel (List.Subset.refl own) (fun _ hname => (h.values_perm hname).length_eq)
    fun _ hname => h.values_perm hname

theorem bind_eq_of_rel {α β γ : Type} {R : α → β → Prop} {o : Option α} {o' : Option β}
    {f : α → Option γ} {f' : β → Option γ} (h : Option.Rel R o o')
    (hf : ∀ a b, R a b → f' b = f a) : o'.bind f' = o.bind f := by
  cases h with
  | none => rfl
  | some hab => exact hf _ _ hab

/-- What no edit changes, no number of edits changes. -/
theorem eq_of_edits {α : Type} {decode : Json → Option α} {Edit : Json → Json → Prop} {v v' : Json}
    (h : Relation.ReflTransGen Edit v v') (hedit : ∀ v v', Edit v v' → decode v' = decode v) :
    decode v' = decode v := by
  induction h with
  | refl => rfl
  | tail _ hlast ih => rw [hedit _ _ hlast, ih]

end Json

/-! ### Symbols -/

/-- A kind is read from its own fields. -/
theorem SymbolKind.ofRecord?_congr {shape : String × List String} (hshape : shape ∈ shapes)
    {r r' : Record} (h : ∀ name ∈ shape.2, r'.lookup name = r.lookup name) :
    ofRecord? shape.1 r' = ofRecord? shape.1 r := by
  have hhandle {name : String} (hname : name ∈ shape.2) :
      r'.optional name SymbolId.ofJson? = r.optional name SymbolId.ofJson? :=
    Record.optional_congr (h name hname)
  have hhandles {name : String} (hname : name ∈ shape.2) :
      r'.withDefault name [] (Json.list? SymbolId.ofJson?) =
        r.withDefault name [] (Json.list? SymbolId.ofJson?) :=
    Record.withDefault_congr (h name hname)
  simp only [shapes, List.mem_cons, List.not_mem_nil, or_false] at hshape
  rcases hshape with rfl | rfl | rfl | rfl | rfl | rfl | rfl | rfl <;>
    (unfold ofRecord?; simp [hhandle, hhandles])

namespace Symbol

/-- The names that the object of a symbol knows. -/
def knownNames (fields : Record) : List String :=
  Json.knownNames "kind" ["name", "namespace", "containing_type"] SymbolKind.shapes fields

/-- An edit of the object of a symbol. -/
inductive Edit : Json → Json → Prop
  | fields {fields fields' : Record}
      (h : Json.Rearranges "kind" ["name", "namespace", "containing_type"] SymbolKind.shapes
        fields fields') :
      Edit (.obj fields) (.obj fields')

theorem ofJson?_eq_none_of_repeated {fields : Record} {name : String}
    (hname : name ∈ knownNames fields) (htwo : 2 ≤ (fields.map Prod.fst).count name) :
    ofJson? (.obj fields) = none := by
  rw [← Record.length_values] at htwo
  have hnone := Json.tagged?_eq_none_of_repeated hname htwo
  simp [ofJson?, Json.fields?, hnone]

theorem Edit.ofJson?_eq {v v' : Json} (h : Edit v v') : ofJson? v' = ofJson? v := by
  obtain ⟨h⟩ := h
  refine Json.bind_eq_of_rel h.tagged?_rel fun (kind, r) (kind', r') hsame => ?_
  obtain ⟨rfl, names, hshape, hlookup⟩ := hsame
  simp only [List.cons_append, List.nil_append, List.forall_mem_cons] at hlookup
  obtain ⟨-, hname, hnameSpace, howner, hkind⟩ := hlookup
  simp only [Record.required_congr hname, Record.optional_congr hnameSpace,
    Record.optional_congr howner, SymbolKind.ofRecord?_congr hshape hkind]

end Symbol

/-! ### Nodes -/

/-- A kind is read from its own fields. -/
theorem NodeKind.ofRecord?_congr {shape : String × List String} (hshape : shape ∈ shapes)
    {r r' : Record} (h : ∀ name ∈ shape.2, r'.lookup name = r.lookup name) :
    ofRecord? shape.1 r' = ofRecord? shape.1 r := by
  have hoptional {α : Type} {decode : Json → Option α} {name : String} (hname : name ∈ shape.2) :
      r'.optional name decode = r.optional name decode :=
    Record.optional_congr (h name hname)
  have hrequired {α : Type} {decode : Json → Option α} {name : String} (hname : name ∈ shape.2) :
      r'.required name decode = r.required name decode :=
    Record.required_congr (h name hname)
  simp only [shapes, List.mem_cons, List.not_mem_nil, or_false] at hshape
  rcases hshape with rfl | rfl | rfl | rfl | rfl | rfl | rfl | rfl | rfl | rfl | rfl | rfl | rfl |
      rfl | rfl | rfl | rfl | rfl | rfl | rfl | rfl | rfl | rfl | rfl | rfl <;>
    (unfold ofRecord?; simp [hoptional, hrequired])

namespace Node

open Record (values)

/-- The names that the object of a node knows. -/
def knownNames (fields : Record) : List String :=
  Json.knownNames "node" ["span", "children"] NodeKind.shapes fields

/-- An edit of the object of a node, or of that of a node below it. -/
inductive Edit : Json → Json → Prop
  | fields {fields fields' : Record}
      (h : Json.Rearranges "node" ["span", "children"] NodeKind.shapes fields fields') :
      Edit (.obj fields) (.obj fields')
  | child (before after : Record) (left right : List Json) {v v' : Json} (h : Edit v v') :
      Edit (.obj (before ++ ("children", .arr (left ++ v :: right)) :: after))
        (.obj (before ++ ("children", .arr (left ++ v' :: right)) :: after))

/-- An object that stands in the place of a node, at any depth. -/
inductive Inside (w : Json) : Json → Prop
  | self : Inside w w
  | child {fields : Record} {items : List Json} {v : Json}
      (hitems : ("children", .arr items) ∈ fields) (hv : v ∈ items) (h : Inside w v) :
      Inside w (.obj fields)

variable {fields fields' before after : Record} {items left right : List Json} {v v' w : Json}

/-! #### Heads -/

theorem head?_eq_none_of_repeated {name : String} (hname : name ∈ knownNames fields)
    (htwo : 2 ≤ (values fields name).length) : head? fields = none := by
  have hnone := Json.tagged?_eq_none_of_repeated hname htwo
  simp [head?, hnone]

/-- The names of the fields from which the head of a node is read. -/
def headNames (fields : Record) : List String :=
  Json.knownNames "node" ["span"] NodeKind.shapes fields

theorem headNames_subset (fields : Record) : headNames fields ⊆ knownNames fields :=
  Json.knownNames_mono (by simp) "node" NodeKind.shapes fields

/-- No kind has a field of this name. -/
theorem children_notMem_headNames (fields : Record) : "children" ∉ headNames fields := by
  rw [headNames, Json.knownNames]
  cases hfind : (fields.lookup "node").bind NodeKind.shapes.find? with
  | none => simp
  | some shape =>
    have hshapes : ∀ shape ∈ NodeKind.shapes, "children" ∉ shape.2 := by decide
    obtain ⟨v, -, hv⟩ := Option.bind_eq_some_iff.mp hfind
    simpa using hshapes shape (Json.Shapes.mem_of_find? hv)

theorem head?_congr (hlength : ∀ name ∈ knownNames fields,
      (values fields' name).length = (values fields name).length)
    (hperm : ∀ name ∈ headNames fields, (values fields' name).Perm (values fields name)) :
    head? fields' = head? fields := by
  have hrel := Json.tagged?_rel (by simp) hlength hperm
  refine Json.bind_eq_of_rel hrel fun (kind, r) (kind', r') hsame => ?_
  obtain ⟨rfl, names, hshape, hlookup⟩ := hsame
  simp only [List.cons_append, List.nil_append, List.forall_mem_cons] at hlookup
  obtain ⟨-, hspan, hkind⟩ := hlookup
  simp only [NodeKind.ofRecord?_congr hshape hkind, Record.withDefault_congr hspan]

/-! #### Children -/

theorem childrenOf?_eq_lookup (fields : Record) :
    childrenOf? fields = match fields.lookup "children" with
      | none => some []
      | some (.arr items) => ofJsonAll? items
      | some _ => none := by
  induction fields with
  | nil => rfl
  | cons f fields ih =>
    obtain ⟨name, v⟩ := f
    rw [childrenOf?.eq_def, List.lookup_cons]
    by_cases h : name = "children"
    · subst h
      cases v <;> rfl
    · have hne : ("children" == name) = false := by simpa using Ne.symm h
      simp only [h, hne, if_false, ih]

theorem ofJsonAll?_congr (h : ofJson? v' = ofJson? v) :
    ofJsonAll? (left ++ v' :: right) = ofJsonAll? (left ++ v :: right) := by
  induction left with
  | nil => simp only [List.nil_append, ofJsonAll?, h]
  | cons u left ih => simp only [List.cons_append, ofJsonAll?, ih]

theorem ofJsonAll?_eq_none (hv : v ∈ items) (h : ofJson? v = none) : ofJsonAll? items = none := by
  induction items with
  | nil => cases hv
  | cons u items ih =>
    rw [ofJsonAll?]
    rcases List.mem_cons.mp hv with rfl | hv
    · simp [h]
    · simp [ih hv]

theorem childrenOf?_congr {items' : List Json} (h : ofJsonAll? items' = ofJsonAll? items) :
    childrenOf? (before ++ ("children", .arr items') :: after) =
      childrenOf? (before ++ ("children", .arr items) :: after) := by
  rw [childrenOf?_eq_lookup, childrenOf?_eq_lookup, List.lookup_append, List.lookup_append,
    List.lookup_cons_self, List.lookup_cons_self]
  cases before.lookup "children" with
  | none => exact h
  | some v => rfl

/-! #### Objects -/

theorem ofJson?_obj (fields : Record) :
    ofJson? (.obj fields) = (head? fields).bind fun head =>
      (childrenOf? fields).map fun children => ⟨head.1, head.2, children⟩ := by
  rw [ofJson?]
  cases head? fields with
  | none => rfl
  | some head => cases childrenOf? fields <;> rfl

theorem ofJson?_obj_eq_none {name : String} (hname : name ∈ knownNames fields)
    (htwo : 2 ≤ (values fields name).length) : ofJson? (.obj fields) = none := by
  rw [ofJson?_obj, head?_eq_none_of_repeated hname htwo, Option.bind_none]

theorem children_mem_knownNames (fields : Record) : "children" ∈ knownNames fields := by
  simp [knownNames, Json.knownNames]

theorem Edit.ofJson?_eq (h : Edit v v') : ofJson? v' = ofJson? v := by
  induction h with
  | @fields fields fields' h =>
    have hperm {name : String} (hname : name ∈ knownNames fields) :
        (values fields' name).Perm (values fields name) := h.values_perm hname
    have hhead : head? fields' = head? fields :=
      head?_congr (fun _ hname => (hperm hname).length_eq)
        fun _ hname => hperm (headNames_subset fields hname)
    have hchildren := children_mem_knownNames fields
    by_cases hone : (values fields "children").length ≤ 1
    · rw [ofJson?_obj, ofJson?_obj, hhead, childrenOf?_eq_lookup, childrenOf?_eq_lookup,
        Record.lookup_eq_of_perm (hperm hchildren) hone]
    · rw [ofJson?_obj, ofJson?_obj, hhead, head?_eq_none_of_repeated hchildren (by omega)]
      rfl
  | @child before after left right v v' h ih =>
    have hhead : head? (before ++ ("children", .arr (left ++ v' :: right)) :: after) =
        head? (before ++ ("children", .arr (left ++ v :: right)) :: after) := by
      refine head?_congr (fun name _ => ?_) fun name hname => ?_
      · simp only [Record.length_values, List.map_append, List.map_cons]
      · have hne : name ≠ "children" := ne_of_mem_of_not_mem hname (children_notMem_headNames _)
        rw [Record.values_insert hne.symm, Record.values_insert hne.symm]
    rw [ofJson?_obj, ofJson?_obj, hhead, childrenOf?_congr (ofJsonAll?_congr ih)]

/-- A node is refused with any of the nodes below it. -/
theorem Inside.ofJson?_eq_none (h : Inside w v) (hw : ofJson? w = none) : ofJson? v = none := by
  induction h with
  | self => exact hw
  | @child fields items v hitems hv h ih =>
    by_cases hone : (values fields "children").length ≤ 1
    · have hnone : childrenOf? fields = none := by
        rw [childrenOf?_eq_lookup, Record.lookup_eq_some_of_mem hitems hone]
        exact ofJsonAll?_eq_none hv ih
      rw [ofJson?_obj, hnone]
      exact Option.bind_fun_none _
    · exact ofJson?_obj_eq_none (children_mem_knownNames fields) (by omega)

end Node

/-! ### Reading by name -/

/-- Symbols and nodes are read by the names of their fields. In an object that stands for a symbol,
for a node or for one below it, fields may change places and fields that the object does not know
may be put in, as often as one likes: the value is refused as before, or read as the same. But where
a field that the object knows is repeated, the whole value is refused. -/
theorem symbols_and_nodes_read_by_name :
    (∀ v v' : Json, Relation.ReflTransGen Node.Edit v v' → Node.ofJson? v' = Node.ofJson? v) ∧
    (∀ v v' : Json, Relation.ReflTransGen Symbol.Edit v v' → Symbol.ofJson? v' = Symbol.ofJson? v) ∧
    (∀ (fields : Record) (name : String) (v : Json), name ∈ Node.knownNames fields →
      2 ≤ (fields.map Prod.fst).count name → Node.Inside (.obj fields) v → Node.ofJson? v = none) ∧
    ∀ (fields : Record) (name : String), name ∈ Symbol.knownNames fields →
      2 ≤ (fields.map Prod.fst).count name → Symbol.ofJson? (.obj fields) = none := by
  refine ⟨fun _ _ h => Json.eq_of_edits h fun _ _ => Node.Edit.ofJson?_eq,
    fun _ _ h => Json.eq_of_edits h fun _ _ => Symbol.Edit.ofJson?_eq, ?_,
    fun _ _ hname htwo => Symbol.ofJson?_eq_none_of_repeated hname htwo⟩
  intro fields name v hname htwo hinside
  rw [← Record.length_values] at htwo
  exact hinside.ofJson?_eq_none (Node.ofJson?_obj_eq_none hname htwo)

/-- A field that casts know is foreign to a generic name, whose tag comes last. -/
theorem symbols_and_nodes_read_by_name_generics :
    Node.ofJson? (.obj [("children", .arr [.obj
        [("symbol", .ofNat 3), ("type", .null), ("node", .str "generic-name")]]),
      ("node", .str "compilation-unit")]) =
      Node.ofJson? (.obj [("node", .str "compilation-unit"), ("children", .arr [.obj
        [("symbol", .ofNat 3), ("node", .str "generic-name")]])]) ∧
    Node.ofJson? (.obj [("node", .str "compilation-unit"), ("children", .arr [.obj
        [("symbol", .ofNat 3), ("node", .str "generic-name")]])]) =
      some ⟨.compilationUnit, {}, [⟨.genericName (some ⟨3⟩), {}, []⟩]⟩ ∧
    Symbol.ofJson? (.obj [("kind", .str "field"), ("name", .str "Store"), ("element", .ofNat 1)]) =
      Symbol.ofJson? (.obj [("kind", .str "field"), ("name", .str "Store")]) ∧
    Node.ofJson? (.obj [("node", .str "compilation-unit"), ("children", .arr [.obj
      [("symbol", .ofNat 3), ("node", .str "generic-name"), ("symbol", .null)]])]) = none ∧
    Symbol.ofJson? (.obj [("element", .null), ("kind", .str "type"), ("name", .str "Store"),
      ("element", .null)]) = none := by
  refine ⟨symbols_and_nodes_read_by_name.1 _ _ ?_, rfl, symbols_and_nodes_read_by_name.2.1 _ _ ?_,
    symbols_and_nodes_read_by_name.2.2.1
      [("symbol", .ofNat 3), ("node", .str "generic-name"), ("symbol", .null)] "symbol" _
      (by decide) (by decide) ?_,
    symbols_and_nodes_read_by_name.2.2.2 _ "element" (by decide) (by decide)⟩
  · have hinsert : Node.Edit (.obj [("symbol", .ofNat 3), ("node", .str "generic-name")])
        (.obj [("symbol", .ofNat 3), ("type", .null), ("node", .str "generic-name")]) :=
      .fields (.insert [("symbol", .ofNat 3)] [("node", .str "generic-name")] .null (by decide))
    exact .head (.child [("node", .str "compilation-unit")] [] [] [] hinsert)
      (.single (.fields (.reorder (List.Perm.swap ..))))
  · exact .single (.fields (.insert [("kind", .str "field"), ("name", .str "Store")] [] (.ofNat 1)
      (by decide)))
  · exact .child (List.mem_cons_of_mem _ List.mem_cons_self) List.mem_cons_self .self

end UsagePolicy
