import Mathlib.Data.List.Nodup
import UsagePolicy.Document.Trees

/-! Documents as values: whatever is written can be read again. Symbols and nodes are one object
each, in which the fields of the kind stand among the object's own, so that all rests on two facts
about names: no two fields of an object share one, and each field is known to the reader of the kind
that wrote it. -/
namespace UsagePolicy

/-! ### Readers that undo writers -/

/-- What is written can be read again, and it is not null. -/
structure Json.Inverts {α : Type} (decode : Json → Option α) (encode : α → Json) : Prop where
  decode_encode (a : α) : decode (encode a) = some a
  encode_ne_null (a : α) : encode a ≠ .null

namespace Json

theorem string?_inverts : Inverts string? .str := ⟨fun _ => rfl, fun _ => Json.noConfusion⟩

theorem uint64?_inverts : Inverts uint64? fun n => ofNat n.toNat where
  decode_encode n := by
    have hn : n.toNat < Nat.pow 2 64 := n.toNat_lt
    simp [uint64?, below?, ofNat, hn]
  encode_ne_null _ := Json.noConfusion

theorem list?_inverts {α : Type} {decode : Json → Option α} {encode : α → Json}
    (h : Inverts decode encode) : Inverts (list? decode) (ofList encode) where
  decode_encode as := by
    induction as with
    | nil => rfl
    | cons a as ih =>
      simp only [list?, ofList, items?, Option.bind_some, List.map_cons] at ih ⊢
      simp [List.mapM_cons, h.decode_encode, ih]
  encode_ne_null _ := Json.noConfusion

end Json

namespace Record

variable {α : Type} {decode : Json → Option α} {encode : α → Json} {r s : Record} {name : String}

theorem lookup_eq_none_of_notMem (h : name ∉ r.map Prod.fst) : r.lookup name = none := by
  rw [List.lookup_eq_none_iff]
  intro p hp
  have hne : name ≠ p.1 := fun hname => h (hname ▸ List.mem_map_of_mem hp)
  simpa using hne

theorem lookup_append_left (h : name ∉ s.map Prod.fst) : (r ++ s).lookup name = r.lookup name := by
  rw [List.lookup_append, lookup_eq_none_of_notMem h, Option.or_none]

theorem lookup_append_right (h : name ∉ r.map Prod.fst) : (r ++ s).lookup name = s.lookup name := by
  rw [List.lookup_append, lookup_eq_none_of_notMem h, Option.none_or]

theorem required_eq_some (hd : Json.Inverts decode encode) {a : α}
    (h : r.lookup name = some (encode a)) : r.required name decode = some a := by
  rw [required, h, Option.bind_some, hd.decode_encode]

theorem withDefault_eq_some (hd : Json.Inverts decode encode) {a value : α}
    (h : r.lookup name = some (encode a)) : r.withDefault name value decode = some a := by
  rw [withDefault, h]
  exact hd.decode_encode a

/-- A field that is left out when there is nothing to write. -/
theorem optional_eq_some (hd : Json.Inverts decode encode) {o : Option α}
    (h : r.lookup name = o.map encode) : r.optional name decode = some o := by
  cases o with
  | none => rw [optional, h]; rfl
  | some a =>
    simp only [optional, h, Option.map_some]
    split
    next hnone => cases hnone
    next hnull => exact absurd (Option.some.inj hnull) (hd.encode_ne_null a)
    next v hv => rw [← Option.some.inj hv, hd.decode_encode, Option.map_some]

/-- A field that is null when there is nothing to write. -/
theorem optional_eq_some_of_null (hd : Json.Inverts decode encode) {o : Option α}
    (h : r.lookup name = some (.ofOption encode o)) : r.optional name decode = some o := by
  cases o with
  | none => rw [optional, h]; rfl
  | some a => exact optional_eq_some hd h

end Record

namespace Json

variable {fields : List (String × Json)} {names : List String}

theorem known?_eq_some (hknown : fields.map Prod.fst ⊆ names)
    (hfields : (fields.map Prod.fst).Nodup) : known? names fields = some fields := by
  have hall : fields.filter (fun f => names.contains f.1) = fields :=
    List.filter_eq_self.mpr fun f hf => List.contains_iff_mem.mpr (hknown (List.mem_map_of_mem hf))
  have hproper : Record.isProper fields = true := decide_eq_true hfields
  simp only [known?, hall, hproper, if_true]

theorem fieldIf_names {α : Type} (name : String) (encode : α → Json) (o : Option α) :
    ((fieldIf name encode o).map Prod.fst).Sublist [name] := by
  cases o <;> simp [fieldIf]

/-! ### Tagged objects -/

/-- The fields that a kind writes, its tag among them, are those by which it is known, and no kind
has fields that the object has itself. -/
structure Shaped (tag : String) (own : List String) (shapes : Shapes) (kind : String)
    (names : List String) (written : Record) : Prop where
  find?_shapes : shapes.find? (.str kind) = some (kind, names)
  lookup_tag : written.lookup tag = some (.str kind)
  written_names : (written.map Prod.fst).Sublist (tag :: names)
  nodup_shapes : ∀ s ∈ shapes, (own ++ tag :: s.2).Nodup

namespace Shaped

variable {tag kind : String} {own : List String} {shapes : Shapes} {written before after : Record}
  (hk : Shaped tag own shapes kind names written)

include hk

theorem nodup_names : (own ++ tag :: names).Nodup :=
  hk.nodup_shapes (kind, names) (List.mem_of_find?_eq_some hk.find?_shapes)

theorem notMem_written {name : String} (hname : name ∈ own) : name ∉ written.map Prod.fst := fun h =>
  (List.nodup_append.mp hk.nodup_names).2.2 name hname name (hk.written_names.subset h) rfl

/-- The object's own fields are not hidden by those of its kind. -/
theorem lookup_own {name : String} (hname : name ∈ own) :
    (before ++ (written ++ after)).lookup name = (before ++ after).lookup name := by
  rw [List.lookup_append, Record.lookup_append_right (hk.notMem_written hname), ← List.lookup_append]

variable (hown : ((before ++ after).map Prod.fst).Sublist own)

include hown

/-- The fields of the kind are not hidden by the object's own. -/
theorem lookup_written {name : String} (hname : name ∈ tag :: names) :
    (before ++ (written ++ after)).lookup name = written.lookup name := by
  have hrest : name ∉ (before ++ after).map Prod.fst := fun h =>
    (List.nodup_append.mp hk.nodup_names).2.2 name (hown.subset h) name hname rfl
  rw [List.map_append, List.mem_append, not_or] at hrest
  rw [Record.lookup_append_right hrest.1, Record.lookup_append_left hrest.2]

/-- The object is read as one of its kind, with all its fields. -/
theorem tagged?_eq_some : tagged? tag own shapes (before ++ (written ++ after)) =
    some (kind, before ++ (written ++ after)) := by
  have hperm : ((before ++ (written ++ after)).map Prod.fst).Perm
      ((before ++ after).map Prod.fst ++ written.map Prod.fst) := by
    simp only [List.map_append, List.append_assoc]
    exact List.perm_append_comm.append_left _
  have hsub := hown.append hk.written_names
  have hknown : (before ++ (written ++ after)).map Prod.fst ⊆ tag :: own ++ names := by
    intro name hname
    have hname := hsub.subset (hperm.subset hname)
    simp only [List.mem_append, List.mem_cons] at hname ⊢
    tauto
  have hfields := hperm.nodup_iff.mpr (hsub.nodup hk.nodup_names)
  have htag := (hk.lookup_written hown List.mem_cons_self).trans hk.lookup_tag
  rw [tagged?, htag]
  simp only [bind, Option.bind_some, hk.find?_shapes, known?_eq_some hknown hfields]
  rfl

end Shaped

end Json

/-! ### Symbols -/

theorem SymbolId.ofJson?_inverts : Json.Inverts SymbolId.ofJson? SymbolId.toJson where
  decode_encode id := by
    have hid : id.index.toNat < Nat.pow 2 32 := id.index.toNat_lt
    simp [ofJson?, toJson, Json.below?, Json.ofNat, hid]
  encode_ne_null _ := Json.noConfusion

theorem SymbolId.optional_of_lookup {r : Record} {name : String} {id : Option SymbolId}
    (h : r.lookup name = some (.ofOption toJson id)) : r.optional name ofJson? = some id :=
  Record.optional_eq_some_of_null ofJson?_inverts h

namespace SymbolKind

/-- The name of a kind and the fields by which it is known. -/
def shape : SymbolKind → String × List String
  | nameSpace => ("namespace", [])
  | type .. => ("type", ["type_args", "element"])
  | method .. => ("method", ["return_type", "parameters"])
  | property .. => ("property", ["value_type"])
  | field .. => ("field", ["field_type"])
  | delegate .. => ("delegate", ["return_type", "parameters", "type_args"])
  | attributeConstructor => ("attribute", [])
  | parameter .. => ("parameter", ["param_type"])

theorem handles_names (name : String) (ids : List SymbolId) :
    ((handles name ids).map Prod.fst).Sublist [name] := by
  cases ids <;> simp [handles]

theorem shaped (k : SymbolKind) :
    Json.Shaped "kind" ["name", "namespace", "containing_type"] shapes k.shape.1 k.shape.2
      k.fields where
  find?_shapes := by cases k <;> rfl
  lookup_tag := by cases k <;> rfl
  written_names := by
    cases k with
    | type typeArgs element =>
      have hnames := (handles_names "type_args" typeArgs).append
        (Json.fieldIf_names "element" SymbolId.toJson element)
      simpa [fields, shape] using hnames
    | delegate returnType parameters typeArgs =>
      exact (((handles_names _ typeArgs).cons_cons _).cons_cons _).cons_cons _
    | _ => exact List.Sublist.refl _
  nodup_shapes := by decide

/-- A list of handles is read again from its field, which is missing if the list is empty. -/
theorem withDefault_handles {r : Record} {name : String} {ids : List SymbolId}
    (h : r.lookup name = (handles name ids).lookup name) :
    r.withDefault name [] (Json.list? SymbolId.ofJson?) = some ids := by
  cases ids with
  | nil => rw [Record.withDefault, h]; rfl
  | cons id ids =>
    refine Record.withDefault_eq_some (Json.list?_inverts SymbolId.ofJson?_inverts) (h.trans ?_)
    simp [handles]

/-- A kind is read again from any record that agrees with it on its fields. -/
theorem ofRecord?_of_lookup (k : SymbolKind) {r : Record}
    (h : ∀ name ∈ k.shape.2, r.lookup name = k.fields.lookup name) :
    ofRecord? k.shape.1 r = some k := by
  have hid := SymbolId.ofJson?_inverts
  have hhandles {name : String} {ids : List SymbolId}
      (h : r.lookup name = some (.ofList SymbolId.toJson ids)) :
      r.withDefault name [] (Json.list? SymbolId.ofJson?) = some ids :=
    Record.withDefault_eq_some (Json.list?_inverts hid) h
  -- One step for each field, in the order in which the reader of the kind asks for them.
  cases k with
  | nameSpace | attributeConstructor => rfl
  | type typeArgs element =>
    have hargs : (type typeArgs element).fields.lookup "type_args" =
        (handles "type_args" typeArgs).lookup "type_args" := by
      cases typeArgs <;> cases element <;> rfl
    have helement : (type typeArgs element).fields.lookup "element" =
        element.map SymbolId.toJson := by
      cases typeArgs <;> cases element <;> rfl
    refine Option.bind_eq_some_iff.mpr
      ⟨_, withDefault_handles ((h _ (by simp [shape])).trans hargs), ?_⟩
    exact Option.bind_eq_some_iff.mpr
      ⟨_, Record.optional_eq_some hid ((h _ (by simp [shape])).trans helement), rfl⟩
  | method returnType parameters =>
    refine Option.bind_eq_some_iff.mpr ⟨_, SymbolId.optional_of_lookup (h _ (by simp [shape])), ?_⟩
    exact Option.bind_eq_some_iff.mpr ⟨_, hhandles (h _ (by simp [shape])), rfl⟩
  | delegate returnType parameters typeArgs =>
    refine Option.bind_eq_some_iff.mpr ⟨_, SymbolId.optional_of_lookup (h _ (by simp [shape])), ?_⟩
    refine Option.bind_eq_some_iff.mpr ⟨_, hhandles (h _ (by simp [shape])), ?_⟩
    exact Option.bind_eq_some_iff.mpr ⟨_, withDefault_handles (h _ (by simp [shape])), rfl⟩
  | property type | field type | parameter type =>
    exact Option.bind_eq_some_iff.mpr ⟨_, SymbolId.optional_of_lookup (h _ (by simp [shape])), rfl⟩

end SymbolKind

namespace Symbol

/-- The fields of a symbol that do not depend on its kind. -/
def ownFields (s : Symbol) : Record :=
  ("name", .str s.name) :: Json.fieldIf "namespace" .str s.nameSpace ++
    Json.fieldIf "containing_type" SymbolId.toJson s.owner

theorem toJson_eq (s : Symbol) : s.toJson = .obj (s.ownFields ++ (s.kind.fields ++ [])) := by
  rw [List.append_nil]
  rfl

theorem ownFields_names (s : Symbol) :
    ((s.ownFields ++ []).map Prod.fst).Sublist ["name", "namespace", "containing_type"] := by
  have hnames := (Json.fieldIf_names "namespace" .str s.nameSpace).append
    (Json.fieldIf_names "containing_type" SymbolId.toJson s.owner)
  simpa [ownFields] using hnames

theorem ofJson?_inverts : Json.Inverts ofJson? toJson where
  decode_encode s := by
    have htagged := s.kind.shaped.tagged?_eq_some s.ownFields_names
    have hkind := s.kind.ofRecord?_of_lookup fun name hname =>
      s.kind.shaped.lookup_written s.ownFields_names (List.mem_cons_of_mem _ hname)
    have hlookup {name : String} (hname : name ∈ ["name", "namespace", "containing_type"]) :
        (s.ownFields ++ (s.kind.fields ++ [])).lookup name = (s.ownFields ++ []).lookup name :=
      s.kind.shaped.lookup_own hname
    rw [toJson_eq]
    obtain ⟨name, nameSpace, owner, kind⟩ := s
    generalize ownFields _ ++ (SymbolKind.fields _ ++ []) = r at *
    have hname : r.required "name" Json.string? = some name :=
      Record.required_eq_some Json.string?_inverts (hlookup (by simp))
    have hnameSpace : r.optional "namespace" Json.string? = some nameSpace := by
      refine Record.optional_eq_some Json.string?_inverts ((hlookup (by simp)).trans ?_)
      cases nameSpace <;> cases owner <;> rfl
    have howner : r.optional "containing_type" SymbolId.ofJson? = some owner := by
      refine Record.optional_eq_some SymbolId.ofJson?_inverts ((hlookup (by simp)).trans ?_)
      cases nameSpace <;> cases owner <;> rfl
    simp [ofJson?, Json.fields?, htagged, hname, hnameSpace, howner, hkind]
  encode_ne_null _ := Json.noConfusion

end Symbol

theorem SymbolTable.ofJson?_inverts : Json.Inverts SymbolTable.ofJson? SymbolTable.toJson where
  decode_encode t := by
    have hsymbols := (Json.list?_inverts Symbol.ofJson?_inverts).decode_encode t.symbols.toList
    rw [toJson, ofJson?, hsymbols, Option.map_some, Array.toArray_toList]
  encode_ne_null _ := Json.noConfusion

/-! ### Nodes -/

theorem Span.ofJson?_inverts : Json.Inverts Span.ofJson? Span.toJson where
  decode_encode s := by
    have hknown : Json.known? fieldNames s.fields = some s.fields :=
      Json.known?_eq_some (List.Subset.refl _) (by simp [fields])
    have hn := Json.uint64?_inverts
    have hline : Record.required s.fields "line" Json.uint64? = some s.line :=
      Record.required_eq_some hn rfl
    have hcolumn : Record.required s.fields "column" Json.uint64? = some s.column :=
      Record.required_eq_some hn rfl
    have hoffset : Record.withDefault s.fields "offset" 0 Json.uint64? = some s.offset :=
      Record.withDefault_eq_some hn rfl
    have hlength : Record.withDefault s.fields "length" 0 Json.uint64? = some s.length :=
      Record.withDefault_eq_some hn rfl
    simp [ofJson?, toJson, Json.record?, hknown, hline, hcolumn, hoffset, hlength]
  encode_ne_null _ := Json.noConfusion

namespace TypeRef

def fields (t : TypeRef) : Record :=
  [("ty", .ofOption SymbolId.toJson t.type), ("span", t.span.toJson)]

theorem toJson_eq (t : TypeRef) : t.toJson = .obj t.fields := rfl

theorem ofJson?_inverts : Json.Inverts ofJson? toJson where
  decode_encode t := by
    have hknown : Json.known? ["ty", "span"] t.fields = some t.fields :=
      Json.known?_eq_some (List.Subset.refl _) (by simp [fields])
    have htype : t.fields.optional "ty" SymbolId.ofJson? = some t.type :=
      Record.optional_eq_some_of_null SymbolId.ofJson?_inverts rfl
    have hspan : t.fields.required "span" Span.ofJson? = some t.span :=
      Record.required_eq_some Span.ofJson?_inverts rfl
    simp [ofJson?, toJson_eq, Json.record?, hknown, htype, hspan]
  encode_ne_null _ := Json.noConfusion

end TypeRef

namespace NodeKind

/-- The tag and the fields of a kind. -/
def written (k : NodeKind) : Record := ("node", .str k.name) :: k.fields

theorem shaped (k : NodeKind) :
    Json.Shaped "node" ["span", "children"] shapes k.name (k.fields.map Prod.fst) k.written where
  find?_shapes := by cases k <;> rfl
  lookup_tag := rfl
  written_names := List.Sublist.refl _
  nodup_shapes := by decide

/-- A kind is read again from any record that agrees with it on its fields. -/
theorem ofRecord?_of_lookup (k : NodeKind) {r : Record}
    (h : ∀ name ∈ k.fields.map Prod.fst, r.lookup name = k.written.lookup name) :
    ofRecord? k.name r = some k := by
  have hspan {name : String} {span : Span} (h : r.lookup name = some span.toJson) :
      r.required name Span.ofJson? = some span :=
    Record.required_eq_some Span.ofJson?_inverts h
  have htype {name : String} {type : TypeRef} (h : r.lookup name = some type.toJson) :
      r.required name TypeRef.ofJson? = some type :=
    Record.required_eq_some TypeRef.ofJson?_inverts h
  -- One step for each field, in the order in which the reader of the kind asks for them.
  cases k with
  | compilationUnit => rfl
  | nameSpace name nameSpan symbol =>
    have hname : r.required "name" Json.string? = some name :=
      Record.required_eq_some Json.string?_inverts (h _ (by simp [fields]))
    refine Option.bind_eq_some_iff.mpr ⟨_, hname, ?_⟩
    refine Option.bind_eq_some_iff.mpr ⟨_, hspan (h _ (by simp [fields])), ?_⟩
    exact Option.bind_eq_some_iff.mpr ⟨_, SymbolId.optional_of_lookup (h _ (by simp [fields])), rfl⟩
  | typeDeclaration symbol =>
    exact Option.bind_eq_some_iff.mpr ⟨_, SymbolId.optional_of_lookup (h _ (by simp [fields])), rfl⟩
  | method symbol type | property symbol type | indexer symbol type | field symbol type =>
    refine Option.bind_eq_some_iff.mpr ⟨_, SymbolId.optional_of_lookup (h _ (by simp [fields])), ?_⟩
    exact Option.bind_eq_some_iff.mpr ⟨_, htype (h _ (by simp [fields])), rfl⟩
  | localVariable type | parameter type | typeOf type | cast type | asType type | defaultValue type
  | arrayCreation type =>
    exact Option.map_eq_some_iff.mpr ⟨_, htype (h _ (by simp [fields])), rfl⟩
  | baseList types =>
    have htypes : r.required "types" (Json.list? TypeRef.ofJson?) = some types :=
      Record.required_eq_some (Json.list?_inverts TypeRef.ofJson?_inverts) (h _ (by simp [fields]))
    exact Option.map_eq_some_iff.mpr ⟨_, htypes, rfl⟩
  | objectCreation id | invocation id | memberAccess id | genericName id | lambda id
  | implicitArrayCreation id =>
    exact Option.map_eq_some_iff.mpr ⟨_, SymbolId.optional_of_lookup (h _ (by simp [fields])), rfl⟩
  | delegate symbol identifierSpan returnTypeSpan parameterListSpan =>
    refine Option.bind_eq_some_iff.mpr ⟨_, SymbolId.optional_of_lookup (h _ (by simp [fields])), ?_⟩
    refine Option.bind_eq_some_iff.mpr ⟨_, hspan (h _ (by simp [fields])), ?_⟩
    refine Option.bind_eq_some_iff.mpr ⟨_, hspan (h _ (by simp [fields])), ?_⟩
    exact Option.bind_eq_some_iff.mpr ⟨_, hspan (h _ (by simp [fields])), rfl⟩
  | attributeUse symbol nameSpan | usingDirective symbol nameSpan =>
    refine Option.bind_eq_some_iff.mpr ⟨_, SymbolId.optional_of_lookup (h _ (by simp [fields])), ?_⟩
    exact Option.bind_eq_some_iff.mpr ⟨_, hspan (h _ (by simp [fields])), rfl⟩
  | other label =>
    have hlabel : r.optional "label" Json.string? = some label :=
      Record.optional_eq_some_of_null Json.string?_inverts (h _ (by simp [fields]))
    exact Option.map_eq_some_iff.mpr ⟨_, hlabel, rfl⟩

end NodeKind

namespace Node

/-- The fields of a node that do not depend on its kind. -/
def ownFields (n : Node) : Record :=
  ("span", n.span.toJson) ::
    match n.children with
    | [] => []
    | c :: cs => [("children", .arr (toJsonAll (c :: cs)))]

theorem toJson_eq (n : Node) : n.toJson = .obj (n.kind.written ++ n.ownFields) := by
  obtain ⟨kind, span, children⟩ := n
  cases children <;> simp [toJson, NodeKind.written, ownFields]

theorem ownFields_names (n : Node) :
    (([] ++ n.ownFields).map Prod.fst).Sublist ["span", "children"] := by
  obtain ⟨kind, span, children⟩ := n
  cases children <;> simp [ownFields]

theorem head?_fields (n : Node) : head? (n.kind.written ++ n.ownFields) = some (n.kind, n.span) := by
  have htagged := n.kind.shaped.tagged?_eq_some n.ownFields_names
  have hkind := n.kind.ofRecord?_of_lookup fun name hname =>
    n.kind.shaped.lookup_written n.ownFields_names (List.mem_cons_of_mem _ hname)
  have hlookup : ([] ++ (n.kind.written ++ n.ownFields)).lookup "span" =
      ([] ++ n.ownFields).lookup "span" :=
    n.kind.shaped.lookup_own (by simp)
  rw [List.nil_append] at htagged hkind hlookup
  have hspan : Record.withDefault (n.kind.written ++ n.ownFields) "span" {} Span.ofJson? =
      some n.span :=
    Record.withDefault_eq_some Span.ofJson?_inverts hlookup
  simp [head?, htagged, hkind, hspan]

theorem childrenOf?_append {r s : Record} (h : "children" ∉ r.map Prod.fst) :
    childrenOf? (r ++ s) = childrenOf? s := by
  induction r with
  | nil => rfl
  | cons f r ih =>
    obtain ⟨name, v⟩ := f
    simp only [List.map_cons, List.mem_cons, not_or] at h
    rw [List.cons_append, childrenOf?.eq_def]
    exact (if_neg (Ne.symm h.1)).trans (ih h.2)

theorem childrenOf?_fields (n : Node) :
    childrenOf? (n.kind.written ++ n.ownFields) = ofJsonAll? (toJsonAll n.children) := by
  rw [childrenOf?_append (n.kind.shaped.notMem_written (by simp))]
  obtain ⟨kind, span, children⟩ := n
  cases children <;> simp [ownFields, childrenOf?, toJsonAll, ofJsonAll?]

mutual
theorem ofJson?_toJson : ∀ n : Node, ofJson? n.toJson = some n
  | ⟨kind, span, children⟩ => by
    rw [toJson_eq, ofJson?, head?_fields, childrenOf?_fields, ofJsonAll?_toJsonAll children]
    rfl

theorem ofJsonAll?_toJsonAll : ∀ ns : List Node, ofJsonAll? (toJsonAll ns) = some ns
  | [] => by rw [toJsonAll, ofJsonAll?]
  | n :: ns => by
    rw [toJsonAll, ofJsonAll?, ofJson?_toJson n, ofJsonAll?_toJsonAll ns]
    rfl
end

theorem ofJson?_inverts : Json.Inverts ofJson? toJson where
  decode_encode := ofJson?_toJson
  encode_ne_null n := by
    rw [toJson_eq]
    exact Json.noConfusion

end Node

/-! ### Trees -/

namespace Tree

def fields (t : Tree) : Record :=
  [("file", .str t.file), ("symbols", t.symbols.toJson), ("root", t.root.toJson)] ++
    if t.generated then [("generated", .bool true)] else []

theorem toJson_eq (t : Tree) : t.toJson = .obj t.fields := rfl

theorem fields_names (t : Tree) : (t.fields.map Prod.fst).Sublist fieldNames := by
  cases h : t.generated <;> simp [fields, fieldNames, h]

theorem ofJson?_toJson (t : Tree) : ofJson? t.toJson = some t := by
  have hknown : Json.known? fieldNames t.fields = some t.fields :=
    Json.known?_eq_some t.fields_names.subset (t.fields_names.nodup (by decide))
  have hfile : t.fields.required "file" Json.string? = some t.file :=
    Record.required_eq_some Json.string?_inverts rfl
  have hsymbols : t.fields.withDefault "symbols" {} SymbolTable.ofJson? = some t.symbols :=
    Record.withDefault_eq_some SymbolTable.ofJson?_inverts rfl
  have hroot : t.fields.required "root" Node.ofJson? = some t.root :=
    Record.required_eq_some Node.ofJson?_inverts rfl
  have hgenerated : t.fields.withDefault "generated" false Json.bool? = some t.generated := by
    obtain ⟨file, symbols, root, generated⟩ := t
    cases generated <;> rfl
  simp [ofJson?, toJson_eq, Json.record?, hknown, hfile, hsymbols, hroot, hgenerated]

end Tree

end UsagePolicy
