import UsagePolicy.Proofs.Documents.Values
import UsagePolicy.Proofs.Json.Reading

/-! Tree documents as text. All numbers of a document are words and all its fields are known, so
reading drops nothing of what was written, and a document comes back from either layout exactly when
fewer than 128 containers stand one in another. -/
namespace UsagePolicy

open Json (FitsWords)

/-! ### Numbers -/

namespace Json

theorem fitsWords_ofOption {α : Type} {encode : α → Json} (h : ∀ a, (encode a).FitsWords)
    (o : Option α) : (ofOption encode o).FitsWords := by
  cases o with
  | none => exact .null
  | some a => exact h a

theorem fitsWords_ofList {α : Type} {encode : α → Json} (h : ∀ a, (encode a).FitsWords)
    (as : List α) : (ofList encode as).FitsWords :=
  .arr (List.forall_mem_map.mpr fun a _ => h a)

theorem fitsWords_of_mem_fieldIf {α : Type} {name : String} {encode : α → Json}
    (h : ∀ a, (encode a).FitsWords) (o : Option α) : ∀ f ∈ fieldIf name encode o, f.2.FitsWords := by
  cases o with
  | none => simp [fieldIf]
  | some a => simpa [fieldIf] using h a

theorem fitsWords_uint64 (n : UInt64) : (ofNat n.toNat).FitsWords := .natural n.toNat_lt

end Json

theorem SymbolId.fitsWords_toJson (id : SymbolId) : id.toJson.FitsWords :=
  .natural (Nat.lt_trans id.index.toNat_lt (by decide))

theorem SymbolKind.fitsWords_of_mem_handles (name : String) (ids : List SymbolId) :
    ∀ f ∈ handles name ids, f.2.FitsWords := by
  have hids := Json.fitsWords_ofList SymbolId.fitsWords_toJson ids
  cases ids <;> simp [handles, hids]

theorem SymbolKind.fitsWords_of_mem_fields (k : SymbolKind) : ∀ f ∈ k.fields, f.2.FitsWords := by
  have hid := SymbolId.fitsWords_toJson
  cases k with
  | type typeArgs element =>
    simp only [fields, List.forall_mem_append, List.forall_mem_cons]
    exact ⟨⟨.str _, fitsWords_of_mem_handles _ typeArgs⟩, Json.fitsWords_of_mem_fieldIf hid element⟩
  | delegate returnType parameters typeArgs =>
    simp only [fields, List.forall_mem_append, List.forall_mem_cons]
    exact ⟨⟨.str _, Json.fitsWords_ofOption hid returnType, Json.fitsWords_ofList hid parameters,
      by simp⟩, fitsWords_of_mem_handles _ typeArgs⟩
  | _ => simp [fields, FitsWords.str, Json.fitsWords_ofOption hid, Json.fitsWords_ofList hid]

theorem Symbol.fitsWords_toJson (s : Symbol) : s.toJson.FitsWords := by
  rw [toJson_eq]
  refine .obj ?_
  simp only [ownFields, List.append_nil, List.forall_mem_append, List.forall_mem_cons]
  exact ⟨⟨⟨.str _, Json.fitsWords_of_mem_fieldIf .str _⟩,
    Json.fitsWords_of_mem_fieldIf SymbolId.fitsWords_toJson _⟩, s.kind.fitsWords_of_mem_fields⟩

theorem Span.fitsWords_toJson (s : Span) : s.toJson.FitsWords := by
  refine .obj ?_
  simp [fields, Json.fitsWords_uint64]

theorem TypeRef.fitsWords_toJson (t : TypeRef) : t.toJson.FitsWords := by
  refine .obj ?_
  simp [Json.fitsWords_ofOption SymbolId.fitsWords_toJson, Span.fitsWords_toJson]

theorem NodeKind.fitsWords_of_mem_fields (k : NodeKind) : ∀ f ∈ k.fields, f.2.FitsWords := by
  have hid := Json.fitsWords_ofOption SymbolId.fitsWords_toJson
  have hspan := Span.fitsWords_toJson
  have htype := TypeRef.fitsWords_toJson
  have htypes := Json.fitsWords_ofList htype
  have hlabel := Json.fitsWords_ofOption FitsWords.str
  cases k <;> simp [fields, hid, hspan, htype, htypes, hlabel, FitsWords.str]

namespace Node

mutual
theorem fitsWords_toJson : ∀ n : Node, n.toJson.FitsWords
  | ⟨kind, span, children⟩ => by
    rw [toJson_eq]
    refine .obj ?_
    simp only [NodeKind.written, ownFields, List.forall_mem_append, List.forall_mem_cons]
    refine ⟨⟨.str _, kind.fitsWords_of_mem_fields⟩, span.fitsWords_toJson, ?_⟩
    cases children with
    | nil => simp
    | cons c cs => simpa using FitsWords.arr (fitsWords_toJsonAll (c :: cs))

theorem fitsWords_toJsonAll : ∀ ns : List Node, ∀ v ∈ toJsonAll ns, v.FitsWords
  | [] => by simp [toJsonAll]
  | n :: ns => by
    rw [toJsonAll]
    exact List.forall_mem_cons.mpr ⟨fitsWords_toJson n, fitsWords_toJsonAll ns⟩
end

end Node

theorem Tree.fitsWords_toJson (t : Tree) : t.toJson.FitsWords := by
  refine .obj ?_
  simp only [List.forall_mem_append, List.forall_mem_cons]
  have hsymbols := Json.fitsWords_ofList Symbol.fitsWords_toJson t.symbols.symbols.toList
  refine ⟨⟨.str _, hsymbols, t.root.fitsWords_toJson, by simp⟩, ?_⟩
  split <;> simp [FitsWords.bool]

/-! ### Nothing is dropped -/

open Json.Draft (ofJson ofJsonItems ofJsonFields)

theorem Json.Draft.ofJsonFields_append (r s : Record) :
    ofJsonFields (r ++ s) = ofJsonFields r ++ ofJsonFields s := by
  simp [ofJsonFields_eq_map]

/-- An object keeps its known fields. -/
theorem Json.Draft.keep_ofJson {names : List String} {fields : Record}
    (h : fields.map Prod.fst ⊆ names) : (ofJson (.obj fields)).keep names = ofJson (.obj fields) := by
  rw [ofJson, keep, ofJsonFields_eq_map]
  congr 1
  refine List.filter_eq_self.mpr (List.forall_mem_map.mpr fun f hf => ?_)
  simpa using h (List.mem_map_of_mem hf)

namespace Node

/-- Fields other than the span and the children stay as they are. -/
theorem outlineFields_append {fs gs : List (Option String × Json.Draft)}
    (h : ∀ f ∈ fs, f.1 ≠ some "span" ∧ f.1 ≠ some "children") :
    outlineFields (fs ++ gs) = fs ++ outlineFields gs := by
  induction fs with
  | nil => rfl
  | cons f fs ih =>
    rw [List.forall_mem_cons] at h
    rw [List.cons_append, outlineFields.eq_def]
    simp only [if_neg h.1.1, if_neg h.1.2, ih h.2, List.cons_append]

theorem outlineFields_written (k : NodeKind) (gs : List (Option String × Json.Draft)) :
    outlineFields (ofJsonFields k.written ++ gs) = ofJsonFields k.written ++ outlineFields gs := by
  refine outlineFields_append ?_
  rw [Json.Draft.ofJsonFields_eq_map]
  refine List.forall_mem_map.mpr fun f hf => ?_
  have hne {name : String} (hname : name ∈ ["span", "children"]) : some f.1 ≠ some name := fun h =>
    k.shaped.notMem_written hname (Option.some.inj h ▸ List.mem_map_of_mem hf)
  exact ⟨hne (by simp), hne (by simp)⟩

mutual
theorem outline_ofJson : ∀ n : Node, outline (ofJson n.toJson) = ofJson n.toJson
  | ⟨kind, span, children⟩ => by
    have hspan : (ofJson span.toJson).keep Span.fieldNames = ofJson span.toJson :=
      Json.Draft.keep_ofJson (List.Subset.refl _)
    rw [toJson_eq, ofJson, outline]
    congr 1
    rw [Json.Draft.ofJsonFields_append, outlineFields_written]
    congr 1
    cases children with
    | nil => simp [ownFields, ofJsonFields, outlineFields, hspan]
    | cons c cs =>
      simp [ownFields, ofJsonFields, outlineFields, hspan, ofJson, outlineAll_ofJson (c :: cs)]

theorem outlineAll_ofJson :
    ∀ ns : List Node, outlineAll (ofJsonItems (toJsonAll ns)) = ofJsonItems (toJsonAll ns)
  | [] => rfl
  | n :: ns => by rw [toJsonAll, ofJsonItems, outlineAll, outline_ofJson n, outlineAll_ofJson ns]
end

end Node

namespace Tree

theorem outline_ofJson (t : Tree) : outline (ofJson t.toJson) = ofJson t.toJson := by
  have hkeep := Json.Draft.keep_ofJson t.fields_names.subset
  have houtline : outline (ofJson (.obj t.fields)) =
      ((ofJson (.obj t.fields)).keep fieldNames).inField "root" Node.outline := rfl
  rw [toJson_eq, houtline, hkeep, ofJson, Json.Draft.inField]
  cases h : t.generated <;> simp [fields, h, ofJsonFields, Node.outline_ofJson]

/-- A text in any layout is read as the tree that it was made of, unless that is nested too deeply. -/
theorem ofText?_spread (t : Tree) (l : Json.Layout) {input : String}
    (hinput : input.toList = l.spread 0 t.toJson) :
    ofText? input = if t.toJson.nesting < 128 then some t else none := by
  rw [ofText?, Json.parseOutline?_spread l t.fitsWords_toJson t.outline_ofJson hinput]
  simp only [Json.maxNesting, Nat.le_iff_lt_add_one]
  split
  next => exact t.ofJson?_toJson
  next => rfl

/-- A tree comes back from its document, and from the text of the document on one line or indented
just if fewer than 128 containers stand one in another. -/
theorem documents_read_back (t : Tree) :
    ofJson? t.toJson = some t ∧
      (ofText? t.toJson.compact = if t.toJson.nesting < 128 then some t else none) ∧
      ofText? t.toJson.pretty = if t.toJson.nesting < 128 then some t else none :=
  ⟨t.ofJson?_toJson, t.ofText?_spread .oneLine (Json.Layout.spread_oneLine _ 0).symm,
    t.ofText?_spread .indented (Json.Layout.spread_indented _ 0).symm⟩

/-- Each level of nodes costs two containers, so that chains of up to 63 nodes can be read. -/
example :
    (toJson { file := "a.cs", root := .wrap 62 { kind := .compilationUnit } }).nesting = 127 := by
  decide +kernel

end Tree

end UsagePolicy
