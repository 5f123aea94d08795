import UsagePolicy.Proofs.Resolution.Rebinding

/-! Handles are opaque. A document may be moved to another table: every handle in its tree goes to a
new place, and there the table has the same symbol with its own handles moved in the same way. Only
the handles that the document can come to matter, so the other table may hold its symbols in another
order and anything else besides. -/
namespace UsagePolicy

/-! ### What a document can come to -/

/-- The handles that are written in the tree, and those that are written in the symbols behind such
handles, any number of symbols away. -/
inductive Tree.Reaches (t : Tree) : SymbolId → Prop
  | written {a : SymbolId} (ha : a ∈ t.root.mentions) : t.Reaches a
  | through {a b : SymbolId} {s : Symbol} (ha : t.Reaches a) (hs : t.symbols.get? a = some s)
    (hb : b ∈ s.mentions) : t.Reaches b

/-- A list that has the handles of the tree, and with a handle also those of its symbol, has all that
the document can come to. -/
theorem Tree.Reaches.mem_of_closed {t : Tree} {ids : List SymbolId} (hroot : t.root.mentions ⊆ ids)
    (hclosed : ∀ a ∈ ids, ∀ s ∈ t.symbols.get? a, s.mentions ⊆ ids) {a : SymbolId}
    (ha : t.Reaches a) : a ∈ ids := by
  induction ha with
  | written ha => exact hroot ha
  | through _ hs hb ih => exact hclosed _ ih _ hs hb

/-! ### Moving all handles -/

/-- The symbol with all its handles moved. -/
def Symbol.move (f : SymbolId → SymbolId) (s : Symbol) : Symbol := s.rebind fun a => some (f a)

/-- The node with all handles in it and below it moved. -/
def Node.move (f : SymbolId → SymbolId) (n : Node) : Node := n.rebind fun a => some (f a)

theorem Node.mentions_move (f : SymbolId → SymbolId) (n : Node) :
    (n.move f).mentions = n.mentions.map f := by
  rw [move, mentions_rebind, ← List.filterMap_eq_map]
  rfl

theorem SymbolKind.rebind_some (kind : SymbolKind) : kind.rebind some = kind := by
  cases kind <;> simp [rebind]

theorem Symbol.move_id (s : Symbol) : s.move id = s := by
  obtain ⟨name, nameSpace, owner, kind⟩ := s
  simp [move, rebind, SymbolKind.rebind_some]

namespace Node

mutual
theorem rebind_some : (n : Node) → n.rebind some = n
  | ⟨kind, span, children⟩ => by rw [rebind, kind.rebind_some, rebindAll_some children]

theorem rebindAll_some : (ns : List Node) → rebindAll some ns = ns
  | [] => rfl
  | n :: ns => by rw [rebindAll, rebind_some n, rebindAll_some ns]
end

theorem move_id (n : Node) : n.move id = n := n.rebind_some

end Node

/-! ### Relocations -/

/-- Where a document can be moved: of all handles that it can come to, the resolved ones stay apart
and lead to the moved symbols, and the dangling ones dangle again. -/
structure Tree.Relocates (t : Tree) (f : SymbolId → SymbolId) (symbols : SymbolTable) : Prop where
  injective {a b : SymbolId} : t.Reaches a → t.Reaches b → (t.symbols.get? a).isSome →
    (t.symbols.get? b).isSome → f a = f b → a = b
  get? {a : SymbolId} : t.Reaches a → symbols.get? (f a) = (t.symbols.get? a).map (·.move f)

theorem Tree.Relocates.rebinds {t : Tree} {f : SymbolId → SymbolId} {symbols : SymbolTable}
    (h : t.Relocates f symbols) :
    Rebinds (fun a => some (f a)) t.Reaches t.symbols symbols where
  closed ha hs _ hb := .through ha hs hb
  resolved {a s} ha hs := ⟨f a, rfl, by rw [h.get? ha, hs]; rfl⟩
  dangling ha hs := by rw [Option.bind_some, h.get? ha, hs, Option.map_none]
  injective ha hb hasome hbsome hab := h.injective ha hb hasome hbsome (Option.some_inj.mp hab)

/-- A table that has the same symbols behind all handles that a document can come to. -/
theorem Tree.Relocates.of_agree {t : Tree} {symbols : SymbolTable}
    (h : ∀ a, t.Reaches a → symbols.get? a = t.symbols.get? a) : t.Relocates id symbols where
  injective _ _ _ _ hab := hab
  get? {a} ha := by
    rw [id, h a ha, (funext Symbol.move_id : Symbol.move id = id), Option.map_id_fun]
    rfl

/-- Moving a document, which moves each of its handles and nothing else, leaves its diagnostics as
they are; and so does any change of the table behind handles that the document cannot come to. -/
theorem Engine.diagnostics_relocated (e : Engine) (t : Tree) :
    (∀ (f : SymbolId → SymbolId) (symbols : SymbolTable), t.Relocates f symbols →
      (t.root.move f).mentions = t.root.mentions.map f ∧
        e.diagnostics { t with symbols, root := t.root.move f } = e.diagnostics t) ∧
    ∀ symbols : SymbolTable, (∀ a, t.Reaches a → symbols.get? a = t.symbols.get? a) →
      e.diagnostics { t with symbols } = e.diagnostics t := by
  have hmove : ∀ (f : SymbolId → SymbolId) (symbols : SymbolTable), t.Relocates f symbols →
      e.diagnostics { t with symbols, root := t.root.move f } = e.diagnostics t := by
    intro f symbols h
    exact e.diagnostics_rebind t h.rebinds fun a ha => .written ha
  refine ⟨fun f symbols h => ⟨t.root.mentions_move f, hmove f symbols h⟩, ?_⟩
  intro symbols h
  have hid := hmove id symbols (.of_agree h)
  rwa [t.root.move_id] at hid

/-- A method that casts to `Box<Leaf>` and to a type that is not in the table. -/
def castDocument : Tree where
  file := "Casts.cs"
  symbols := ⟨#[{ name := "Run", kind := .method none [] }, .ofTypeName "Leaf",
    { name := "Box", kind := .type [⟨1⟩] none }, .ofTypeName "Idle"]⟩
  root := {
    kind := .typeDeclaration (some ⟨0⟩)
    children := [{ kind := .cast { type := some ⟨2⟩, span := .start 2 9 } },
      { kind := .cast { type := some ⟨9⟩, span := .start 3 9 } }] }

/-- The places of the handles of `castDocument` in `castTable`. -/
def castPlaces (a : SymbolId) : SymbolId :=
  if a = ⟨0⟩ then ⟨3⟩ else if a = ⟨1⟩ then ⟨2⟩ else if a = ⟨2⟩ then ⟨1⟩ else ⟨40⟩

/-- The symbols of `castDocument` from back to front, with another one in the place of `Idle`. -/
def castTable : SymbolTable where
  symbols := #[.ofTypeName "Other", { name := "Box", kind := .type [⟨2⟩] none },
    .ofTypeName "Leaf", { name := "Run", kind := .method none [] }]

/-- All that `castDocument` can come to; the last one dangles. -/
def castHandles : List SymbolId := [⟨0⟩, ⟨1⟩, ⟨2⟩, ⟨9⟩]

theorem mem_castHandles {a : SymbolId} (ha : castDocument.Reaches a) : a ∈ castHandles :=
  ha.mem_of_closed (by decide) (by decide)

/-- The engine that forbids `Leaf` everywhere. -/
def leafEngine : Engine where
  registry := { usageRules := [{
    name := "no-leaf", category := .type, context := .any, used := .named "Leaf",
    sites := UsageKind.ofSymbols, descriptor := .ofCategory .type }] }

theorem diagnostics_relocated_casts : castDocument.Relocates castPlaces castTable ∧
    leafEngine.diagnostics { castDocument with
      symbols := castTable, root := castDocument.root.move castPlaces } =
        leafEngine.diagnostics castDocument ∧
    leafEngine.diagnostics { castDocument with
      symbols := castDocument.symbols.add (.ofTypeName "Late") } =
        leafEngine.diagnostics castDocument := by
  have hget : ∀ a ∈ castHandles, castTable.get? (castPlaces a) =
      (castDocument.symbols.get? a).map (·.move castPlaces) := by decide
  have hinjective : ∀ a ∈ castHandles, ∀ b ∈ castHandles,
      castPlaces a = castPlaces b → a = b := by decide
  have hadd : ∀ a ∈ castHandles,
      (castDocument.symbols.add (.ofTypeName "Late")).get? a = castDocument.symbols.get? a := by
    decide
  have hmoves : castDocument.Relocates castPlaces castTable := {
    injective := fun ha hb _ _ => hinjective _ (mem_castHandles ha) _ (mem_castHandles hb)
    get? := fun ha => hget _ (mem_castHandles ha) }
  have hall := leafEngine.diagnostics_relocated castDocument
  exact ⟨hmoves, (hall.1 castPlaces castTable hmoves).2,
    hall.2 _ fun a ha => hadd a (mem_castHandles ha)⟩

end UsagePolicy
