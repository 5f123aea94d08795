import UsagePolicy.Symbol

/-! Dotted paths of namespaces. A path is cut at its last dot, and a qualified name puts the two parts
together again, unless the part in front is empty: an empty namespace counts as none. Main result:
cutting and joining are inverse to each other, but for the paths that consist of a dot and one name,
which lose their dot. -/
namespace UsagePolicy

namespace Text

variable {separator : Char} {cs after : List Char}

theorem atLast_of_notMem (h : separator ∉ cs) : atLast separator cs = none := by
  induction cs with
  | nil => rfl
  | cons c cs ih =>
    rw [List.mem_cons, not_or] at h
    rw [atLast, ih h.2, if_neg (Ne.symm h.1)]

/-- The cut is at the last separator, however many stand before it. -/
theorem atLast_append_cons (before : List Char) (h : separator ∉ after) :
    atLast separator (before ++ separator :: after) = some (before, after) := by
  induction before with
  | nil => rw [List.nil_append, atLast, atLast_of_notMem h, if_pos rfl]
  | cons c before ih => rw [List.cons_append, atLast, ih]

theorem exists_eq_append_last (h : separator ∈ cs) :
    ∃ before after, cs = before ++ separator :: after ∧ separator ∉ after := by
  obtain ⟨after, before, heq, hafter⟩ := List.eq_append_cons_of_mem (List.mem_reverse.mpr h)
  refine ⟨before.reverse, after.reverse, ?_, by rwa [List.mem_reverse]⟩
  rw [← List.reverse_reverse cs, heq, List.reverse_append, List.reverse_cons, List.append_assoc]
  rfl

end Text

namespace Symbol

variable {path parent name : String}

/-! ### Cutting a path -/

/-- A path without dots is a name that no namespace contains. -/
theorem ofNamespacePath_of_notMem (h : '.' ∉ path.toList) :
    ofNamespacePath path = { name := path, kind := .nameSpace } := by
  rw [ofNamespacePath, Text.atLast_of_notMem h]

/-- The name behind the last dot is in the namespace before it, dots and all. -/
theorem ofNamespacePath_join (parent : String) (h : '.' ∉ name.toList) :
    ofNamespacePath (parent ++ "." ++ name) =
      { name, nameSpace := some parent, kind := .nameSpace } := by
  have hchars : (parent ++ "." ++ name).toList = parent.toList ++ '.' :: name.toList := by
    simp [String.toList_append]
  rw [ofNamespacePath, hchars, Text.atLast_append_cons _ h]
  simp only [String.ofList_toList]

/-- A path has no dot, or it has a last one. -/
theorem path_cases (path : String) :
    '.' ∉ path.toList ∨
      ∃ parent name : String, '.' ∉ name.toList ∧ path = parent ++ "." ++ name := by
  by_cases hdot : '.' ∈ path.toList
  · obtain ⟨before, after, heq, hafter⟩ := Text.exists_eq_append_last hdot
    refine .inr ⟨String.ofList before, String.ofList after, by rwa [String.toList_ofList], ?_⟩
    rw [← String.toList_inj, heq]
    simp [String.toList_append]
  · exact .inl hdot

/-! ### Joining it again -/

theorem qualifiedName_join {s : Symbol} (h : s.nameSpace = some parent) (hne : parent ≠ "") :
    s.qualifiedName = parent ++ "." ++ s.name := by
  rw [qualifiedName, h]
  exact if_neg (by rwa [String.isEmpty_iff])

/-- An empty namespace is not shown, and neither is its dot. -/
theorem qualifiedName_of_empty {s : Symbol} (h : s.nameSpace = some "") :
    s.qualifiedName = s.name := by
  rw [qualifiedName, h]
  rfl

/-! ### There and back -/

/-- A dot and then a name without dots: a name in the empty namespace. -/
def IsRooted (path : String) : Prop := ∃ name : String, '.' ∉ name.toList ∧ path = "." ++ name

theorem isRooted_iff : IsRooted path ↔ path.toList.head? = some '.' ∧ '.' ∉ path.toList.tail := by
  constructor
  · rintro ⟨name, hname, rfl⟩
    simpa [String.toList_append] using hname
  · rintro ⟨hhead, htail⟩
    obtain ⟨chars, hchars⟩ := List.head?_eq_some_iff.mp hhead
    rw [hchars, List.tail_cons] at htail
    refine ⟨String.ofList chars, by rwa [String.toList_ofList], ?_⟩
    rw [← String.toList_inj, hchars]
    simp [String.toList_append]

instance : Decidable (IsRooted path) := decidable_of_iff _ isRooted_iff.symm

/-- A namespace of which its path tells everything. -/
structure IsPlainNamespace (s : Symbol) : Prop where
  kind : s.kind = .nameSpace
  owner : s.owner = none
  name_undotted : '.' ∉ s.name.toList
  nameSpace_ne : s.nameSpace ≠ some ""

theorem ofNamespacePath_qualifiedName {s : Symbol} (h : s.IsPlainNamespace) :
    ofNamespacePath s.qualifiedName = s := by
  obtain ⟨name, parent?, owner, kind⟩ := s
  obtain ⟨rfl, rfl, hname, hparent⟩ := h
  cases parent? with
  | none => exact ofNamespacePath_of_notMem hname
  | some parent =>
    have hne : parent ≠ "" := fun hempty => hparent (congrArg some hempty)
    rw [qualifiedName_join rfl hne]
    exact ofNamespacePath_join parent hname

/-- Every path that is not rooted is the qualified name of a plain namespace. -/
theorem exists_isPlainNamespace (h : ¬ IsRooted path) :
    ∃ s : Symbol, s.IsPlainNamespace ∧ s.qualifiedName = path := by
  rcases path_cases path with hdot | ⟨parent, name, hname, rfl⟩
  · exact ⟨{ name := path, kind := .nameSpace }, ⟨rfl, rfl, hdot, nofun⟩, rfl⟩
  · have hne : parent ≠ "" := by
      rintro rfl
      exact h ⟨name, hname, rfl⟩
    refine ⟨{ name, nameSpace := some parent, kind := .nameSpace }, ⟨rfl, rfl, hname, ?_⟩,
      qualifiedName_join rfl hne⟩
    exact fun hempty => hne (Option.some.inj hempty)

theorem qualifiedName_rooted (h : '.' ∉ name.toList) :
    (ofNamespacePath ("." ++ name)).qualifiedName = name := by
  have hcut : ofNamespacePath ("." ++ name) = { name, nameSpace := some "", kind := .nameSpace } :=
    ofNamespacePath_join "" h
  rw [hcut, qualifiedName_of_empty rfl]

theorem qualifiedName_ofNamespacePath_iff :
    (ofNamespacePath path).qualifiedName = path ↔ ¬ IsRooted path := by
  constructor
  · rintro heq ⟨name, hname, rfl⟩
    rw [qualifiedName_rooted hname] at heq
    -- the path is longer than what is left of it
    have hlength : name.length = ("." ++ name).length := congrArg String.length heq
    simp at hlength
  · intro h
    obtain ⟨s, hs, rfl⟩ := exists_isPlainNamespace h
    rw [ofNamespacePath_qualifiedName hs]

theorem ofNamespacePath_qualifiedName_iff {s : Symbol} :
    ofNamespacePath s.qualifiedName = s ↔ s.IsPlainNamespace := by
  refine ⟨fun heq => ?_, ofNamespacePath_qualifiedName⟩
  -- the qualified name comes back as well, so it is not rooted
  have hback : (ofNamespacePath s.qualifiedName).qualifiedName = s.qualifiedName := by rw [heq]
  obtain ⟨t, ht, hname⟩ := exists_isPlainNamespace (qualifiedName_ofNamespacePath_iff.mp hback)
  have hst : s = t := by rw [← heq, ← hname, ofNamespacePath_qualifiedName ht]
  rwa [hst]

/-- A path comes back from its parts unless it is a dot and a name without dots, which loses the
dot. A symbol comes back from its qualified name if and only if it is a namespace that no type
declares, its name has no dots and its namespace, if it has one, is not empty. -/
theorem namespace_paths_rejoin :
    (∀ path, (ofNamespacePath path).qualifiedName = path ↔ ¬ IsRooted path) ∧
    (∀ name : String, '.' ∉ name.toList → (ofNamespacePath ("." ++ name)).qualifiedName = name) ∧
    ∀ s : Symbol, ofNamespacePath s.qualifiedName = s ↔ s.IsPlainNamespace := by
  refine ⟨?_, ?_, ?_⟩
  · intro path
    exact qualifiedName_ofNamespacePath_iff
  · intro name hname
    exact qualifiedName_rooted hname
  · intro s
    exact ofNamespacePath_qualifiedName_iff

/-- Doubled dots and dots at the ends are kept; only the dot of `.IO` is lost. -/
theorem namespace_paths_rejoin_dots :
    (ofNamespacePath "..IO").qualifiedName = "..IO" ∧
    (ofNamespacePath ".IO").qualifiedName = "IO" ∧
    ofNamespacePath "System..IO." =
      { name := "", nameSpace := some "System..IO", kind := .nameSpace } := by
  obtain ⟨hpath, hlost, hsymbol⟩ := namespace_paths_rejoin
  refine ⟨(hpath "..IO").mpr (by decide), hlost "IO" (by decide), ?_⟩
  exact (hsymbol { name := "", nameSpace := some "System..IO", kind := .nameSpace }).mpr
    ⟨rfl, rfl, by decide, by decide⟩

end Symbol

end UsagePolicy
