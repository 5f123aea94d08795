import UsagePolicy.Site
import UsagePolicy.SymbolModel

/-! The descent from a used symbol into its type arguments. Each symbol met on the way is an
occurrence, to be judged on its own. Three guards end the descent: a symbol that is its own ancestor
is left out, so is one that lies deeper than the bound, and the arguments of a generic symbol are
followed once only. Which rules there are plays no part. -/
namespace UsagePolicy

/-- A symbol met on a descent, and as what it is used. -/
structure Occurrence where
  used : SymbolId
  kind : UsageKind
deriving DecidableEq

namespace Descent

open SymbolModel

/-- Takes a step for each entry of a list, handing a state along, and gathers what the steps
find. -/
def gather {σ α β : Type} (step : σ → α → List β × σ) : σ → List α → List β × σ
  | s, [] => ([], s)
  | s, a :: as =>
    let (found, s) := step s a
    let (rest, s) := gather step s as
    (found ++ rest, s)

variable {M : Type} [SymbolModel M]

/-- The occurrences at and below a symbol, in depth-first order, with the symbols whose arguments
have been followed so far. `room` is how many more symbols the path may take: the descent ends
where it is zero. -/
def run (m : M) :
    (room : Nat) → (path expanded : List SymbolId) → UsageKind → SymbolId →
      List Occurrence × List SymbolId
  | 0, _, expanded, _, _ => ([], expanded)
  | room + 1, path, expanded, kind, used =>
    if used ∈ path then ([], expanded)
    else match symbol? m used with
      | none => ([], expanded)
      | some symbol =>
        if symbol.typeArgs = [] ∨ used ∈ expanded then ([⟨used, kind⟩], expanded)
        else
          let (below, expanded) :=
            gather (fun expanded arg => run m room (used :: path) expanded .typeArgument arg)
              (used :: expanded) symbol.typeArgs
          (⟨used, kind⟩ :: below, expanded)

/-- The occurrences below and including a used symbol, at most `maxDepth` arguments down. -/
def occurrences (m : M) (maxDepth : Nat) (kind : UsageKind) (used : SymbolId) :
    List Occurrence :=
  (run m (maxDepth + 1) [] [] kind used).1

/-- The descent that follows the arguments of a symbol wherever it is met. -/
def plain (m : M) :
    (room : Nat) → (path : List SymbolId) → UsageKind → SymbolId → List Occurrence
  | 0, _, _, _ => []
  | room + 1, path, kind, used =>
    if used ∈ path then []
    else match symbol? m used with
      | none => []
      | some symbol =>
        ⟨used, kind⟩ :: symbol.typeArgs.flatMap fun arg => plain m room (used :: path) .typeArgument arg

end Descent

end UsagePolicy
