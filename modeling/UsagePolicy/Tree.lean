import UsagePolicy.Node
import UsagePolicy.Path
import UsagePolicy.SymbolTable

/-! Syntax tree documents: a file, its symbols and its root node. -/
namespace UsagePolicy

structure Tree where
  file : String
  symbols : SymbolTable := {}
  root : Node
  /-- Set by hosts that know the file to be generated. -/
  generated : Bool := false

namespace Tree

/-- The endings that code generators give to their files. -/
def generatedEndings : List String := [".g.cs", ".g.i.cs", ".designer.cs", ".generated.cs"]

/-- Whether the document says that it is generated, or the file's name does. -/
def isGenerated (t : Tree) : Bool :=
  t.generated ||
    let name := Text.lower ((Path.fileName? t.file).getD "")
    generatedEndings.any (Text.endsWith name)

end Tree

end UsagePolicy
