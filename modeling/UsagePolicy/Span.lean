/-! Places in a source file. -/
namespace UsagePolicy

/-- A stretch of source: lines and columns count from one, offset and length count bytes. -/
structure Span where
  line : UInt64 := 0
  column : UInt64 := 0
  offset : UInt64 := 0
  length : UInt64 := 0
deriving DecidableEq

/-- The span that only knows where it starts. -/
def Span.start (line column : UInt64) : Span := { line, column }

end UsagePolicy
