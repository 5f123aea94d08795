/-! The lines of a file. They end in a line feed, with or without a carriage return before it; the
last line may lack its end. -/
namespace UsagePolicy.Lines

def lineFeed : UInt8 := 10

def carriageReturn : UInt8 := 13

/-- The pieces between line feeds; there is always at least one. -/
def pieces : List UInt8 → List (List UInt8)
  | [] => [[]]
  | b :: bs =>
    if b = lineFeed then [] :: pieces bs
    else match pieces bs with
      | [] => [[b]]
      | line :: lines => (b :: line) :: lines

/-- Drops the carriage returns that belong to line ends. The last piece has no line feed behind it,
and is no line if it is empty. -/
def trimmed : List (List UInt8) → List (List UInt8)
  | [] => []
  | [last] => if last.isEmpty then [] else [last]
  | line :: lines =>
    (if [carriageReturn].isSuffixOf line then line.dropLast else line) :: trimmed lines

/-- The lines of a file, without their ends. -/
def ofContent (content : ByteArray) : List (List UInt8) := trimmed (pieces content.toList)

/-- The text of a line. -/
def text? (line : List UInt8) : Option String := String.fromUTF8? ⟨line.toArray⟩

/-- The texts of lines up to the first that is none. -/
def texts : List (List UInt8) → List String
  | [] => []
  | line :: lines =>
    match text? line with
    | some text => text :: texts lines
    | none => []

end UsagePolicy.Lines
