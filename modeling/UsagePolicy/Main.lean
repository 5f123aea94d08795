import UsagePolicy.Cli.Run

/-! The program. Configurations are read from where they are looked for; the documents and ignore
files of a check are named on standard input, a path a line. -/
namespace UsagePolicy.Cli

/-- The content of a file that can be read. -/
def readIfThere (path : String) : IO (Option ByteArray) := do
  try
    return some (← IO.FS.readBinFile path)
  catch _ =>
    return none

/-- The lines of standard input. -/
def inputLines : IO (List String) := do
  let input ← IO.getStdin
  let mut lines := #[]
  repeat
    let line ← input.getLine
    if line.isEmpty then break
    lines := lines.push (String.ofList (Text.trimEnd line.toList))
  return lines.toList

/-- Adds a file of the machine, if it is there. -/
def load (cwd : List String) (disk : FileTree) (path : String) : IO FileTree := do
  match ← readIfThere path with
  | some content => return disk.write content (Path.place cwd path)
  | none => return disk

/-- Runs the program on the files of the machine. -/
def runHere (words : List String) : IO UInt32 := do
  let cwd := Path.components ((← IO.getEnv "PWD").getD "/")
  let e : Environment := {
    disk := FileTree.empty.makeDirectory cwd
    cwd
    home := ← IO.getEnv "HOME"
    configDir := ← IO.getEnv "USAGE_GUARD_CONFIG_DIR" }
  let (configs, wantsDocuments) := lookups e words
  let documents ← if wantsDocuments then inputLines else pure []
  let disk ← (configs ++ documents).foldlM (load cwd) e.disk
  let userFile := e.home.map (Ignore.userFile (disk.read? cwd))
  let disk ← userFile.toList.foldlM (load cwd) disk
  let outcome := run { e with disk } words
  IO.print outcome.output
  if outcome.exit = 2 then IO.eprint help
  for (name, text) in outcome.written do
    IO.FS.writeFile name text
  match outcome.failure with
  | some message => IO.eprintln ("Error: " ++ message)
  | none => pure ()
  return outcome.exit.toUInt32

end UsagePolicy.Cli

def main (words : List String) : IO UInt32 := UsagePolicy.Cli.runHere words
