import StackMachine.CommandLine

/-!
# The program

The command line on the files, the environment and the streams of the process.
-/

namespace StackMachine.Main

/-- How many instructions a program may take, more than any machine gets to. -/
def fuel : Nat := 0x4000000000000000

/-- What is on disk at a place. -/
def entry? (place : Place) : IO (Option Entry) := do
  try
    let contents ← IO.FS.readBinFile (Files.pathOf place)
    return some (.file contents.toList)
  catch
    | .inappropriateType .. => return some .directory
    | _ => return none

/-- The files with everything on disk that decides what a path leads to. -/
def look (files : Files) (path : String) : IO Files :=
  (files.places path).foldlM (fun files place => do
    match ← entry? place with
    | some entry => return files.put place entry
    | none => return files) files

/-- The current directory. -/
def home : IO Place := do
  return (Files.parts (← IO.currentDir).toString).filter (· ≠ "")

/-- What the process says about colours. -/
def environment : IO Environment := do
  let value (name : String) : IO String := return (← IO.getEnv name).getD ""
  return {
    noColor := ← value "NO_COLOR"
    forceColor := ← value "CLICOLOR_FORCE"
    terminal := ← (← IO.getStdout).isTty }

/-- A fresh random identifier of 32 hexadecimal digits in five groups. -/
def freshId : IO String := do
  let group (width : Nat) : IO String := do
    return String.ofList (Text.Hex.lower width (← IO.rand 0 (1 <<< (4 * width) - 1)))
  let version := "4" ++ (← group 3)
  let variant := String.ofList (Text.Hex.lower 4 (← IO.rand 0x8000 0xbfff))
  return "-".intercalate [← group 8, ← group 4, version, variant, ← group 12]

/-- Carries out the command of the process. -/
def run (arguments : List String) : IO UInt32 := do
  let files ← (CommandLine.paths arguments).foldlM look { home := ← home }
  let reply := CommandLine.run fuel
    { files
      environment := ← environment
      id := ← freshId
      caller := CommandLine.command }
    arguments
  (← IO.getStdout).putStr reply.out
  (← IO.getStderr).putStr reply.err
  for (place, contents) in reply.files.changes files do
    IO.FS.writeBinFile (Files.pathOf place) ⟨contents.toArray⟩
  return reply.code

end StackMachine.Main

/-- The command line of the process. -/
def main (arguments : List String) : IO UInt32 :=
  StackMachine.Main.run arguments
