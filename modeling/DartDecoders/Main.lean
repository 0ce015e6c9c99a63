/-
The program: the command line on the files of the machine.

A run is a function of the files, so the files that its arguments name are read first and what the
run has changed is written afterwards. No other program is started from here, so a formatter counts
as not found.
-/
import DartDecoders.CommandLine

set_option autoImplicit false

open DartDecoders

namespace DartDecoders.Program

/-- The text of a location on the machine. -/
def pathOf (location : Location) : String :=
  "/" ++ Chars.shown (['/'].intercalate location)

/-- What stands at a location of the machine. -/
def probe (location : Location) : IO (Option Entry) := do
  try
    let content ← IO.FS.readBinFile (pathOf location)
    return some (.file content)
  catch e =>
    match e with
    | .inappropriateType .. => return some .directory
    | .noFileOrDirectory .. => return none
    | e => throw e

/-- The tree with what stands at a location and on the way to it. -/
def survey (tree : FileTree) (location : Location) : IO FileTree := do
  let mut tree := tree
  for n in [0:location.length] do
    let place := location.take (n + 1)
    if (tree.lookup? place).isNone then
      match ← probe place with
      | some entry => tree := tree.put place entry
      | none => return tree
  return tree

/-- The tree with what stands at a path, name by name. -/
def surveyPath (tree : FileTree) (p : Path) : IO FileTree := do
  if Chars.hasNull p.toChars then return tree
  let mut tree := tree
  for n in [0:p.names.length + 1] do
    match { p with names := p.names.take n : Path } |> tree.locate with
    | .ok location => tree ← survey tree location
    | .error _ => return tree
  return tree

/-- The files that a run with the settings may look at. -/
def snapshot (settings : Settings) : IO FileTree := do
  let home := (Path.parse (toString (← IO.currentDir)).toList).names
  let inputs := settings.inputs.map Path.parse
  let outputs := inputs.map fun input => CommandLine.outputPath input settings.outputDir
  let others := (settings.outputDir.toList ++ settings.optionsFile.toList).map Path.parse
  (inputs ++ others ++ outputs).foldlM surveyPath (FileTree.empty home)

/-- Everything that a run has changed. -/
def commit (old tree : FileTree) : IO Unit := do
  for (location, entry) in tree.changes old do
    match entry with
    | .directory => IO.FS.createDirAll (pathOf location)
    | .file content => IO.FS.writeBinFile (pathOf location) content

/-- A machine without a formatter. -/
def toolchain : Toolchain where
  found := none
  run := fun _ _ => .notStarted "no program can be started".toList

/-- This machine. Its own stack is what counts here, so no bound is set to it. -/
def machine : CommandLine.Machine :=
  ⟨toolchain, .unbounded⟩

/-- A run with its arguments, and its exit code. -/
def run (arguments : List Chars) : IO UInt32 := do
  match Arguments.read arguments with
  | .error .help =>
    IO.print Arguments.helpText
    return 0
  | .error (.usage e) =>
    IO.eprintln s!"error: {e.message}"
    return 2
  | .ok settings =>
    let tree ← snapshot settings
    let (session, ending) := CommandLine.runWith settings tree machine
    commit tree session.tree
    IO.print session.stdout.shown
    IO.eprint (LogRecord.textFrom (CommandLine.levelFor settings.verbosity) session.log).shown
    match ending with
    | .exit code => return UInt32.ofNat code
    | .escaped fault =>
      IO.eprintln s!"error: {fault.message.shown}"
      return 1

end DartDecoders.Program

/-- The entry of the program. -/
def main (arguments : List String) : IO UInt32 :=
  DartDecoders.Program.run (arguments.map String.toList)
