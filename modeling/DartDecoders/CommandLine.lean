/-
A run of the command line, from its arguments to its exit code.

The run reads its options, makes the output directory, and then takes its inputs one after the
other: what the declarations of an input give is printed, or written beside the input or into the
output directory. The first input that is missing or cannot be generated from ends the run; what
was written before stays. A run is a function of the files, of the machine that it runs on and of
the arguments, so all that it changes is in its result.
-/
import DartDecoders.Arguments
import DartDecoders.Formatter
import DartDecoders.Loading

set_option autoImplicit false

namespace DartDecoders

namespace CommandLine

/-- What the name of a generated file ends in. -/
def generatedSuffix : Chars := ".g.dart".toList

/-- Where the code for an input goes: into the output directory, or beside the input when none is
given. -/
def outputPath (input : Path) (outputDir : Option Chars) : Path :=
  let directory := match outputDir.filter fun dir => !dir.isEmpty with
    | some dir => Path.parse dir
    | none => input.parent
  directory.child (input.stem ++ generatedSuffix)

/-- The least level of the records that are shown. -/
def levelFor (verbosity : Nat) : Level :=
  match verbosity with
  | 0 => .warning
  | 1 => .info
  | _ => .debug

/-- What a run runs on, besides its files: the formatting program and the stack. -/
structure Machine where
  toolchain : Toolchain
  stack : Stack

/-- What a run has changed and reported so far. -/
structure Session where
  tree : FileTree
  stdout : Chars := []
  log : List LogRecord := []

namespace Session

/-- One more record. -/
def note (s : Session) (level : Level) (message : Text) : Session :=
  { s with log := s.log ++ [⟨level, message⟩] }

end Session

/-- How a run ends: with an exit code, or with a fault that nothing handles. -/
inductive Ending where
  | exit (code : Nat)
  | escaped (fault : Fault)

/-- A step of a run, with the ending when it is the last one. -/
abbrev Progress := Session × Option Ending

/-- The answer of a computation within a run, or how it ends the run. A reported error is recorded,
after the given words, and ends the run with the exit code for failure. -/
def settle {α : Type} (s : Session) (lead : Text) (computation : Report α) :
    Session × Except Ending α :=
  let s := { s with log := s.log ++ computation.log }
  match computation.result with
  | .ok a => (s, .ok a)
  | .error (.reported e) => (s.note .error (lead ++ e.message), .error (.exit 1))
  | .error fault => (s, .error (.escaped fault))

/-- The options of a run: those of the file when there is one, then those of the arguments. -/
def resolveOptions (settings : Settings) (machine : Machine) (tree : FileTree) :
    Report Options := do
  let base ← match settings.optionsFile.filter fun file => !file.isEmpty with
    | some file => Loading.options machine.stack tree file .standard
    | none => pure .standard
  Report.lift <| base.overlay
    [(.implPrefix, settings.implPrefix),
     (.primitiveHandling, if settings.noPrimitives then .bool false else .null)]

/-- Code formatted when that is asked for. -/
def formatted (settings : Settings) (machine : Machine) (code : Text) : Report Text := do
  if settings.format then
    let outcome ← Formatter.format machine.toolchain none code
    return outcome.code
  else return code

/-- Code printed, or written to the file for an input. Code with a surrogate can be neither, but its
file is opened before that shows, and so left empty. -/
def deliver (settings : Settings) (path : Path) (code : Text) (s : Session) : Progress :=
  if settings.toStdout then
    match code.chars? with
    | some cs => ({ s with stdout := s.stdout ++ cs }, none)
    | none => (s, some (.escaped .unencodable))
  else
    let target := outputPath path settings.outputDir
    match s.tree.write target (FileTree.contentOf code) with
    | .error cause => (s, some (.escaped (.system ⟨cause, target.toChars⟩)))
    | .ok tree =>
      match code.chars? with
      | some _ =>
        let message := Text.concat ["Wrote ", Text.ofChars target.toChars]
        (Session.note { s with tree } .info message, none)
      | none => ({ s with tree }, some (.escaped .unencodable))

/-- One input. An input without code is passed over. -/
def processInput (settings : Settings) (o : Options) (machine : Machine) (s : Session)
    (input : Chars) : Progress :=
  let path := Path.parse input
  let name := Text.ofChars path.toChars
  match s.tree.isThere path with
  | .error cause => (s, some (.escaped (.system ⟨cause, path.toChars⟩)))
  | .ok false =>
    (s.note .error (Text.concat ["Input file '", name, "' not found."]), some (.exit 1))
  | .ok true =>
    match settle s (Text.concat [name, ": "]) (Loading.library machine.stack s.tree path o) with
    | (s, .error ending) => (s, some ending)
    | (s, .ok []) =>
      let message :=
        Text.concat ["No @JsonToModel classes in ", name, ", nothing generated."]
      (s.note .info message, none)
    | (s, .ok code) =>
      match settle s [] (formatted settings machine code) with
      | (s, .error ending) => (s, some ending)
      | (s, .ok code) => deliver settings path code s

/-- The inputs in order, up to the first that ends the run. -/
def processInputs (settings : Settings) (o : Options) (machine : Machine) :
    Session → List Chars → Session × Ending
  | s, [] => (s.note .info "Generation complete.", .exit 0)
  | s, input :: rest =>
    match processInput settings o machine s input with
    | (s, some ending) => (s, ending)
    | (s, none) => processInputs settings o machine s rest

/-- The files after making the output directory of a run that writes into one. -/
def prepareOutput (settings : Settings) (machine : Machine) (tree : FileTree) :
    Except Fault FileTree :=
  match settings.outputDir.filter fun dir => !dir.isEmpty && !settings.toStdout with
  | some dir =>
    if Chars.hasNull dir then .error .nullInPath
    else tree.ensureDirectories machine.stack.holdsMissing (Path.parse dir)
  | none => .ok tree

/-- A run with its settings. -/
def runWith (settings : Settings) (tree : FileTree) (machine : Machine) : Session × Ending :=
  match settle { tree } [] (resolveOptions settings machine tree) with
  | (s, .error ending) => (s, ending)
  | (s, .ok o) =>
    match prepareOutput settings machine s.tree with
    | .error fault => (s, .escaped fault)
    | .ok tree => processInputs settings o machine { s with tree } settings.inputs

/-- What can be seen of a run: the files after it, what it printed, the records at the level that
was asked for, and how it ended. -/
structure Outcome where
  tree : FileTree
  stdout : Chars
  log : String
  ending : Ending

/-- A run with its arguments. Arguments that cannot be read give no run. -/
def run (arguments : List Chars) (tree : FileTree) (machine : Machine) :
    Except Stop Outcome := do
  let settings ← Arguments.read arguments
  let (s, ending) := runWith settings tree machine
  let log := (LogRecord.textFrom (levelFor settings.verbosity) s.log).shown
  return { tree := s.tree, stdout := s.stdout, log, ending }

end CommandLine

end DartDecoders
