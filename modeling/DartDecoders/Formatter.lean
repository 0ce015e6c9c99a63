/-
Formatting generated code with an external program.

The program is looked for unless its path is given. Code that cannot be formatted stays as it is,
with a warning that says why: there is no program, it does not start, it takes too long, or it
rejects the code.
-/
import DartDecoders.Report

set_option autoImplicit false

namespace DartDecoders

/-- How a run of the formatting program ends. -/
inductive FormatterRun where
  /-- The program ends with a code and leaves two texts. -/
  | ended (code : Int) (output errors : Chars)
  /-- The program does not start, for the given reason. -/
  | notStarted (reason : Chars)
  /-- The program does not end in time. -/
  | timedOut

/-- The formatting program of a machine: where it is found, and how a run of a command ends. -/
structure Toolchain where
  found : Option Chars
  run : List Chars → Chars → FormatterRun

namespace Formatter

/-- The seconds that a run may take. -/
def timeLimit : Nat := 60

/-- The command that formats what it reads and prints the result. -/
def command (executable : Chars) : List Chars :=
  executable :: ["format", "--output=show", "--summary=none"].map String.toList

/-- A run of the program: the command and what it was given to read. -/
structure Call where
  command : List Chars
  input : Chars

/-- The code after formatting, and the call that was made for it. -/
structure Outcome where
  code : Text
  call : Option Call

/-- The warning for a run that did not format anything. -/
def complaint (command : List Chars) : FormatterRun → Option Text
  | .ended code _ errors =>
    if code == 0 then none
    else some <| Text.concat ["dart format exited with ", Text.ofInt code,
      ", leaving generated code unformatted.\n--- dart format stderr ---:\n", Text.ofChars errors]
  | .notStarted reason =>
    some <| Text.concat ["dart format failed to run: ", Text.ofChars reason,
      ". Leaving generated code unformatted."]
  | .timedOut =>
    let words := Json.arr (command.map fun word => .str (.ofChars word))
    some <| Text.concat ["dart format failed to run: Command '", words.literal,
      "' timed out after ", Text.ofNat timeLimit,
      " seconds. Leaving generated code unformatted."]

/-- What the program is given in the place of a surrogate, which it cannot be given. -/
def replacement : Char := '?'

/-- The code formatted by the given program, or by the one that is found. An empty path counts as
none. -/
def format (toolchain : Toolchain) (executable : Option Chars) (code : Text) : Report Outcome := do
  let given := executable.filter fun path => !path.isEmpty
  match given.or (toolchain.found.filter fun path => !path.isEmpty) with
  | none =>
    Report.note .warning "'dart' not found in PATH, leaving generated code unformatted."
    return { code, call := none }
  | some path =>
    let call : Call := { command := command path, input := code.charsWith replacement }
    let run := toolchain.run call.command call.input
    match complaint call.command run, run with
    | some warning, _ =>
      Report.note .warning warning
      return { code, call := some call }
    | none, .ended _ output _ => return { code := .ofChars output, call := some call }
    | none, _ => return { code, call := some call }

end Formatter

end DartDecoders
