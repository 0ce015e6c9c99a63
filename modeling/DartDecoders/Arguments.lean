/-
The arguments of the command line.

Options may stand before and after the inputs and may be shortened as long as they stay unique;
a value stands behind an option, or joined to it; two dashes joined to an option leave it without
one. Options of one letter can be joined to each other while they take no value, and what is joined
to the last of them is its value, an equals sign included. Behind two dashes all arguments are
inputs. The inputs have to stand together: those that come after an option that follows inputs are
not taken. Each argument is first told apart as an option or a value, so an option that fits several
names is the first error to be found.
-/
import DartDecoders.Fault

set_option autoImplicit false

namespace DartDecoders

/-- What the arguments ask for. -/
structure Settings where
  /-- The files to generate from. -/
  inputs : List Chars := []
  /-- Where generated files go. -/
  outputDir : Option Chars := none
  /-- Whether generated code is printed instead of written. -/
  toStdout : Bool := false
  /-- Whether generated code is formatted. -/
  format : Bool := false
  /-- Whether every list item goes through its factory. -/
  noPrimitives : Bool := false
  /-- What the names of implementations start with, null when it is not given. -/
  implPrefix : Json := .null
  /-- The file with options. -/
  optionsFile : Option Chars := none
  /-- How often more records were asked for. -/
  verbosity : Nat := 0
  deriving Inhabited

/-- The options of the command line. -/
inductive Switch where
  | help
  | outputDir
  | toStdout
  | format
  | noPrimitives
  | implPrefix
  | optionsFile
  | verbose
  deriving DecidableEq, Repr

namespace Switch

/-- The spellings of an option. -/
def spellings : Switch → List String
  | .help => ["-h", "--help"]
  | .outputDir => ["-o", "--output-dir"]
  | .toStdout => ["--stdout"]
  | .format => ["--format"]
  | .noPrimitives => ["--no-primitives"]
  | .implPrefix => ["--impl-prefix"]
  | .optionsFile => ["--options-json"]
  | .verbose => ["-v", "--verbose"]

/-- All spellings with their options, in the order in which they are listed. -/
def all : List (Chars × Switch) :=
  [help, outputDir, toStdout, format, noPrimitives, implPrefix, optionsFile, verbose].flatMap
    fun switch => switch.spellings.map fun spelling => (spelling.toList, switch)

/-- The option of a spelling. -/
def ofSpelling? (spelling : Chars) : Option Switch :=
  (all.find? fun known => known.1 == spelling).map (·.2)

/-- Whether a value belongs to the option. -/
def takesValue : Switch → Bool
  | .outputDir | .implPrefix | .optionsFile => true
  | _ => false

/-- The name of an option in messages. -/
def shown (switch : Switch) : String :=
  "/".intercalate switch.spellings

end Switch

/-- What is wrong with the arguments. -/
inductive UsageError where
  /-- A shortened option that fits several names. -/
  | ambiguous (argument : Chars) (candidates : List Chars)
  /-- An option at the end of the values, without its own. -/
  | valueMissing (switch : Switch)
  /-- A value joined to an option that takes none. -/
  | valueIgnored (switch : Switch) (value : Chars)
  /-- No inputs at all. -/
  | inputsMissing
  /-- Arguments that belong to nothing. -/
  | unrecognized (arguments : List Chars)

/-- The wording of a usage error. -/
def UsageError.message : UsageError → String
  | .ambiguous argument candidates =>
    s!"ambiguous option: {argument.shown} could match "
      ++ Chars.shown ([',', ' '].intercalate candidates)
  | .valueMissing switch => s!"argument {switch.shown}: expected one argument"
  | .valueIgnored switch value =>
    s!"argument {switch.shown}: ignored explicit argument {(Text.quoted (.ofChars value)).shown}"
  | .inputsMissing => "the following arguments are required: inputs"
  | .unrecognized arguments =>
    "unrecognized arguments: " ++ Chars.shown ([' '].intercalate arguments)

/-- Why reading the arguments ends without settings. -/
inductive Stop where
  | usage (e : UsageError)
  | help

namespace Arguments

/-! ## Telling options from values -/

/-- An argument that is an option: the option with its spelling, and what is joined to it. -/
structure Use where
  switch : Switch
  spelling : Chars
  value : Option Chars

/-- What an argument is. -/
inductive Role where
  | value
  | option (use : Use)
  | unknown

/-- An argument cut at its first equals sign. -/
def cutEquals (argument : Chars) : Chars × Option Chars :=
  match argument.dropWhile (· != '=') with
  | _ :: value => (argument.takeWhile (· != '='), some value)
  | [] => (argument, none)

/-- Whether an argument looks like a negative number: figures, or a point with figures behind it.
A line break at its end does not count. -/
def looksNegative (argument : Chars) : Bool :=
  match argument with
  | '-' :: rest =>
    let body := if rest.getLast? == some '\n' then rest.dropLast else rest
    match body.dropWhile isDecimal with
    | [] => !body.isEmpty
    | '.' :: fraction => !fraction.isEmpty && fraction.all isDecimal
    | _ => false
  | _ => false

/-- The ways to read an argument as a shortened option, or as one of a letter with a value. -/
def readings (argument : Chars) : List Use :=
  match argument with
  | '-' :: '-' :: _ =>
    let (short, value) := cutEquals argument
    (Switch.all.filter fun known => short.isPrefixOf known.1).map fun (spelling, switch) =>
      { switch, spelling, value }
  | _ =>
    Switch.all.filterMap fun (spelling, switch) =>
      if spelling == argument.take 2 then
        some { switch, spelling, value := some (argument.drop 2) }
      else if argument.isPrefixOf spelling then
        some { switch, spelling, value := none }
      else none

/-- What an argument is that stands before any two dashes. -/
def roleOf (argument : Chars) : Except UsageError Role :=
  match argument with
  | '-' :: _ :: _ =>
    match Switch.ofSpelling? argument with
    | some switch => .ok (.option { switch, spelling := argument, value := none })
    | none =>
      let (spelling, value) := cutEquals argument
      match value, Switch.ofSpelling? spelling with
      | some value, some switch =>
        .ok (.option { switch, spelling, value := some value })
      | _, _ =>
        match readings argument with
        | [use] => .ok (.option use)
        | [] => .ok (if looksNegative argument || argument.contains ' ' then .value else .unknown)
        | several => .error (.ambiguous argument (several.map (·.spelling)))
  | _ => .ok .value

/-- The arguments with their roles; two dashes and all that follows them are values. -/
def rolesOf : List Chars → Except UsageError (List (Chars × Role))
  | [] => .ok []
  | argument :: rest =>
    if argument == ['-', '-'] then .ok ((argument :: rest).map fun value => (value, .value))
    else do
      let role ← roleOf argument
      let others ← rolesOf rest
      return (argument, role) :: others

/-! ## Reading in order -/

/-- What was read so far: the settings, whether inputs were, the values that nothing has taken
yet, and the arguments that belong to nothing. -/
structure Progress where
  settings : Settings := {}
  hasInputs : Bool := false
  pending : List Chars := []
  extras : List Chars := []

namespace Progress

/-- The values that nothing has taken yet become the inputs, unless there are inputs already or
they are nothing but the two dashes. The first two dashes are no input. -/
def settle (p : Progress) : Progress :=
  -- two dashes alone are no input, and they leave room for inputs that come later
  let values := p.pending.erase ['-', '-']
  if !p.hasInputs && !values.isEmpty then
    { p with
      settings := { p.settings with inputs := values }
      hasInputs := true
      pending := [] }
  else { p with extras := p.extras ++ p.pending, pending := [] }

/-- An option without a value. -/
def flag (p : Progress) (switch : Switch) : Except Stop Progress :=
  match switch with
  | .help => .error .help
  | .toStdout => .ok { p with settings := { p.settings with toStdout := true } }
  | .format => .ok { p with settings := { p.settings with format := true } }
  | .noPrimitives => .ok { p with settings := { p.settings with noPrimitives := true } }
  | .verbose =>
    .ok { p with settings := { p.settings with verbosity := p.settings.verbosity + 1 } }
  | _ => .ok p

/-- The value given for an option; two dashes are none. -/
def given? (value : Chars) : Option Chars :=
  if value == ['-', '-'] then none else some value

/-- An option with its value; the last one given counts. An option that two dashes are joined to is
given, so it sets the empty list where a missing value would change nothing. -/
def assign (p : Progress) (switch : Switch) (value : Chars) : Progress :=
  match switch with
  | .outputDir => { p with settings := { p.settings with outputDir := given? value } }
  | .implPrefix =>
    let text := (given? value).elim (.arr []) (.str ∘ .ofChars)
    { p with settings := { p.settings with implPrefix := text } }
  | .optionsFile => { p with settings := { p.settings with optionsFile := given? value } }
  | _ => p

end Progress

/-- What options joined in one argument come to at the end: nothing more, a value joined to the last
of them, or a value that has to come next. -/
inductive Tail where
  | nothing
  | assigned (switch : Switch) (value : Chars)
  | awaiting (switch : Switch)

/-- The options joined to one of a letter, from the text behind it: the options without a value, and
what the last one comes to. A text that is no value and starts with no option is in the way. -/
def joined (switch : Switch) : Chars → Except UsageError (List Switch × Tail)
  | [] =>
    if switch.takesValue then .ok ([], .assigned switch []) else .error (.valueIgnored switch [])
  | letter :: rest =>
    if switch.takesValue then .ok ([], .assigned switch (letter :: rest))
    else match Switch.ofSpelling? ['-', letter] with
      | none => .error (.valueIgnored switch (letter :: rest))
      | some next =>
        match rest with
        | [] =>
          if next.takesValue then .ok ([switch], .awaiting next) else .ok ([switch, next], .nothing)
        | rest => (joined next rest).map fun found => (switch :: found.1, found.2)

/-- The options that a use comes to. -/
def uses (use : Use) : Except UsageError (List Switch × Tail) :=
  match use.value with
  | none =>
    .ok (if use.switch.takesValue then ([], .awaiting use.switch) else ([use.switch], .nothing))
  | some value =>
    -- a long option takes the text joined to it whole, a letter may be followed by more letters
    if ['-', '-'].isPrefixOf use.spelling then
      if use.switch.takesValue then .ok ([], .assigned use.switch value)
      else .error (.valueIgnored use.switch value)
    else joined use.switch value

/-- The walk over the arguments in order. -/
def walk : Progress → List (Chars × Role) → Except Stop Progress
  | p, [] => .ok p.settle
  | p, (argument, .value) :: rest => walk { p with pending := p.pending ++ [argument] } rest
  | p, (argument, .unknown) :: rest =>
    let p := p.settle
    walk { p with extras := p.extras ++ [argument] } rest
  | p, (_, .option use) :: rest =>
    match uses use with
    | .error e => .error (.usage e)
    | .ok (flags, .awaiting switch) =>
      match rest with
      | (value, .value) :: rest =>
        if value == ['-', '-'] then .error (.usage (.valueMissing switch))
        else do
          let p ← flags.foldlM Progress.flag p.settle
          walk (p.assign switch value) rest
      | _ => .error (.usage (.valueMissing switch))
    | .ok (flags, .assigned switch value) => do
      let p ← flags.foldlM Progress.flag p.settle
      walk (p.assign switch value) rest
    | .ok (flags, .nothing) => do
      let p ← flags.foldlM Progress.flag p.settle
      walk p rest

/-- The settings that the arguments ask for. Missing inputs are reported before arguments that
belong to nothing. -/
def read (arguments : List Chars) : Except Stop Settings := do
  let roles ← (rolesOf arguments).mapError Stop.usage
  let p ← walk {} roles
  if !p.hasInputs then throw (.usage .inputsMissing)
  else if !p.extras.isEmpty then throw (.usage (.unrecognized p.extras))
  else return p.settings

/-- What the options are for. -/
def summary : Switch → String
  | .help => "show this text and end"
  | .outputDir => "directory for the generated files; next to each input by default"
  | .toStdout => "print generated code instead of writing files"
  | .format => "run the generated code through the formatter"
  | .noPrimitives => "decode every list item through its factory, primitives included"
  | .implPrefix => "what the names of generated classes start with"
  | .optionsFile => "JSON file with generator options"
  | .verbose => "more records: once for information, twice for all"

/-- The text that explains the arguments. -/
def helpText : String :=
  let options := [Switch.help, .outputDir, .toStdout, .format, .noPrimitives, .implPrefix,
    .optionsFile, .verbose]
  String.join <| "usage: [options] inputs...\n\n" :: options.map fun switch =>
    let names := ", ".intercalate switch.spellings
    let value := if switch.takesValue then " VALUE" else ""
    s!"  {names}{value}: {summary switch}\n"

end Arguments

end DartDecoders
