/-
Parameters in a source text.

A parameter is a type, which may be missing, and a name at its end; modifiers may stand in front
and a default value behind an equals sign or a colon. A parameter list is cut at its commas, and
one in square brackets or braces at its end holds the parameters of the other two groups.
-/
import DartDecoders.Signature
import DartDecoders.Source.Marker

set_option autoImplicit false

namespace DartDecoders

namespace Source

/-- The type of what is declared without one. -/
def untyped : Text := "dynamic".toText

/-- A type as declared, or the one that stands for none. -/
def typeOr (t : Text) : Text :=
  if t.isEmpty then untyped else t

/-- The words that may stand before a parameter's type. -/
def parameterModifiers : List Text :=
  ["required", "covariant", "final", "var", "const"].map String.toText

/-- A parameter and its default value, cut at the first separator in no brackets; the default
keeps the separators that follow. -/
def cutDefault? (separator : CodePoint) (t : Text) : Option (Text × Text) :=
  match splitTopLevel [separator] t with
  | declared :: value :: values =>
    some (declared, Text.trim (Text.join [separator] (value :: values)))
  | _ => none

/-- A parameter without its default value, and that value. -/
def cutDefaults (t : Text) : Text × Json :=
  match cutDefault? '=' t with
  | some (declared, value) => (declared, .str value)
  | none =>
    match cutDefault? ':' t with
    | some (declared, value) => (declared, .str value)
    | none => (t, .null)

/-- One parameter of a group. -/
def parseParameter (kind : ParameterKind) (t : Text) : Except Fault Parameter := do
  let t ← withoutMarkers t
  let (declared, default) := cutDefaults t
  let words := Text.words declared
  let declared := Text.join [' '] (words.dropWhile parameterModifiers.contains)
  match Text.splitLastWord? declared with
  | none => .error (.reported (.namelessParameter declared))
  | some (type, name) =>
    return {
      typeText := .str (typeOr (Text.trim type))
      name := .str name
      kind
      required := words.contains "required".toText
      default }

/-- One part of a parameter list: a plain parameter, or the parameters inside the brackets of
another group. The first character tells which, so there has to be one. -/
def parsePart (part : Text) : Except Fault (List Parameter) :=
  let group (kind : ParameterKind) : Except Fault (List Parameter) := do
    let (inside, _) ← splitGroup 0 part
    (splitTopLevel [','] inside).mapM (parseParameter kind)
  match part with
  | '[' :: _ => group .optional
  | '\x7b' :: _ => group .named
  | [] => .error .outOfRange
  | _ => (parseParameter .positional part).map fun p => [p]

/-- The parameters of a parameter list, from the text between its parentheses. -/
def parseParameters (t : Text) : Except Fault (List Parameter) :=
  ((splitTopLevel [','] t).mapM parsePart).map List.flatten

end Source

end DartDecoders
