/-
Reading type expressions.

The grammar is an identifier, optionally followed by a list of types in angle brackets and by a
question mark, with white space allowed before every part and after the whole. An identifier is
the longest run of alphanumeric characters, underscores, dollar signs and dots; it must not start
with a figure or a dot nor end with a dot. Reading works on the rest of the text; a failure keeps
the rest at which it showed, so its offset follows. Every nested type starts behind a bracket or a
comma, so the length of the text bounds the recursion.
-/
import DartDecoders.TypeExpr.Basic
import DartDecoders.Text.Quoted

set_option autoImplicit false

namespace DartDecoders

namespace TypeExpr

/-! ## Errors -/

/-- Why a text is no type expression. -/
inductive Flaw where
  /-- An identifier should stand here. -/
  | identifierExpected
  /-- The closing angle bracket should stand here. -/
  | closingExpected
  /-- A type ends before the text does. -/
  | trailingText
  deriving DecidableEq, Repr

/-- A flaw with what was left of the text where it showed. -/
structure FlawAt where
  flaw : Flaw
  rest : Text
  deriving DecidableEq

/-- A text that is no type expression: the flaw, its offset and the text. -/
structure ParseError where
  flaw : Flaw
  offset : Nat
  text : Text
  deriving DecidableEq

/-- The wording of a flaw. -/
def Flaw.message : Flaw → String
  | .identifierExpected => "expected identifier"
  | .closingExpected => "expected '>'"
  | .trailingText => "trailing text"

/-- The wording of an error. -/
def ParseError.message (e : ParseError) : Text :=
  Text.concat [e.flaw.message, " at ", Text.ofNat e.offset, " in ", Text.quoted e.text]

/-! ## Parts -/

/-- The characters of identifiers. -/
def isNameChar (c : CodePoint) : Bool :=
  isAlphanumeric c || c == '_' || c == '$' || c == '.'

/-- The identifiers among the runs of name characters. -/
def isName (name : Text) : Bool :=
  match name with
  | [] => false
  | first :: _ => !isFigure first && first != '.' && name.getLast? != some (.ofChar '.')

/-- The identifier at the start of a text, with the text after it. -/
def readName (t : Text) : Except FlawAt (Text × Text) :=
  let t := Text.trimStart t
  let name := t.takeWhile isNameChar
  if isName name then .ok (name, t.dropWhile isNameChar) else .error ⟨.identifierExpected, t⟩

/-- Whether a nullability mark follows, with the text after it. -/
def readMark (t : Text) : Bool × Text :=
  match Text.trimStart t with
  | '?' :: rest => (true, rest)
  | _ => (false, t)

/-- What was read between two rests of one text. -/
def between (start stop : Text) : Text :=
  start.take (start.length - stop.length)

/-! ## Types -/

mutual

/-- A type at the start of a text, with the text after it. -/
def readType : Nat → Text → Except FlawAt (TypeExpr × Text)
  -- `readWhole` gives more fuel than a text can use up
  | 0, t => .error ⟨.identifierExpected, t⟩
  | fuel + 1, t => do
    let (name, rest) ← readName t
    match Text.trimStart rest with
    | '<' :: inside =>
      let (args, rest) ← readArgs fuel inside
      match rest with
      | '>' :: after =>
        let (nullable, after) := readMark after
        return (.node name args nullable (some (Text.trim (between inside rest))), after)
      | _ => .error ⟨.closingExpected, rest⟩
    | _ =>
      let (nullable, rest) := readMark rest
      return (.node name [] nullable none, rest)

/-- The types between angle brackets, with the text from behind the white space after them. -/
def readArgs : Nat → Text → Except FlawAt (List TypeExpr × Text)
  | 0, t => .error ⟨.identifierExpected, t⟩
  | fuel + 1, t => do
    let (arg, rest) ← readType fuel t
    match Text.trimStart rest with
    | ',' :: rest =>
      let (others, rest) ← readArgs fuel rest
      return (arg :: others, rest)
    | rest => return ([arg], rest)

end

/-- The type that the whole text spells. -/
def readWhole (t : Text) : Except FlawAt TypeExpr := do
  let (e, rest) ← readType (2 * t.length + 1) t
  match Text.trimStart rest with
  | [] => return e
  | rest => .error ⟨.trailingText, rest⟩

/-- The type that a text spells, or where and why it spells none. -/
def parse (t : Text) : Except ParseError TypeExpr :=
  (readWhole t).mapError fun e => ⟨e.flaw, t.length - e.rest.length, t⟩

/-- The type that a text spells, if it spells one. A run reads types with what its stack holds, by
`Stack.parseType?`. -/
def parse? (t : Text) : Option TypeExpr :=
  (parse t).toOption

end TypeExpr

end DartDecoders
