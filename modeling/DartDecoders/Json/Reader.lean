/-
Reading a JSON document.

The reader accepts the standard grammar, and besides it the three words for infinities and for no
number; whole numbers have a bound on their figures. How many arrays and objects may stand in each
other is given to the reader, since that depends on the stack it runs on. A failure is a cause and
the part of the document that was left when it showed, from which its position follows. The
recursion counts down the length of the document: one step for every value and one for every item or
entry, so two for a character.
-/
import DartDecoders.Json.Basic

set_option autoImplicit false

namespace DartDecoders

namespace Json

/-- Why a text is no JSON document. -/
inductive Flaw where
  | byteOrderMark
  | valueExpected
  | keyExpected
  | colonExpected
  | commaExpected
  | extraData
  | unterminatedString
  | controlCharacter
  | unknownEscape
  | badUnicodeEscape
  | numberTooLong (figures : Nat)
  | nestedTooDeep
  deriving DecidableEq, Repr

/-- The figures that a whole number may have. -/
def wholeLimit : Nat := 4300

/-- The wording for a whole number with more figures than it may have. -/
def tooLongMessage (figures : Nat) : String :=
  s!"Exceeds the limit ({wholeLimit} digits) for integer string conversion: "
    ++ s!"value has {figures} digits; use sys.set_int_max_str_digits() to increase the limit"

/-- The wording of a flaw. -/
def Flaw.message : Flaw → String
  | .byteOrderMark => "Unexpected UTF-8 BOM (decode using utf-8-sig)"
  | .valueExpected => "Expecting value"
  | .keyExpected => "Expecting property name enclosed in double quotes"
  | .colonExpected => "Expecting ':' delimiter"
  | .commaExpected => "Expecting ',' delimiter"
  | .extraData => "Extra data"
  | .unterminatedString => "Unterminated string starting at"
  | .controlCharacter => "Invalid control character at"
  | .unknownEscape => "Invalid \\escape"
  | .badUnicodeEscape => "Invalid \\uXXXX escape"
  | .numberTooLong figures => tooLongMessage figures
  | .nestedTooDeep => "Arrays and objects nested too deep"

/-- A flaw with what was left of the document where it showed. -/
structure FlawAt where
  flaw : Flaw
  rest : Text

/-! ## White space, words and numbers -/

/-- White space between the parts of a document. -/
def isSpace (c : CodePoint) : Bool :=
  c == ' ' || c == '\t' || c == '\n' || c == '\r'

/-- The text after the white space at its start. -/
def skipSpace (t : Text) : Text :=
  t.dropWhile isSpace

/-- The natural number that decimal figures spell. -/
def naturalOf (figures : Text) : Nat :=
  figures.foldl (fun n c => 10 * n + (c.toNat - '0'.toNat)) 0

/-- The whole part of a number: a zero alone, or figures that start with another one. -/
def wholeFigures? : Text → Option (Text × Text)
  | '0' :: rest => some (['0'], rest)
  | c :: rest =>
    if c.isDigit then
      some ((c :: rest).takeWhile CodePoint.isDigit, rest.dropWhile CodePoint.isDigit)
    else none
  | [] => none

/-- The figures behind a decimal point, empty when there is no point with a figure behind it. -/
def fractionFigures : Text → Text × Text
  | '.' :: rest =>
    match rest.takeWhile CodePoint.isDigit with
    | [] => ([], '.' :: rest)
    | figures => (figures, rest.dropWhile CodePoint.isDigit)
  | t => ([], t)

/-- The exponent of a number, when a mark, an optional sign and a figure are there. -/
def exponent? : Text → Option (Int × Text)
  | mark :: rest =>
    if mark == 'e' || mark == 'E' then
      let (negative, rest) : Bool × Text := match rest with
        | '-' :: rest => (true, rest)
        | '+' :: rest => (false, rest)
        | rest => (false, rest)
      match rest.takeWhile CodePoint.isDigit with
      | [] => none
      | figures =>
        let size : Int := naturalOf figures
        some (if negative then -size else size, rest.dropWhile CodePoint.isDigit)
    else none
  | [] => none

/-- A number at the start of a text. -/
def number (t : Text) : Except FlawAt (Json × Text) :=
  let (negative, body) : Bool × Text := match t with
    | '-' :: rest => (true, rest)
    | t => (false, t)
  match wholeFigures? body with
  | none => .error ⟨.valueExpected, t⟩
  | some (whole, rest) =>
    let (fraction, rest) := fractionFigures rest
    let digits := naturalOf (whole ++ fraction)
    match exponent? rest with
    | some (power, rest) =>
      .ok (.float (.ofDecimal negative digits (power - fraction.length)), rest)
    | none =>
      if !fraction.isEmpty then
        .ok (.float (.ofDecimal negative digits (-(fraction.length : Int))), rest)
      else if wholeLimit < whole.length then .error ⟨.numberTooLong whole.length, t⟩
      else .ok (.int (if negative then -(digits : Int) else digits), rest)

/-- The words that stand for a value. -/
def words : List (Text × Json) :=
  [("null".toText, .null), ("true".toText, .bool true), ("false".toText, .bool false),
   ("NaN".toText, .float .nan), ("Infinity".toText, .float (.infinite false)),
   ("-Infinity".toText, .float (.infinite true))]

/-- A word or a number at the start of a text. -/
def scalar (t : Text) : Except FlawAt (Json × Text) :=
  match words.findSome? fun word => (Text.dropStart? word.1 t).map fun rest => (word.2, rest) with
  | some found => .ok found
  | none => number t

/-! ## Strings -/

/-- The figure that a hexadecimal character spells. -/
def hexFigure? (c : CodePoint) : Option Nat :=
  if c.isDigit then some (c.toNat - '0'.toNat)
  else if 'a'.toNat ≤ c.toNat && c.toNat ≤ 'f'.toNat then some (c.toNat - 'a'.toNat + 10)
  else if 'A'.toNat ≤ c.toNat && c.toNat ≤ 'F'.toNat then some (c.toNat - 'A'.toNat + 10)
  else none

/-- The number that four hexadecimal characters spell, when they and one more character are
there. -/
def hexUnit? : Text → Option (Nat × Text)
  | a :: b :: c :: d :: e :: rest => do
    let a ← hexFigure? a
    let b ← hexFigure? b
    let c ← hexFigure? c
    let d ← hexFigure? d
    return (a * 0x1000 + b * 0x100 + c * 0x10 + d, e :: rest)
  | _ => none

/-- The code point of an escape by code units, from behind its letter: one unit, which may be a lone
surrogate, or two that form a surrogate pair. -/
def unicodeEscape (t : Text) : Except FlawAt (CodePoint × Text) :=
  match hexUnit? t with
  | none => .error ⟨.badUnicodeEscape, 'u' :: t⟩
  | some (high, rest) =>
    let alone : Except FlawAt (CodePoint × Text) := .ok (.ofNat high, rest)
    if 0xd800 ≤ high && high < 0xdc00 then
      match rest with
      | '\\' :: 'u' :: after =>
        -- a text that ends within the second escape leaves the first one alone
        if after.length ≤ 4 then alone
        else match hexUnit? after with
          | none => .error ⟨.badUnicodeEscape, 'u' :: after⟩
          | some (low, beyond) =>
            if 0xdc00 ≤ low && low < 0xe000 then
              .ok (.ofNat (0x10000 + (high - 0xd800) * 0x400 + (low - 0xdc00)), beyond)
            else alone
      | _ => alone
    else alone

/-- The character of an escape by one letter. -/
def letterEscape? : CodePoint → Option CodePoint
  | '"' => some '"'
  | '\\' => some '\\'
  | '/' => some '/'
  | 'b' => some '\x08'
  | 'f' => some '\x0c'
  | 'n' => some '\n'
  | 'r' => some '\r'
  | 't' => some '\t'
  | _ => none

/-- The rest of a string from behind its opening quote; `opened` is the text from that quote on,
and the fuel bounds the number of characters. -/
def stringBody (opened : Text) : Nat → Text → Except FlawAt (Text × Text)
  | 0, _ => .error ⟨.unterminatedString, opened⟩
  | _, [] => .error ⟨.unterminatedString, opened⟩
  | _, ['\\'] => .error ⟨.unterminatedString, opened⟩
  | fuel + 1, '\\' :: 'u' :: t => do
    let (c, rest) ← unicodeEscape t
    let (body, rest) ← stringBody opened fuel rest
    return (c :: body, rest)
  | fuel + 1, '\\' :: letter :: t =>
    match letterEscape? letter with
    | none => .error ⟨.unknownEscape, '\\' :: letter :: t⟩
    | some c => do
      let (body, rest) ← stringBody opened fuel t
      return (c :: body, rest)
  | fuel + 1, c :: t =>
    if c == '"' then .ok ([], t)
    else if c.toNat < 0x20 then .error ⟨.controlCharacter, c :: t⟩
    else do
      let (body, rest) ← stringBody opened fuel t
      return (c :: body, rest)

/-- A string from behind its opening quote. -/
def string (t : Text) : Except FlawAt (Text × Text) :=
  stringBody ('"' :: t) (t.length + 1) t

/-! ## Values -/

mutual

/-- A value at the start of a text that stands in `level` arrays and objects; `holds` says how many
there may be. -/
def value (holds : Nat → Bool) : Nat → Nat → Text → Except FlawAt (Json × Text)
  | 0, _, t => .error ⟨.valueExpected, t⟩
  | fuel + 1, level, t =>
    match t with
    | '"' :: rest => do
      let (body, rest) ← string rest
      return (.str body, rest)
    | '[' :: rest =>
      if !holds (level + 1) then .error ⟨.nestedTooDeep, t⟩
      else match skipSpace rest with
        | ']' :: rest => .ok (.arr [], rest)
        | rest => do
          let (items, rest) ← items holds fuel (level + 1) rest
          return (.arr items, rest)
    | '\x7b' :: rest =>
      if !holds (level + 1) then .error ⟨.nestedTooDeep, t⟩
      else match skipSpace rest with
        | '\x7d' :: rest => .ok (.obj [], rest)
        | rest => do
          let (entries, rest) ← entries holds fuel (level + 1) [] rest
          return (.obj entries, rest)
    | t => scalar t

/-- The items of an array up to its closing bracket. -/
def items (holds : Nat → Bool) : Nat → Nat → Text → Except FlawAt (List Json × Text)
  | 0, _, t => .error ⟨.valueExpected, t⟩
  | fuel + 1, level, t => do
    let (item, rest) ← value holds fuel level t
    match skipSpace rest with
    | ']' :: rest => return ([item], rest)
    | ',' :: rest =>
      let (others, rest) ← items holds fuel level (skipSpace rest)
      return (item :: others, rest)
    | rest => .error ⟨.commaExpected, rest⟩

/-- The entries of an object up to its closing brace, written after those already read. -/
def entries (holds : Nat → Bool) :
    Nat → Nat → List (Text × Json) → Text → Except FlawAt (List (Text × Json) × Text)
  | 0, _, _, t => .error ⟨.keyExpected, t⟩
  | fuel + 1, level, known, t =>
    match t with
    | '"' :: rest => do
      let (key, rest) ← string rest
      match skipSpace rest with
      | ':' :: rest =>
        let (item, rest) ← value holds fuel level (skipSpace rest)
        let known := insert key item known
        match skipSpace rest with
        | '\x7d' :: rest => return (known, rest)
        | ',' :: rest => entries holds fuel level known (skipSpace rest)
        | rest => .error ⟨.commaExpected, rest⟩
      | rest => .error ⟨.colonExpected, rest⟩
    | t => .error ⟨.keyExpected, t⟩

end

/-- A whole document: one value with nothing but white space around it. -/
def document (holds : Nat → Bool) (t : Text) : Except FlawAt Json :=
  match t with
  | '\ufeff' :: _ => .error ⟨.byteOrderMark, t⟩
  | t => do
    let (found, rest) ← value holds (2 * t.length + 2) 0 (skipSpace t)
    match skipSpace rest with
    | [] => return found
    | rest => .error ⟨.extraData, rest⟩

/-! ## Positions -/

/-- Why a text is no document and at which character that shows. -/
structure DocumentError where
  flaw : Flaw
  /-- The number of characters before the flaw. -/
  offset : Nat
  /-- The line of the flaw, counted from one. -/
  line : Nat
  /-- The column of the flaw in its line, counted from one. -/
  column : Nat
  deriving DecidableEq, Repr

/-- The position of a flaw in the document it was found in. -/
def FlawAt.locate (document : Text) (found : FlawAt) : DocumentError :=
  let offset := document.length - found.rest.length
  let before := document.take offset
  { flaw := found.flaw
    offset
    line := before.count (.ofChar '\n') + 1
    column := (before.reverse.takeWhile (· != .ofChar '\n')).length + 1 }

/-- The wording of the error with its position. -/
def DocumentError.message (e : DocumentError) : String :=
  s!"{e.flaw.message}: line {e.line} column {e.column} (char {e.offset})"

/-- The value of a document, with arrays and objects as deep in each other as `holds` says. -/
def parse (holds : Nat → Bool) (t : Text) : Except DocumentError Json :=
  (document holds t).mapError (FlawAt.locate t)

end Json

end DartDecoders
