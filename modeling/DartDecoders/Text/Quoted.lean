/-
Quoted texts, as error messages show them.

A quoted text stands in single quotes, or in double quotes when it holds a single quote and no
double one. The backslash and the chosen quote are escaped, and so is every character that would
not be visible: tab, line feed and carriage return by their letters, the others by the shortest of
three hexadecimal forms. All this is one record of decisions and one function over characters.
-/
import DartDecoders.Text.Basic
import DartDecoders.Text.Printable

set_option autoImplicit false

namespace DartDecoders

namespace Text

/-- The number in hexadecimal, with zeros before it up to the given width. -/
def hexadecimal (width n : Nat) : Chars :=
  let digits := Nat.toDigits 16 n
  List.replicate (width - digits.length) '0' ++ digits

/-- The quote that a text is shown in. -/
def quoteFor (t : Text) : CodePoint :=
  if t.contains '\'' && !t.contains '"' then '"' else '\''

/-- One character of a quoted text. -/
def quotedChar (quote c : CodePoint) : Text :=
  if c == quote || c == '\\' then ['\\', c]
  else if c == '\t' then ['\\', 't']
  else if c == '\n' then ['\\', 'n']
  else if c == '\r' then ['\\', 'r']
  else if isPrintable c then [c]
  else if c.toNat < 0x100 then '\\' :: 'x' :: ofChars (hexadecimal 2 c.toNat)
  else if c.toNat < 0x10000 then '\\' :: 'u' :: ofChars (hexadecimal 4 c.toNat)
  else '\\' :: 'U' :: ofChars (hexadecimal 8 c.toNat)

/-- The text in quotes, with every character escaped that needs it. -/
def quoted (t : Text) : Text :=
  let quote := quoteFor t
  quote :: t.flatMap (quotedChar quote) ++ [quote]

end Text

/-! ## Streams -/

/-- Characters as a string. -/
def Chars.shown (cs : Chars) : String :=
  String.ofList cs

/-- A code point as the stream of errors shows it: a surrogate by its number. -/
def CodePoint.shown : CodePoint → Chars
  | .ofChar c => [c]
  | .surrogate n => '\\' :: 'u' :: Text.hexadecimal 4 (0xd800 + n)

/-- A text as the stream of errors shows it. -/
def Text.shown (t : Text) : String :=
  Chars.shown (t.flatMap CodePoint.shown)

end DartDecoders
