/-
How values appear inside generated code and messages.

A text appears as it is when it is the whole value, and as a quoted literal when it stands inside
an array or object or is shown for diagnosis. Null, the truth values and numbers have one spelling
everywhere.
-/
import DartDecoders.Json.Basic
import DartDecoders.Text.Quoted

set_option autoImplicit false

namespace DartDecoders

namespace Json

mutual

/-- The value as a diagnostic literal. -/
def literal : Json → Text
  | .null => "None".toText
  | .bool true => "True".toText
  | .bool false => "False".toText
  | .int value => Text.ofInt value
  | .float value => value.toText
  | .str value => Text.quoted value
  | .arr items => .ofChar '[' :: Text.join [',', ' '] (literals items) ++ [.ofChar ']']
  | .obj entries => .ofChar '{' :: Text.join [',', ' '] (entryLiterals entries) ++ [.ofChar '}']

/-- The literals of an array's items. -/
def literals : List Json → List Text
  | [] => []
  | item :: rest => literal item :: literals rest

/-- The literals of an object's entries, key and value with a colon between. -/
def entryLiterals : List (Text × Json) → List Text
  | [] => []
  | (key, value) :: rest =>
    (Text.quoted key ++ .ofChar ':' :: .ofChar ' ' :: literal value) :: entryLiterals rest

end

/-- The value as it appears in running text: a text as it is, all else as its literal. -/
def display : Json → Text
  | .str value => value
  | value => literal value

@[simp] theorem display_str (t : Text) : display (.str t) = t := rfl

end Json

end DartDecoders
