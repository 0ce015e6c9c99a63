/-
Type expressions that are given as a list.

Data may hold a list where a type expression is asked for. Such a list is read like a text, item by
item: items of white space are passed over, and then an identifier has to stand there, a run of
items of which each could stand in one. No list is ever a type expression. Either the reading finds
no identifier, which is a flaw with an offset like any other, or it comes to an item that cannot be
looked at, or to an identifier, which a list cannot be; then there is nothing to report.
-/
import DartDecoders.Fault
import DartDecoders.TypeExpr.Parser

set_option autoImplicit false

namespace DartDecoders

namespace TypeExpr

/-- The items that are texts of white space. -/
def isBlankItem : Json → Bool
  | .str t => !t.isEmpty && t.all isBlank
  | _ => false

/-- The items that could stand in an identifier: texts of alphanumeric characters, and the parts of
the text of the three other name characters. -/
def isNameItem : Json → Bool
  | .str t => (!t.isEmpty && t.all isAlphanumeric) || (Text.splitAfter? t "_$.".toText).isSome
  | _ => false

/-- The items that are texts of figures, with which no identifier starts. -/
def isFigureItem : Json → Bool
  | .str t => !t.isEmpty && t.all isFigure
  | _ => false

/-- The items that can be looked at. -/
def isTextItem : Json → Bool
  | .str _ => true
  | _ => false

/-- The offset at which a list has no identifier, when its reading comes to that. -/
def flawInList? (items : List Json) : Option Nat :=
  let rest := items.dropWhile isBlankItem
  let offset := items.length - rest.length
  -- the reading looks at the item that ends the run before it judges the run
  match (rest.dropWhile isNameItem).head?.all isTextItem, rest.takeWhile isNameItem with
  | false, _ => none
  | true, [] => some offset
  | true, first :: _ => if isFigureItem first then some offset else none

/-- The wording of a flaw in a list. -/
def flawInListMessage (offset : Nat) (items : List Json) : Text :=
  Text.concat [Flaw.identifierExpected.message, " at ", Text.ofNat offset, " in ",
    Json.literal (.arr items)]

end TypeExpr

end DartDecoders
