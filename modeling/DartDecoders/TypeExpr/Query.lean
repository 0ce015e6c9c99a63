/-
Questions about a type that is given as text.

Each question reads the text and answers from the tree, and leaves a text that is no type
expression alone or has no answer for it. A nullability mark is dropped everywhere at once; a
future is looked through one level deep. The reading is part of the question, for a reader that
gives up on some types leaves their texts alone as well.
-/
import DartDecoders.TypeExpr.Parser

set_option autoImplicit false

namespace DartDecoders

namespace TypeExpr

/-- The name of the type that stands for a later value. -/
def futureName : Text := "Future".toText

/-- The name of the list type. -/
def listName : Text := "List".toText

/-- The text without any nullability mark. A type is written anew in its canonical form, a text
that is no type only loses the marks at its end; a text without a mark stays as it is. -/
def withoutMarks (t : Text) (read : Text → Option TypeExpr := parse?) : Text :=
  if t.contains '?' then
    match read t with
    | some e => e.render false
    | none => Text.dropEndWhile '?' (Text.trimEnd t)
  else t

/-- The raw argument of a future with one argument; any other text as it is. -/
def withoutFuture (t : Text) (read : Text → Option TypeExpr := parse?) : Text :=
  match read t with
  | some (.node name [_] _ (some inner)) => if name == futureName then inner else t
  | _ => t

/-- The name and the raw arguments of a generic type that is not nullable. -/
def splitGeneric? (t : Text) (read : Text → Option TypeExpr := parse?) : Option (Text × Text) :=
  match read t with
  | some (.node name _ false (some inner)) => some (name, inner)
  | _ => none

/-- The item of a list type that is not nullable, when the item is a bare identifier. -/
def listItem? (t : Text) (read : Text → Option TypeExpr := parse?) : Option Text :=
  match read t with
  | some (.node name [.node item _ false none] false _) =>
    if name == listName then some item else none
  | _ => none

end TypeExpr

end DartDecoders
