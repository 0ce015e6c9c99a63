/-
Type expressions: an identifier, arguments in angle brackets, a mark for nullability.

The tree keeps the raw text between a node's angle brackets beside the parsed arguments, because
the classification of a return type hands that text on as it was written. A node is generic
exactly when it has such a text. Printing writes the tree in its one canonical form. Types are
nested to any depth, in printing as in reading; what the stack of a run holds of them is told by the
run's `Stack`, not here.
-/
import DartDecoders.Text.Basic

set_option autoImplicit false

namespace DartDecoders

/-- A type expression. -/
inductive TypeExpr where
  /-- A name with its arguments, its nullability and the raw text of the arguments, which is absent
  when there are no angle brackets. -/
  | node (name : Text) (args : List TypeExpr) (nullable : Bool) (argsText : Option Text)
  deriving Inhabited

namespace TypeExpr

/-- The identifier of a type, with its dots when an import qualifies it. -/
def name : TypeExpr → Text
  | .node name _ _ _ => name

/-- The arguments in angle brackets. -/
def args : TypeExpr → List TypeExpr
  | .node _ args _ _ => args

/-- Whether the type is marked nullable. -/
def nullable : TypeExpr → Bool
  | .node _ _ nullable _ => nullable

/-- The raw text between the angle brackets. -/
def argsText : TypeExpr → Option Text
  | .node _ _ _ argsText => argsText

/-- Whether the type has angle brackets. -/
def isGeneric (e : TypeExpr) : Bool :=
  e.argsText.isSome

/-! ## Printing -/

mutual

/-- The canonical text of a type: one space after each comma and none elsewhere. Nullability marks
are left out unless `marks` asks for them. -/
def render (marks : Bool) : TypeExpr → Text
  | .node name args nullable argsText =>
    let brackets :=
      if argsText.isSome then .ofChar '<' :: renderArgs marks args ++ [.ofChar '>'] else []
    name ++ brackets ++ (if marks && nullable then [.ofChar '?'] else [])

/-- The canonical texts of the arguments with commas between them. -/
def renderArgs (marks : Bool) : List TypeExpr → Text
  | [] => []
  | [arg] => render marks arg
  | arg :: next :: rest =>
    render marks arg ++ .ofChar ',' :: .ofChar ' ' :: renderArgs marks (next :: rest)

end

/-- The canonical text of a type with its nullability marks. -/
def toText (e : TypeExpr) : Text :=
  e.render true

end TypeExpr

end DartDecoders
