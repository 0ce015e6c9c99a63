/-
The stack that a run is given.

Some of the work on nested data takes frames of the stack for every level: reading a document or a
type, making a directory together with those that are missing on the way to it, and writing types
and values out. How much a stack holds is no matter of the program. It differs between interpreters
and their releases, and with the frames that are on it already. So a stack is given by what it
holds, and nothing is assumed of it: what is shown of runs is shown for every stack.
-/
import DartDecoders.Declaration.Basic
import DartDecoders.Options
import DartDecoders.TypeExpr.Parser

set_option autoImplicit false

namespace DartDecoders

/-- What a stack holds. -/
structure Stack where
  /-- Whether a document with as many arrays and objects in each other can be read. -/
  holdsNested : Nat → Bool
  /-- Whether a directory can be made when as many on the way to it are missing. -/
  holdsMissing : Nat → Bool
  /-- The words with which the reading of a type is given up, when the stack overflows in it. -/
  typeOverflow? : Text → Option String
  /-- After how many records the reading of data as declarations ends, when the stack overflows in
  it: there are values to compare and to write out. -/
  dataOverflow? : Json → Option Nat
  /-- After how many records the making of a library ends, when the stack overflows in it: there
  are types and values to write out. -/
  libraryOverflow? : List Declaration → Option Text → Options → Option Nat

namespace Stack

/-- A stack that holds everything. -/
def unbounded : Stack where
  holdsNested := fun _ => true
  holdsMissing := fun _ => true
  typeOverflow? := fun _ => none
  dataOverflow? := fun _ => none
  libraryOverflow? := fun _ _ _ => none

/-- The type that a text spells; one whose reading is given up counts as none. -/
def parseType? (stack : Stack) (t : Text) : Option TypeExpr :=
  match stack.typeOverflow? t with
  | some _ => none
  | none => TypeExpr.parse? t

theorem parseType?_unbounded : unbounded.parseType? = TypeExpr.parse? := rfl

end Stack

end DartDecoders
