/-
The envelope of an annotated class: the wrapper type around its results, if it has one, and the
factory of that wrapper.

The two values come from annotation arguments or from declaration data, so they are kept as they
are; an envelope is in use when its wrapper is not null or empty.
-/
import DartDecoders.Json.Display

set_option autoImplicit false

namespace DartDecoders

/-- The name of the factory of a wrapper or an item when nothing else is given. -/
def defaultFactory : Text := "fromJson".toText

/-- A wrapper type with its factory. -/
structure Envelope where
  /-- The name of the wrapper type, null for none. -/
  wrapper : Json := .null
  /-- The name of the wrapper's factory. -/
  factory : Json := .str defaultFactory
  deriving Inhabited

namespace Envelope

/-- The envelope of a class without one. -/
def plain : Envelope := {}

/-- Whether results are wrapped. -/
def enabled (e : Envelope) : Bool :=
  e.wrapper.isTruthy

/-- The envelope that annotation arguments describe. An empty wrapper is none; a factory counts as
given unless it is null, even when it is empty. -/
def ofArguments (arguments : List (Text × Json)) : Envelope :=
  let wrapper := (Json.lookup? "wrapperType".toText arguments).getD .null
  let factory := (Json.lookup? "wrapperFromJson".toText arguments).getD .null
  { wrapper := if wrapper.isTruthy then wrapper else .null
    factory := match factory with
      | .null => .str defaultFactory
      | given => given }

/-- The two envelopes hold the same data. -/
def same (a b : Envelope) : Bool :=
  a.wrapper.same b.wrapper && a.factory.same b.factory

end Envelope

end DartDecoders
