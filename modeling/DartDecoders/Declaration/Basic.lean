/-
Declarations: what the generator is asked to implement.

A declaration is a class with its methods, or another element that carries the annotation by
mistake. It may stem from a source text or from declaration data, and two of them are the same
when they hold the same data, wherever they come from.
-/
import DartDecoders.Envelope
import DartDecoders.Signature

set_option autoImplicit false

namespace DartDecoders

/-- The word for declarations that can be implemented. -/
def classKind : Text := "class".toText

/-- One declared element. -/
structure Declaration where
  /-- The name. -/
  name : Json
  /-- What kind of element it is. -/
  kind : Json := .str classKind
  /-- The methods in their declared order. -/
  methods : List Method := []
  /-- The envelope that the annotation describes; absent without the annotation. -/
  envelope : Option Envelope := none
  /-- Whether the class is abstract. -/
  isAbstract : Bool := true
  /-- The file it stems from, null for none. -/
  sourceFile : Json := .null
  deriving Inhabited

namespace Declaration

/-- Whether the element is a class. -/
def isClass (d : Declaration) : Bool :=
  d.kind.same (.str classKind)

/-- Whether the element is annotated. -/
def isAnnotated (d : Declaration) : Bool :=
  d.envelope.isSome

/-- The envelope around the results of the methods. -/
def envelopeOrPlain (d : Declaration) : Envelope :=
  d.envelope.getD .plain

/-- The two declarations hold the same data; the files they stem from do not count. -/
def same (a b : Declaration) : Bool :=
  a.name.same b.name && a.kind.same b.kind
    && a.methods.length == b.methods.length
    && (a.methods.zip b.methods).all (fun pair => pair.1.same pair.2)
    && (match a.envelope, b.envelope with
      | some x, some y => x.same y
      | none, none => true
      | _, _ => false)
    && a.isAbstract == b.isAbstract

/-- The two lists hold the same declarations in the same order. -/
def sameAll (as bs : List Declaration) : Bool :=
  as.length == bs.length && (as.zip bs).all fun pair => pair.1.same pair.2

end Declaration

end DartDecoders
