/-
The shape in which a return type is decoded.

There are four shapes: a wrapper around a list, a wrapper around anything else, a list, and a
model. The rules are tried in this order and the first that applies decides. A future around the
type does not count, and neither does any nullability mark; the texts that a shape carries come
from the type without both. A type whose reading overflows the stack is one more text that is no
type expression, so the shape is a matter of the reader too.
-/
import DartDecoders.Envelope
import DartDecoders.Report
import DartDecoders.Stack
import DartDecoders.TypeExpr.Listed
import DartDecoders.TypeExpr.Query

set_option autoImplicit false

namespace DartDecoders

/-- How the result of a method is decoded. -/
inductive Shape where
  /-- The wrapper around a list of the item. -/
  | wrappedList (item : Text)
  /-- The wrapper around the inner type. -/
  | wrappedModel (inner : Text)
  /-- A list of the item. -/
  | directList (item : Text)
  /-- A type that decodes itself. -/
  | directModel (name : Text)
  deriving DecidableEq, Inhabited

namespace Shape

/-- Whether the wrapper is around the result. -/
def wrapped : Shape → Bool
  | .wrappedList _ | .wrappedModel _ => true
  | .directList _ | .directModel _ => false

/-- The type text that a shape carries. -/
def carried : Shape → Text
  | .wrappedList t | .wrappedModel t | .directList t | .directModel t => t

/-- What the rules look at: the type without marks and future, its name and raw arguments when it
is generic, and the item of those arguments when they are one list. -/
structure Analysis where
  effective : Text
  outer : Option Text
  inner : Option Text
  item : Option Text

/-- The analysis of a return type. -/
def analyse (returnType : Text) (read : Text → Option TypeExpr := TypeExpr.parse?) : Analysis :=
  let effective := TypeExpr.withoutFuture (TypeExpr.withoutMarks returnType read) read
  let generic := TypeExpr.splitGeneric? effective read
  { effective
    outer := generic.map (·.1)
    inner := generic.map (·.2)
    item := generic.bind fun parts => TypeExpr.listItem? parts.2 read }

/-- Whether the type is the wrapper of an envelope in use. -/
def Analysis.isWrapped (a : Analysis) (envelope : Envelope) : Bool :=
  envelope.enabled && (match a.outer with
    | some outer => Json.same (.str outer) envelope.wrapper
    | none => false)

/-- The text that a list type starts with. -/
def listOpening : Text := TypeExpr.listName ++ [.ofChar '<']

/-- The item of a list that is no wrapper: that of the only argument of a list of lists, otherwise
that of the list itself. -/
def Analysis.directItem? (a : Analysis) (read : Text → Option TypeExpr := TypeExpr.parse?) :
    Option Text :=
  if listOpening.isPrefixOf a.effective then
    match a.item with
    | some item => some item
    | none => TypeExpr.listItem? a.effective read
  else none

/-- The first rule that applies. -/
def Analysis.shape (a : Analysis) (envelope : Envelope)
    (read : Text → Option TypeExpr := TypeExpr.parse?) : Shape :=
  let direct := match a.directItem? read with
    | some item => directList item
    | none => directModel a.effective
  if a.isWrapped envelope then
    match a.item, a.inner with
    | some item, _ => wrappedList item
    | none, some inner => wrappedModel inner
    | none, none => direct
  else direct

/-- The shape of a return type in an envelope. -/
def classify (returnType : Text) (envelope : Envelope)
    (read : Text → Option TypeExpr := TypeExpr.parse?) : Shape :=
  (analyse returnType read).shape envelope read

/-- The shape of a return type that may be any value: only a text has one. A number or truth value
is of the wrong kind, an object is asked for a key it does not have, and null, zero, an empty value
and an array lack the operations of a text. -/
def classifyValue (returnType : Json) (envelope : Envelope)
    (read : Text → Option TypeExpr := TypeExpr.parse?) : Except Fault Shape :=
  match returnType with
  | .str t => .ok (classify t envelope read)
  | .obj (_ :: _) => .error .missingKey
  | .arr _ => .error .missingOperation
  | value => .error (if value.isTruthy then .wrongKind else .missingOperation)

/-! ## What is reported on the way -/

private def unparsable (reason : Text) : LogRecord :=
  ⟨.debug, Text.concat ["Not a parseable type expression: ", reason]⟩

private def unparsed (stack : Stack) (t : Text) : List LogRecord :=
  match t, stack.typeOverflow? t, TypeExpr.parse t with
  | _ :: _, some words, _ => [unparsable words]
  | _ :: _, none, .error e => [unparsable e.message]
  | _, _, _ => []

private def shownOption (t : Option Text) : Text :=
  t.getD "None"

private def summary (returnType effective : Text) (outer inner item : Option Text)
    (envelope : Envelope) : LogRecord :=
  ⟨.debug, Text.concat ["Return type analysis: return_type=", returnType, ", effective_type=",
    effective, ", outer_type=", shownOption outer, ", inner_type=", shownOption inner,
    ", list_item_type=", shownOption item, ", wrapper_type=", envelope.wrapper.display]⟩

/-- The records of a classification: one for every reading that failed, in order, and one for the
analysis after the readings that it takes. -/
def trace (returnType : Text) (envelope : Envelope) (stack : Stack) : List LogRecord :=
  let unmarked := TypeExpr.withoutMarks returnType stack.parseType?
  let a := analyse returnType stack.parseType?
  let early := (if returnType.contains '?' then unparsed stack returnType else [])
    ++ unparsed stack unmarked ++ unparsed stack a.effective
    ++ (match a.inner with
      | some inner => unparsed stack inner
      | none => [])
  let decided := a.isWrapped envelope && a.inner.isSome
  let late := if !decided && listOpening.isPrefixOf a.effective && a.item.isNone then
    unparsed stack a.effective else []
  early ++ summary returnType a.effective a.outer a.inner a.item envelope :: late

/-- The records on the way to the fault of a value that is no text. The analysis of null, zero and
an empty value finds nothing; a list is read for a future and for a generic type, after it is read
for marks when it has one, which is as far as that goes. -/
def traceValue (returnType : Json) (envelope : Envelope) (stack : Stack) : List LogRecord :=
  let nothing := summary returnType.display returnType.display none none none envelope
  match returnType with
  | .str t => trace t envelope stack
  | .arr (first :: others) =>
    let items := first :: others
    match TypeExpr.flawInList? items with
    | none => []
    | some offset =>
      let failed := unparsable (TypeExpr.flawInListMessage offset items)
      if Json.memberOf (.str ['?']) items then [failed] else [failed, failed, nothing]
  | value => if value.isTruthy then [] else [nothing]

/-- The classification of any value with its records. -/
def report (returnType : Json) (envelope : Envelope) (stack : Stack := .unbounded) :
    Report Shape := do
  Report.notes (traceValue returnType envelope stack)
  Report.lift (classifyValue returnType envelope stack.parseType?)

end Shape

end DartDecoders
