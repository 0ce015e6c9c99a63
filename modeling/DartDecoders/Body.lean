/-
The body of a generated method: one return statement that decodes the input.

The input is the parameter with the conventional name, or the first one. Items of a list are cast
when they are primitive and decoded by their factory otherwise; a floating point item is coerced,
since a decoded whole number is none. The shape of the return type decides between four forms.
-/
import DartDecoders.Options
import DartDecoders.Shape
import DartDecoders.Signature

set_option autoImplicit false

namespace DartDecoders

namespace Body

/-- The name that marks the parameter to decode from. -/
def inputName : Text := "json".toText

/-- The type of a decoded object. -/
def objectType : Text := "Map<String, dynamic>".toText

/-- The parameter of the function that a wrapper decodes its contents with. -/
def decoderArgument : Text := "data".toText

/-- The name of the parameter that holds the input. -/
def inputOf (m : Method) : Except Fault Json :=
  match m.parameters with
  | [] => .error (.reported (.nothingToDecode m.name))
  | first :: _ =>
    match m.parameters.find? fun p => p.name.same (.str inputName) with
    | some p => .ok p.name
    | none => .ok first.name

/-- The coercion of a primitive item that a cast would get wrong. -/
def coercion? (item : Text) : Option Text :=
  if item == "double".toText then some "(e as num).toDouble()".toText else none

/-- The list of items built from a raw list. -/
def listItems (raw item : Text) (primitives : List Json) (factory : Json) : Text :=
  let source := .ofChar '(' :: raw ++ " as List)".toText
  let mapped (decoded : Text) : Text :=
    source ++ ".map((e) => ".toText ++ decoded ++ ").toList()".toText
  if Json.memberOf (.str item) primitives then
    match coercion? item with
    | some coerced => mapped coerced
    | none => source ++ ".cast<".toText ++ item ++ ">().toList()".toText
  else
    mapped (item ++ .ofChar '.' :: factory.display ++ "(e as ".toText ++ objectType
      ++ [.ofChar ')'])

/-- What a wrapper's factory is called with: the input and the function that decodes what it
wraps. -/
def wrapperCall (envelope : Envelope) (contents input decoded : Text) : Text :=
  "return ".toText ++ envelope.wrapper.display ++ .ofChar '<' :: contents ++ ">.".toText
    ++ envelope.factory.display ++ .ofChar '(' :: input ++ ", (".toText ++ decoderArgument
    ++ ") => ".toText ++ decoded ++ ");".toText

/-- The return statement of a shape. -/
def statement (shape : Shape) (input : Text) (primitives : List Json) (envelope : Envelope)
    (o : Options) : Text :=
  match shape with
  | .wrappedList item =>
    wrapperCall envelope (Shape.listOpening ++ item ++ [.ofChar '>']) input
      (listItems decoderArgument item primitives o.itemFactory)
  | .wrappedModel inner =>
    wrapperCall envelope inner input
      (inner ++ .ofChar '.' :: o.itemFactory.display ++ .ofChar '(' :: decoderArgument
        ++ " as ".toText ++ objectType ++ [.ofChar ')'])
  | .directList item =>
    "return ".toText
      ++ listItems (input ++ "['".toText ++ o.listDataKey.display ++ "']".toText) item primitives
        o.itemFactory
      ++ [.ofChar ';']
  | .directModel name =>
    "return ".toText ++ name ++ .ofChar '.' :: o.itemFactory.display ++ .ofChar '(' :: input
      ++ ");".toText

/-- The record of a body that is written. -/
def announcement (shape : Shape) (envelope : Envelope) : Text :=
  match shape with
  | .wrappedList item =>
    Text.concat ["Generating code for wrapped List: ", envelope.wrapper.display, "<List<", item,
      ">>"]
  | .wrappedModel inner =>
    Text.concat ["Generating code for wrapped model: ", envelope.wrapper.display, "<", inner, ">"]
  | .directList item => Text.concat ["Generating code for List: List<", item, ">"]
  | .directModel name => Text.concat ["Generating code for direct model: ", name]

/-- The body of a method whose result has the shape. A method needs a parameter to decode from,
and a wrapped result a factory with a name; the parameter is checked first. There is no body
without a shape. -/
def emit (m : Method) (shape : Option Shape) (primitives : List Json) (envelope : Envelope)
    (o : Options) : Report Text := do
  let input ← Report.lift (inputOf m)
  match shape with
  | none => Report.fail .wrongKind
  | some shape =>
    if shape.wrapped && !envelope.factory.isTruthy then
      Report.fail (.reported (.factoryMissing m.name envelope.wrapper))
    else
      Report.note .info (announcement shape envelope)
      return statement shape input.display primitives envelope o

/-- The method with a body. -/
def source (m : Method) (body : Text) : Text :=
  "  @override\n  ".toText ++ m.render ++ " \x7b\n    ".toText ++ body ++ "\n  \x7d\n".toText

end Body

end DartDecoders
