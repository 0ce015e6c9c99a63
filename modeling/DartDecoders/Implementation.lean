/-
Implementations of annotated classes, and the library text that holds them.

An implementation overrides every abstract method of a class, in the order of the class. A library
holds the implementations of the annotated classes among its declarations; other annotated
elements are left out with a warning, and declarations without the annotation silently. A library
without an implementation has no text at all.
-/
import DartDecoders.Body
import DartDecoders.Declaration.Basic

set_option autoImplicit false

namespace DartDecoders

/-- A generated method: its signature, the shape of its result and its body. -/
structure GeneratedMethod where
  signature : Method
  shape : Shape
  body : Text

namespace GeneratedMethod

/-- The text of the method. -/
def source (m : GeneratedMethod) : Text :=
  Body.source m.signature m.body

end GeneratedMethod

namespace Implementation

/-- The name of the implementation of a class. -/
def nameFor (o : Options) (className : Json) : Text :=
  o.implPrefix.display ++ className.display

/-- The body of a method whose result has the shape, with the options' primitive types. -/
def bodyOf (m : Method) (shape : Option Shape) (envelope : Envelope) (o : Options) : Report Text :=
  Body.emit m shape o.activePrimitives envelope o

/-- The generated method for an abstract one. -/
def methodFor (m : Method) (envelope : Envelope) (o : Options) (stack : Stack := .unbounded) :
    Report GeneratedMethod := do
  Report.note .info <|
    Text.concat ["Processing method: ", m.name.display, " with return type: ",
      m.returnType.display]
  let shape ← Shape.report m.returnType envelope stack
  let body ← bodyOf m (some shape) envelope o
  return { signature := m, shape, body }

/-- The generated methods for the abstract ones among the methods, in order. -/
def methodsFor (envelope : Envelope) (o : Options) (stack : Stack) :
    List Method → Report (List GeneratedMethod)
  | [] => return []
  | m :: rest => do
    if m.isAbstract then
      let generated ← methodFor m envelope o stack
      let others ← methodsFor envelope o stack rest
      return generated :: others
    else
      Report.note .debug (Text.concat ["Skipping non-abstract method: ", m.name.display])
      methodsFor envelope o stack rest

/-- The generated methods of a declaration, whatever its kind. -/
def methods (d : Declaration) (o : Options) (stack : Stack := .unbounded) :
    Report (List GeneratedMethod) :=
  methodsFor d.envelopeOrPlain o stack d.methods

/-- The text of a class that implements another. -/
def classText (o : Options) (className : Json) (methods : List GeneratedMethod) : Text :=
  "class ".toText ++ nameFor o className ++ " implements ".toText ++ className.display
    ++ " \x7b\n".toText ++ methods.flatMap GeneratedMethod.source ++ "\x7d\n".toText

/-- The implementation of a class. Nothing else can be implemented. -/
def forClass (d : Declaration) (o : Options) (stack : Stack := .unbounded) : Report Text := do
  if !d.isClass then
    Report.fail (.reported (.notAClass d.name d.kind))
  else
    let envelope := d.envelopeOrPlain
    Report.note .info (Text.concat ["Generating implementation for class: ", d.name.display])
    Report.note .info <|
      Text.concat ["Annotation config: wrapperType=", envelope.wrapper.display,
        ", wrapperFromJson=", envelope.factory.display]
    let generated ← methods d o stack
    Report.note .info (Text.concat ["Completed generation for ", d.name.display])
    return classText o d.name generated

/-- The implementation of an annotated class; empty for a declaration without the annotation, and,
with a warning, for an annotated element that is no class. -/
def forAnnotated (d : Declaration) (o : Options) (stack : Stack := .unbounded) :
    Report Text := do
  if !d.isAnnotated then
    return []
  else
    Report.note .info (Text.concat ["Processing element: ", d.name.display])
    match ← (forClass d o stack).caught with
    | .ok text => return text
    | .error e =>
      if e.kind == .target then
        Report.note .warning (Text.concat [e.message, ", skipping."])
        return []
      else Report.fail (.reported e)

end Implementation

namespace Library

/-- The line that a generated file starts with. -/
def header : Text := "// GENERATED CODE - DO NOT MODIFY BY HAND".toText

/-- The rule above and below the generator's name. -/
def rule : Text := "// ".toText ++ List.replicate 74 (.ofChar '*')

/-- The name that the generator signs with. -/
def generatorName : Text := "Json2ModelGenerator".toText

/-- The line that ties a generated file to its source. -/
def partDirective : Option Text → Text
  | some (c :: rest) => "part of '".toText ++ (c :: rest) ++ "';\n\n".toText
  | _ => []

/-- A library of implementations, empty when there are none. -/
def textOf (partOf : Option Text) (implementations : List Text) : Text :=
  match implementations with
  | [] => []
  | implementations =>
    header ++ [.ofChar '\n', .ofChar '\n'] ++ partDirective partOf ++ rule
      ++ .ofChar '\n' :: "// ".toText ++ generatorName ++ .ofChar '\n' :: rule
      ++ [.ofChar '\n', .ofChar '\n']
      ++ Text.join ['\n'] implementations

/-- The library of the implementations that the declarations have. -/
def generate (declarations : List Declaration) (partOf : Option Text) (o : Options)
    (stack : Stack := .unbounded) : Report Text := do
  let texts ← declarations.mapM fun d => Implementation.forAnnotated d o stack
  return textOf partOf (texts.filter fun text => !text.isEmpty)

end Library

end DartDecoders
