/-
Method signatures and their parameters.

A parameter belongs to one of three groups: plain, optional in square brackets, or named in braces.
The names, types and defaults of a signature come from a source text or from declaration data, so
they may be any value; in a signature's text they appear as running text does. The groups are
written in the order that the language asks for, whatever the order of the parameters.
-/
import DartDecoders.Json.Display

set_option autoImplicit false

namespace DartDecoders

/-! ## Parameters -/

/-- The group of a parameter. A word that names no group is kept; such a parameter is in none. -/
inductive ParameterKind where
  | positional
  | optional
  | named
  | unknown (word : Text)
  deriving DecidableEq, Inhabited

namespace ParameterKind

/-- The word for a group. -/
def toText : ParameterKind → Text
  | .positional => "positional".toText
  | .optional => "optional".toText
  | .named => "named".toText
  | .unknown word => word

/-- The group that a word names. -/
def ofText (word : Text) : ParameterKind :=
  if word == "positional".toText then .positional
  else if word == "optional".toText then .optional
  else if word == "named".toText then .named
  else .unknown word

end ParameterKind

/-- A parameter of a method. -/
structure Parameter where
  /-- The declared type. -/
  typeText : Json
  /-- The name. -/
  name : Json
  kind : ParameterKind := .positional
  /-- Whether the parameter is marked as required. -/
  required : Bool := false
  /-- The default value, null for none. -/
  default : Json := .null
  deriving Inhabited

namespace Parameter

/-- Whether a default value is there. -/
def hasDefault (p : Parameter) : Bool :=
  match p.default with
  | .null => false
  | _ => true

/-- The parameter as it stands in a parameter list. -/
def render (p : Parameter) : Text :=
  (if p.required && p.kind == .named then "required ".toText else [])
    ++ p.typeText.display ++ .ofChar ' ' :: p.name.display
    ++ (if p.hasDefault then " = ".toText ++ p.default.display else [])

/-- The texts of the parameters of one group. -/
def renderGroup (kind : ParameterKind) (parameters : List Parameter) : List Text :=
  (parameters.filter fun p => p.kind == kind).map render

/-- A parameter list: the plain parameters, then the optional ones in square brackets, then the
named ones in braces. -/
def renderAll (parameters : List Parameter) : Text :=
  let comma : Text := [',', ' ']
  let optional := renderGroup .optional parameters
  let named := renderGroup .named parameters
  Text.join comma <| renderGroup .positional parameters
    ++ (if optional.isEmpty then [] else [.ofChar '[' :: Text.join comma optional ++ [.ofChar ']']])
    ++ (if named.isEmpty then [] else [.ofChar '\x7b' :: Text.join comma named ++ [.ofChar '\x7d']])

/-- The two parameters hold the same data. -/
def same (a b : Parameter) : Bool :=
  a.typeText.same b.typeText && a.name.same b.name && a.kind == b.kind
    && a.required == b.required && a.default.same b.default

end Parameter

/-! ## Methods -/

/-- A method of a class. -/
structure Method where
  /-- The name. -/
  name : Json
  /-- The declared return type. -/
  returnType : Json
  /-- The parameters in their declared order. -/
  parameters : List Parameter := []
  /-- Whether an implementation has to supply the method. -/
  isAbstract : Bool := true
  /-- The type parameters with their angle brackets, empty for none. -/
  typeParameters : Json := .str []
  deriving Inhabited

namespace Method

/-- The signature as it stands in a class. -/
def render (m : Method) : Text :=
  m.returnType.display ++ .ofChar ' ' :: m.name.display ++ m.typeParameters.display
    ++ .ofChar '(' :: Parameter.renderAll m.parameters ++ [.ofChar ')']

/-- The two methods hold the same data. -/
def same (a b : Method) : Bool :=
  a.name.same b.name && a.returnType.same b.returnType
    && a.parameters.length == b.parameters.length
    && (a.parameters.zip b.parameters).all (fun pair => pair.1.same pair.2)
    && a.isAbstract == b.isAbstract && a.typeParameters.same b.typeParameters

end Method

end DartDecoders
