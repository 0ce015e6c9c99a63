/-
Declarations from JSON data.

The data is a list of class entries, or an object that holds one. A class entry has a name and may
have methods, a kind and an annotation; a method entry has a name and a return type; a parameter
is an object with a type and a name, or a text whose last word is the name. Entries are read in
order and the first that cannot be read ends the reading. A field that should hold a list is
walked as whatever it holds: an object by its keys and a text by its characters.
-/
import DartDecoders.Declaration.Basic
import DartDecoders.Report

set_option autoImplicit false

namespace DartDecoders

namespace Declaration

/-- The value of a field, or another one when the field is absent. -/
def field (entries : List (Text × Json)) (key : String) (absent : Json) : Json :=
  (Json.lookup? key.toText entries).getD absent

/-- The elements that a walk over a value meets: the items of an array, the keys of an object, the
characters of a text. Null, numbers and truth values cannot be walked. -/
def elementsOf : Json → Except Fault (List Json)
  | .arr items => .ok items
  | .obj entries => .ok (entries.map fun entry => .str entry.1)
  | .str t => .ok (t.map fun c => .str [c])
  | _ => .error .wrongKind

/-! ## Parameters -/

/-- The parts of a text before and behind its last space. -/
def splitLastSpace? (t : Text) : Option (Text × Text) :=
  match t.reverse.dropWhile (· != .ofChar ' ') with
  | [] => none
  | _ :: before => some (before.reverse, (t.reverse.takeWhile (· != .ofChar ' ')).reverse)

/-- A parameter written as one text: the name is its last word. -/
def parameterOfText (method : Json) (t : Text) : Except Fault Parameter :=
  match splitLastSpace? (Text.trim t) with
  | some (type, name) =>
    if type.isEmpty || name.isEmpty then .error (.reported (.parameterWithoutType method t))
    else .ok { typeText := .str (Text.trim type), name := .str name }
  | none => .error (.reported (.parameterWithoutType method t))

/-- The group that a value names, if it is one of the three. -/
def parameterKind? : Json → Option ParameterKind
  | .str word =>
    match ParameterKind.ofText word with
    | .unknown _ => none
    | kind => some kind
  | _ => none

/-- A parameter entry of a method. -/
def parameterOf (method entry : Json) : Except Fault Parameter :=
  match entry with
  | .str t => parameterOfText method t
  | .obj entries =>
    match Json.lookup? "type".toText entries, Json.lookup? "name".toText entries with
    | some type, some name =>
      let kind := field entries "kind" (.str "positional".toText)
      match parameterKind? kind with
      | some kind => .ok
        { typeText := type
          name
          kind
          required := (field entries "required" (.bool false)).isTruthy
          default := field entries "default" .null }
      | none => .error (.reported (.parameterKindUnknown method name kind))
    | _, _ => .error (.reported (.parameterIncomplete method entry))
  | _ => .error (.reported (.parameterIncomplete method entry))

/-! ## Methods -/

/-- A method entry of a class. -/
def methodOf (owner entry : Json) : Except Fault Method :=
  match entry with
  | .obj entries => do
    let name := field entries "name" .null
    let returnType := field entries "returnType" .null
    if !name.isTruthy || !returnType.isTruthy then
      .error (.reported (.methodIncomplete owner entry))
    else
      let parameters ← elementsOf (field entries "parameters" (.arr []))
      let parameters ← parameters.mapM (parameterOf name)
      let typeParameters := field entries "typeParameters" .null
      return {
        name
        returnType
        parameters
        isAbstract := (field entries "isAbstract" (.bool true)).isTruthy
        typeParameters := if typeParameters.isTruthy then typeParameters else .str [] }
  | _ => .error (.reported (.methodNotObject owner))

/-- The texts among the values, when all of them are texts. -/
def textsOf? : List Json → Option (List Text)
  | [] => some []
  | .str t :: rest => (textsOf? rest).map (t :: ·)
  | _ :: _ => none

/-- The names that occur more than once, each once. -/
def repeatedNames (names : List Json) : List Json :=
  Json.distinct <| names.filter fun name => decide ((names.filter (Json.same name)).length > 1)

/-- The names of a class's methods have to differ. Names that are texts are reported in order; any
other repeated name cannot be. -/
def checkNames (owner : Json) (names : List Json) : Except Fault Unit :=
  match repeatedNames names with
  | [] => .ok ()
  | repeated =>
    match textsOf? repeated with
    | some texts => .error (.reported (.duplicateMethods owner (texts.mergeSort Text.le)))
    | none => .error .wrongKind

/-! ## Classes -/

/-- The envelope of a class entry: null or nothing stands for no annotation. -/
def envelopeOf (owner entry : Json) : Except Fault (Option Envelope) :=
  match entry with
  | .null => .ok none
  | .obj entries => .ok (some (.ofArguments entries))
  | _ => .error (.reported (.markerNotObject owner))

/-- A class entry. -/
def classOf (sourceFile entry : Json) : Except Fault Declaration :=
  match entry with
  | .obj entries => do
    let name := field entries "name" .null
    if !name.isTruthy then
      .error (.reported (.classWithoutName entry))
    else
      let methods ← elementsOf (field entries "methods" (.arr []))
      let methods ← methods.mapM (methodOf name)
      checkNames name (methods.map (·.name))
      let envelope ← envelopeOf name (field entries "annotation" .null)
      return {
        name
        kind := field entries "kind" (.str classKind)
        methods
        envelope
        isAbstract := (field entries "isAbstract" (.bool true)).isTruthy
        sourceFile }
  | _ => .error (.reported (.classNotObject entry))

/-- The class entries of declaration data. -/
def classEntries (data : Json) : Except Fault (List Json) :=
  let classes := match data with
    | .obj entries => field entries "classes" .null
    | other => other
  match classes with
  | .arr items => .ok items
  | _ => .error (.reported .classListMissing)

/-- The declarations of declaration data. -/
def ofData (data : Json) (sourceFile : Json) : Except Fault (List Declaration) := do
  let entries ← classEntries data
  entries.mapM (classOf sourceFile)

/-- The declarations of declaration data, with the record of how many there are. -/
def load (data : Json) (sourceFile : Json) : Report (List Declaration) := do
  let declarations ← Report.lift (ofData data sourceFile)
  let annotated := (declarations.filter isAnnotated).length
  Report.note .info s!"Loaded {declarations.length} declarations ({annotated} annotated)."
  return declarations

end Declaration

/-- Loading answers with the declarations of the data. -/
theorem result_load (data sourceFile : Json) :
    (Declaration.load data sourceFile).result = Declaration.ofData data sourceFile := by
  rw [Declaration.load, Report.result_bind, Report.result_lift]
  cases Declaration.ofData data sourceFile <;> rfl

end DartDecoders
