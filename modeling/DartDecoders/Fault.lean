/-
What can go wrong, as causes.

An error that the generator reports carries what its message speaks of, and belongs to one of four
kinds: unreadable declarations, a method that cannot be decoded, an unusable annotation and a
target that is no class. The other faults are those of values and files that no rule covers; they
end a run without a message of their own.
-/
import DartDecoders.Json.Display
import DartDecoders.Json.Reader

set_option autoImplicit false

namespace DartDecoders

/-! ## Files -/

/-- Why a file or directory could not be opened or made. -/
inductive SystemCause where
  | missing
  | alreadyThere
  | notADirectory
  | isADirectory
  | nameTooLong
  deriving DecidableEq, Repr

/-- A failed operation on the file of a path. -/
structure SystemError where
  cause : SystemCause
  path : Chars
  deriving DecidableEq, Repr

/-- The number and wording of a cause. -/
def SystemCause.message : SystemCause → String
  | .missing => "[Errno 2] No such file or directory"
  | .alreadyThere => "[Errno 17] File exists"
  | .notADirectory => "[Errno 20] Not a directory"
  | .isADirectory => "[Errno 21] Is a directory"
  | .nameTooLong => "[Errno 36] File name too long"

/-- The wording of a failed operation, with its path quoted. -/
def SystemError.message (e : SystemError) : Text :=
  Text.concat [e.cause.message, ": ", Text.quoted (Text.ofChars e.path)]

/-- Why a JSON file gave no value. -/
inductive LoadError where
  | system (e : SystemError)
  | malformed (e : Json.DocumentError)

/-- The wording of a failed reading. -/
def LoadError.message : LoadError → Text
  | .system e => e.message
  | .malformed e => e.message

/-! ## Reported errors -/

/-- The kinds of reported errors. -/
inductive ErrorKind where
  | declaration
  | signature
  | configuration
  | target
  deriving DecidableEq, Repr

/-- An error that the generator reports. -/
inductive GenerationError where
  /-- A closing bracket that does not belong to the last open one. -/
  | unbalancedBracket (bracket : CodePoint) (offset : Int)
  /-- A text that ends before the bracket at the offset is closed. -/
  | unclosedBracket (bracket : CodePoint) (offset : Int)
  /-- A parameter without a name at its end. -/
  | namelessParameter (text : Text)
  /-- A header that ends in a closing angle bracket with no partner. -/
  | unbalancedTypeParameters (header : Text)
  /-- A class declaration with no brace behind it. -/
  | classWithoutBody (name : Text)
  /-- Declaration data that holds no list of classes. -/
  | classListMissing
  /-- A class entry that is no object. -/
  | classNotObject (entry : Json)
  /-- A class entry with no name. -/
  | classWithoutName (entry : Json)
  /-- A method entry that is no object. -/
  | methodNotObject (owner : Json)
  /-- A method entry with no name or no return type. -/
  | methodIncomplete (owner entry : Json)
  /-- Several methods of one class with the same name. -/
  | duplicateMethods (owner : Json) (names : List Text)
  /-- An annotation entry that is no object. -/
  | markerNotObject (owner : Json)
  /-- A parameter text of one word. -/
  | parameterWithoutType (method : Json) (text : Text)
  /-- A parameter entry without a type or a name. -/
  | parameterIncomplete (method entry : Json)
  /-- A parameter entry of a kind that does not exist. -/
  | parameterKindUnknown (method name kind : Json)
  /-- A source file that cannot be opened. -/
  | sourceUnreadable (path : Chars) (cause : SystemError)
  /-- A declaration file that cannot be opened or is no JSON document. -/
  | declarationsUnreadable (path : Chars) (cause : LoadError)
  /-- An options file that cannot be opened or is no JSON document. -/
  | optionsUnreadable (path : Chars) (cause : LoadError)
  /-- An options file that holds something else than an object. -/
  | optionsNotObject (path : Chars)
  /-- A method without parameters, so without anything to decode from. -/
  | nothingToDecode (method : Json)
  /-- A method that returns the envelope while the envelope's factory has no name. -/
  | factoryMissing (method envelope : Json)
  /-- An implementation asked for something that is no class. -/
  | notAClass (name kind : Json)

namespace GenerationError

/-- The kind of an error. -/
def kind : GenerationError → ErrorKind
  | .nothingToDecode _ => .signature
  | .factoryMissing _ _ => .configuration
  | .notAClass _ _ => .target
  | _ => .declaration

/-- The wording of an error. -/
def message : GenerationError → Text
  | .unbalancedBracket bracket offset =>
    Text.concat ["Unbalanced '", [bracket], "' at offset ", Text.ofInt offset]
  | .unclosedBracket bracket offset =>
    Text.concat ["Unclosed '", [bracket], "' at offset ", Text.ofInt offset]
  | .namelessParameter text => Text.concat ["Cannot read parameter '", text, "'"]
  | .unbalancedTypeParameters header =>
    Text.concat ["Unbalanced type parameters in '", header, "'"]
  | .classWithoutBody name => Text.concat ["Class ", name, " has no body"]
  | .classListMissing =>
    "Declaration data must be a list of classes or an object with a 'classes' list"
  | .classNotObject entry => Text.concat ["Class entry must be an object, got ", entry.kindName]
  | .classWithoutName entry => Text.concat ["Class entry without a 'name': ", entry.literal]
  | .methodNotObject owner =>
    Text.concat ["Method entry in ", owner.display, " must be an object"]
  | .methodIncomplete owner entry =>
    Text.concat ["Method in ", owner.display, " needs 'name' and 'returnType': ", entry.literal]
  | .duplicateMethods owner names =>
    Text.concat ["Duplicate method names in ", owner.display, ": ", Text.join [',', ' '] names]
  | .markerNotObject owner =>
    Text.concat ["Annotation of ", owner.display, " must be an object"]
  | .parameterWithoutType method text =>
    Text.concat ["Parameter '", text, "' of ", method.display, " needs a type and a name"]
  | .parameterIncomplete method entry =>
    Text.concat ["Parameter of ", method.display, " needs 'type' and 'name': ", entry.literal]
  | .parameterKindUnknown method name kind =>
    Text.concat ["Parameter '", name.display, "' of ", method.display, " has unknown kind '",
      kind.display, "'"]
  | .sourceUnreadable path cause =>
    Text.concat ["Failed to read Dart source ", Text.ofChars path, ": ", cause.message]
  | .declarationsUnreadable path cause =>
    Text.concat ["Failed to load or parse declaration file ", Text.ofChars path, ": ",
      cause.message]
  | .optionsUnreadable path cause =>
    Text.concat ["Failed to load options file ", Text.ofChars path, ": ", cause.message]
  | .optionsNotObject path =>
    Text.concat ["Options file ", Text.ofChars path, " must contain a JSON object"]
  | .nothingToDecode method =>
    Text.concat ["Method '", method.display, "' declares no parameter to decode from"]
  | .factoryMissing method envelope =>
    Text.concat ["Method '", method.display, "' returns envelope '", envelope.display,
      "' but wrapperFromJson is empty"]
  | .notAClass name kind =>
    Text.concat ["Element ", name.display, " is a ", kind.display, ", not a class"]

/-- The named parts that go with an error's message. -/
def details : GenerationError → List (Text × Json)
  | .classWithoutBody name => [("class_name".toText, .str name)]
  | .methodNotObject owner => [("class_name".toText, owner)]
  | .methodIncomplete owner _ => [("class_name".toText, owner)]
  | .duplicateMethods owner _ => [("class_name".toText, owner)]
  | .markerNotObject owner => [("class_name".toText, owner)]
  | .sourceUnreadable path _ => [("path".toText, .str (.ofChars path))]
  | .declarationsUnreadable path _ => [("path".toText, .str (.ofChars path))]
  | .optionsUnreadable path _ => [("path".toText, .str (.ofChars path))]
  | .optionsNotObject path => [("path".toText, .str (.ofChars path))]
  | .nothingToDecode method => [("method".toText, method)]
  | .factoryMissing method envelope =>
    [("method".toText, method), ("wrapper_type".toText, envelope)]
  | .notAClass name kind => [("name".toText, name), ("kind".toText, kind)]
  | _ => []

end GenerationError

/-! ## Faults -/

/-- Everything that can end a computation early. -/
inductive Fault where
  /-- An error that the generator reports. -/
  | reported (e : GenerationError)
  /-- A value of a kind that the operation on it does not take. -/
  | wrongKind
  /-- An offset or position that a text does not have. -/
  | outOfRange
  /-- An object without the key that is read. -/
  | missingKey
  /-- A value without the operation that is asked of it. -/
  | missingOperation
  /-- Bytes that are not UTF-8. -/
  | undecodable
  /-- A text with a surrogate, which has no bytes in UTF-8. -/
  | unencodable
  /-- A path with the null character, which the path of no file has. -/
  | nullInPath
  /-- A whole number with more figures than are read. -/
  | numberTooLong (figures : Nat)
  /-- Arrays and objects, types or missing directories, nested deeper than the stack holds. -/
  | nestedTooDeep
  /-- A file or directory that could not be opened or made. -/
  | system (e : SystemError)

/-- The wording of a fault. -/
def Fault.message : Fault → Text
  | .reported e => e.message
  | .wrongKind => "a value is of a kind that cannot stand here"
  | .outOfRange => "a position lies outside its text"
  | .missingKey => "an object lacks the key that is read"
  | .missingOperation => "a value lacks the operation that is asked of it"
  | .undecodable => "the bytes of a file are not UTF-8"
  | .unencodable => "a text to be written holds a surrogate"
  | .nullInPath => "embedded null byte"
  | .numberTooLong figures => Json.tooLongMessage figures
  | .nestedTooDeep => "something is nested deeper than the stack holds"
  | .system e => e.message

end DartDecoders
