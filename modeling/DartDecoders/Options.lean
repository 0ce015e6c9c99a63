/-
The options of the generator.

Options come in layers over the defaults: a file, then single overrides. A layer gives values to
named options; a null value and an unknown name change nothing, and the last value given wins. The
only value that is checked is the set of primitive types, which has to be a collection; a layer
with another value there fails as a whole.
-/
import DartDecoders.Report

set_option autoImplicit false

namespace DartDecoders

/-- The types that a JSON value can be cast to. -/
def dartPrimitives : List Json :=
  ["int", "double", "num", "String", "bool"].map fun name => .str name.toText

/-- The options of the generator. -/
structure Options where
  /-- What the name of an implementation starts with. -/
  implPrefix : Json := .str "_$".toText
  /-- Whether primitive items are cast instead of decoded. -/
  primitiveHandling : Json := .bool true
  /-- The names of the primitive types, each once. -/
  primitiveNames : List Json := dartPrimitives
  /-- The factory that decodes an item or model. -/
  itemFactory : Json := .str "fromJson".toText
  /-- The key of the list in the decoded object. -/
  listDataKey : Json := .str "data".toText
  deriving Inhabited

/-- The options that have a name. -/
inductive OptionName where
  | implPrefix
  | primitiveHandling
  | primitiveNames
  | itemFactory
  | listDataKey
  deriving DecidableEq, Repr

namespace OptionName

/-- The option of a name. -/
def ofField? (name : Text) : Option OptionName :=
  if name == "impl_prefix".toText then some .implPrefix
  else if name == "primitive_handling".toText then some .primitiveHandling
  else if name == "primitive_names".toText then some .primitiveNames
  else if name == "item_factory".toText then some .itemFactory
  else if name == "list_data_key".toText then some .listDataKey
  else none

/-- The option of a key in an options file. -/
def ofFileKey? (key : Text) : Option OptionName :=
  if key == "implPrefix".toText then some .implPrefix
  else if key == "primitiveHandling".toText then some .primitiveHandling
  else if key == "primitiveTypes".toText then some .primitiveNames
  else if key == "itemFactory".toText then some .itemFactory
  else if key == "listDataKey".toText then some .listDataKey
  else none

end OptionName

namespace Options

/-- The options that nothing has changed. -/
def standard : Options := {}

/-- The primitive types that are in force: none when primitive handling is off. -/
def activePrimitives (o : Options) : List Json :=
  if o.primitiveHandling.isTruthy then o.primitiveNames else []

/-- The members of a collection: the characters of a text, the keys of an object, the items of an
array unless one of them is itself an array or object. -/
def membersOf : Json → Except Fault (List Json)
  | .str t => .ok (t.map fun c => .str [c])
  | .obj entries => .ok (entries.map fun entry => .str entry.1)
  | .arr items =>
    if items.any (fun item => match item with | .arr _ | .obj _ => true | _ => false) then
      .error .wrongKind
    else .ok items
  | _ => .error .wrongKind

/-- The options with one of them set. -/
def set (o : Options) (name : OptionName) (value : Json) : Except Fault Options :=
  match name with
  | .implPrefix => .ok { o with implPrefix := value }
  | .primitiveHandling => .ok { o with primitiveHandling := value }
  | .primitiveNames => do
    let members ← membersOf value
    return { o with primitiveNames := Json.distinct members }
  | .itemFactory => .ok { o with itemFactory := value }
  | .listDataKey => .ok { o with listDataKey := value }

/-- One value of a layer: null changes nothing. -/
def setGiven (o : Options) (name : OptionName) (value : Json) : Except Fault Options :=
  match value with
  | .null => .ok o
  | value => o.set name value

/-- The options with a layer of named values over them. -/
def overlay (o : Options) (values : List (OptionName × Json)) : Except Fault Options :=
  values.foldlM (fun o value => o.setGiven value.1 value.2) o

/-- The name of the options themselves, which no layer can give a value, not even null. -/
def ownName : Text := "self".toText

/-- The options with a layer of values by field name; unknown names are passed over. -/
def withOverrides (o : Options) (values : List (Text × Json)) : Except Fault Options :=
  if values.any fun value => value.1 == ownName then .error .wrongKind
  else o.overlay <| values.filterMap fun value =>
    (OptionName.ofField? value.1).map fun name => (name, value.2)

/-- The options with the contents of an options file over them. Every unknown key is reported. -/
def withFile (o : Options) (path : Chars) (document : Except LoadError Json) : Report Options := do
  match document with
  | .error cause => Report.fail (.reported (.optionsUnreadable path cause))
  | .ok (.obj entries) =>
    Report.notes <| entries.filterMap fun entry =>
      match OptionName.ofFileKey? entry.1 with
      | some _ => none
      | none =>
        some ⟨.warning, Text.concat ["Ignoring unknown option '", entry.1, "' in ",
          Text.ofChars path]⟩
    let values := entries.filterMap fun entry =>
      (OptionName.ofFileKey? entry.1).map fun name => (name, entry.2)
    Report.note .info <|
      Text.concat ["Loaded ", Text.ofNat values.length, " option override(s) from ",
        Text.ofChars path]
    Report.lift (o.overlay values)
  | .ok _ => Report.fail (.reported (.optionsNotObject path))

end Options

end DartDecoders
