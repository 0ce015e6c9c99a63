/-
Loading options and declarations from files.

A file whose name ends in the suffix of JSON holds declaration data, any other a source text; the
library of a source is part of it. What cannot be opened or is no JSON document is a reported
error that names the file; bytes that are not UTF-8, a path that no file can have, a whole number
with too many figures and what overflows the stack are faults of their own.
-/
import DartDecoders.Declaration.Document
import DartDecoders.FileTree
import DartDecoders.Implementation
import DartDecoders.Options
import DartDecoders.Source.Scan

set_option autoImplicit false

namespace DartDecoders

namespace Loading

/-- The suffix of files with declaration data. -/
def documentSuffix : Chars := ".json".toList

/-- The content of the file of a path as text, or why it could not be opened. -/
def decodeContent (path : Chars) (content : Except SystemCause ByteArray) :
    Except Fault (Except SystemError Text) :=
  if Chars.hasNull path then .error .nullInPath
  else match content with
    | .error cause => .ok (.error ⟨cause, path⟩)
    | .ok bytes => (FileTree.decode bytes).map .ok

/-- The JSON value in a file's content, `path` being what failures name. -/
def parseContent (stack : Stack) (path : Chars) (content : Except SystemCause ByteArray) :
    Except Fault (Except LoadError Json) := do
  match ← decodeContent path content with
  | .error e => return .error (.system e)
  | .ok text =>
    match Json.parse stack.holdsNested text with
    | .ok value => return .ok value
    | .error e =>
      match e.flaw with
      | .numberTooLong figures => throw (.numberTooLong figures)
      | .nestedTooDeep => throw .nestedTooDeep
      | _ => return .error (.malformed e)

/-- The options with those of the named file over them. -/
def options (stack : Stack) (tree : FileTree) (file : Chars) (base : Options) :
    Report Options := do
  let document ← Report.lift (parseContent stack file (tree.readNamed file))
  base.withFile file document

/-- The declarations in the file of a path, which holds declaration data. -/
def document (stack : Stack) (tree : FileTree) (path : Path) : Report (List Declaration) := do
  let value ← Report.lift (parseContent stack path.toChars (tree.read path))
  match value with
  | .error cause => Report.fail (.reported (.declarationsUnreadable path.toChars cause))
  | .ok data =>
    (Declaration.load data (.str (.ofChars path.toChars))).cutShort (stack.dataOverflow? data)

/-- The declarations in the file of a path, which holds a source text. -/
def source (tree : FileTree) (path : Path) : Report (List Declaration) := do
  match ← Report.lift (decodeContent path.toChars (tree.read path)) with
  | .error cause => Report.fail (.reported (.sourceUnreadable path.toChars cause))
  | .ok text => Source.scan text (.str (.ofChars path.toChars))

/-- The declarations in the file of a path, and the name of the source that their library is part
of. -/
def input (stack : Stack) (tree : FileTree) (path : Path) :
    Report (List Declaration × Option Text) := do
  if path.suffix == documentSuffix then
    Report.note .info (Text.concat ["Parsing declarations from: ", Text.ofChars path.toChars])
    let declarations ← document stack tree path
    return (declarations, none)
  else
    Report.note .info (Text.concat ["Scanning Dart source: ", Text.ofChars path.toChars])
    let declarations ← source tree path
    return (declarations, some (.ofChars path.name))

/-- The library text for the file of a path. -/
def library (stack : Stack) (tree : FileTree) (path : Path) (o : Options) : Report Text := do
  let (declarations, partOf) ← input stack tree path
  (Library.generate declarations partOf o stack).cutShort
    (stack.libraryOverflow? declarations partOf o)

end Loading

end DartDecoders
