/-
Files and directories.

A file tree says what stands at which location, a location being the list of names from the root.
Relative paths start at a home location. A path is followed name by name: what a name is looked up
in has to be a directory, and a double dot leads to where the directory stands. Names and whole
paths have a bound on their bytes. Reading and writing change nothing else: that is
`lookup?_put_self` and `lookup?_put_of_ne`.
-/
import DartDecoders.Fault
import DartDecoders.Path

set_option autoImplicit false

namespace DartDecoders

/-- A place among all files: the names from the root on. -/
abbrev Location := List Chars

/-- What stands at a location. -/
inductive Entry where
  | file (content : ByteArray)
  | directory

/-- The files and directories there are, and where relative paths start. -/
structure FileTree where
  home : Location
  entries : List (Location × Entry)

namespace FileTree

/-! ## Locations -/

/-- What stands at a location; the root is always a directory. -/
def lookup? (tree : FileTree) (location : Location) : Option Entry :=
  if location.isEmpty then some .directory
  else (tree.entries.find? fun entry => entry.1 == location).map (·.2)

/-- The tree with something put at a location. -/
def put (tree : FileTree) (location : Location) (entry : Entry) : FileTree :=
  { tree with
    entries := (location, entry) :: tree.entries.filter fun known => known.1 != location }

/-- What was put at a location other than the root stands there. -/
theorem lookup?_put_self (tree : FileTree) (location : Location) (entry : Entry)
    (h : location ≠ []) : (tree.put location entry).lookup? location = some entry := by
  simp [lookup?, put, h]

/-- Putting something at one location leaves the others as they were. -/
theorem lookup?_put_of_ne (tree : FileTree) {location other : Location} (entry : Entry)
    (h : other ≠ location) : (tree.put location entry).lookup? other = tree.lookup? other := by
  unfold lookup? put
  split
  · rfl
  · have hne : (location == other) = false := by simpa using Ne.symm h
    simp only [List.find?_cons, hne]
    congr 1
    rw [List.find?_filter]
    congr 1
    funext known
    by_cases hk : known.1 = other
    · simp [hk, h]
    · simp [hk]

/-- A tree with no files, with a home and the directories on the way to it. -/
def empty (home : Location) : FileTree where
  home
  entries := (List.range home.length).map fun n => (home.take (n + 1), .directory)

/-! ## Following a path -/

/-- The step of one name from a location. -/
def step (location : Location) (name : Chars) : Location :=
  if name == ['.', '.'] then location.dropLast else location ++ [name]

/-- The bytes that a name may have. -/
def nameLimit : Nat := 255

/-- The bytes that a path may have. -/
def pathLimit : Nat := 4095

/-- The location that names lead to from another one. Every name has to be looked up in a
directory, and to be short enough for it; the last one need not stand for anything. -/
def follow (tree : FileTree) : Location → List Chars → Except SystemCause Location
  | location, [] => .ok location
  | location, name :: rest =>
    match tree.lookup? location with
    | some .directory =>
      if nameLimit < Chars.byteLength name then .error .nameTooLong
      else tree.follow (step location name) rest
    | some (.file _) => .error .notADirectory
    | none => .error .missing

/-- The location of a path. -/
def locate (tree : FileTree) (p : Path) : Except SystemCause Location :=
  if pathLimit < Chars.byteLength p.toChars then .error .nameTooLong
  else tree.follow (if p.isAbsolute then [] else tree.home) p.names

/-- What stands at a path, if anything does. -/
def entryAt? (tree : FileTree) (p : Path) : Option Entry :=
  match tree.locate p with
  | .ok location => tree.lookup? location
  | .error _ => none

/-- Whether something stands at a path, which has to be short enough to look. -/
def isThere (tree : FileTree) (p : Path) : Except SystemCause Bool :=
  match tree.locate p with
  | .ok location => .ok (tree.lookup? location).isSome
  | .error .nameTooLong => if Chars.hasNull p.toChars then .ok false else .error .nameTooLong
  | .error _ => .ok false

/-- Whether a directory stands at a path. -/
def isDirectory (tree : FileTree) (p : Path) : Bool :=
  match tree.entryAt? p with
  | some .directory => true
  | _ => false

/-! ## Reading -/

/-- The content of the file at a path. -/
def read (tree : FileTree) (p : Path) : Except SystemCause ByteArray := do
  let location ← tree.locate p
  match tree.lookup? location with
  | some (.file content) => return content
  | some .directory => throw .isADirectory
  | none => throw .missing

/-- Whether a path is written in a way that only fits a directory. -/
def asksForDirectory (t : Chars) : Bool :=
  match t.reverse with
  | '/' :: _ => true
  | '.' :: '/' :: _ => true
  | _ => false

/-- The content of the file that characters name as they are written. -/
def readNamed (tree : FileTree) (t : Chars) : Except SystemCause ByteArray := do
  if pathLimit < Chars.byteLength t then throw .nameTooLong
  let content ← tree.read (Path.parse t)
  if asksForDirectory t then throw .notADirectory else return content

/-- Characters with every kind of line break written as a line feed. -/
def withLineFeeds : Chars → Chars
  | [] => []
  | '\r' :: '\n' :: rest => '\n' :: withLineFeeds rest
  | '\r' :: rest => '\n' :: withLineFeeds rest
  | c :: rest => c :: withLineFeeds rest

/-- The text that a file's content encodes. -/
def decode (content : ByteArray) : Except Fault Text :=
  match String.fromUTF8? content with
  | some s => .ok (.ofChars (withLineFeeds s.toList))
  | none => .error .undecodable

/-- The content of a file with the given characters. -/
def bytesOf (cs : Chars) : ByteArray :=
  (String.ofList cs).toUTF8

/-- The content of a file that holds a text, unless a surrogate is in it. -/
def encode? (t : Text) : Option ByteArray :=
  t.chars?.map bytesOf

/-- What is in a file once a text was written to it: the text, or nothing when it has no
encoding. -/
def contentOf (t : Text) : ByteArray :=
  (encode? t).getD .empty

/-! ## Writing -/

/-- The tree after writing a file at a path. -/
def write (tree : FileTree) (p : Path) (content : ByteArray) : Except SystemCause FileTree := do
  let location ← tree.locate p
  match tree.lookup? location with
  | some .directory => throw .isADirectory
  | _ => return tree.put location (.file content)

/-- The tree after making a directory at a path where nothing stands. -/
def makeDirectory (tree : FileTree) (p : Path) : Except SystemCause FileTree := do
  let location ← tree.locate p
  match tree.lookup? location with
  | some _ => throw .alreadyThere
  | none => return tree.put location .directory

/-- The tree after making a directory unless one is there. -/
def ensureDirectory (tree : FileTree) (p : Path) : Except SystemCause FileTree :=
  match tree.makeDirectory p with
  | .ok made => .ok made
  | .error cause => if tree.isDirectory p then .ok tree else .error cause

/-- The tree after making a directory with all directories on the way to it, from the names in
reverse. A directory on the way is only made when the one behind it cannot be made without it;
`missing` says how often that was so, and `holds` how often it may be. -/
def ensureAll (tree : FileTree) (holds : Nat → Bool) (root : Chars) :
    Nat → List Chars → Except Fault FileTree
  | _, [] => .ok tree
  | missing, name :: before =>
    let p : Path := ⟨root, (name :: before).reverse⟩
    match tree.ensureDirectory p with
    | .ok made => .ok made
    | .error .missing =>
      if !holds (missing + 1) then .error .nestedTooDeep
      else do
        -- what is missing is on the way, so that comes first
        let made ← tree.ensureAll holds root (missing + 1) before
        (made.ensureDirectory p).mapError fun cause => .system ⟨cause, p.toChars⟩
    | .error cause => .error (.system ⟨cause, p.toChars⟩)

/-- The tree after making the directory of a path and those on the way to it, as many as `holds`
says. -/
def ensureDirectories (tree : FileTree) (holds : Nat → Bool) (p : Path) : Except Fault FileTree :=
  tree.ensureAll holds p.root 0 p.names.reverse

/-! ## Comparison -/

/-- Whether two contents of locations are the same. -/
def Entry.same : Option Entry → Entry → Bool
  | some (.file before), .file content => before == content
  | some .directory, .directory => true
  | _, _ => false

/-- What stands in a tree and not in another one, the outermost first. -/
def changes (tree old : FileTree) : List (Location × Entry) :=
  (tree.entries.filter fun entry => !Entry.same (old.lookup? entry.1) entry.2).reverse

/-- The files below the home of a tree that another tree does not have with the same content, by
their path from there. -/
def newFiles (tree old : FileTree) : List (Chars × ByteArray) :=
  (tree.changes old).filterMap fun (location, entry) =>
    match entry with
    | .file content =>
      if tree.home.isPrefixOf location then
        some (['/'].intercalate (location.drop tree.home.length), content)
      else none
    | .directory => none

end FileTree

end DartDecoders
