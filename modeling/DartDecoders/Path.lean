/-
File paths.

A path is a root, which is empty for a relative path, and the names along it. Empty names and
single dots are dropped when a path is read, double dots are kept, since where they lead depends on
the files. Two leading slashes are a root of their own; any other number is the same as one.
-/
import DartDecoders.Text.Basic

set_option autoImplicit false

namespace DartDecoders

/-- A path: its root and its names. -/
structure Path where
  /-- Empty for a relative path. -/
  root : Chars
  /-- The names from the root on. -/
  names : List Chars
  deriving DecidableEq, Inhabited

namespace Path

/-! ## Reading and writing -/

/-- The pieces between slashes, empty ones included. -/
def splitSlashes : Chars → List Chars
  | [] => [[]]
  | c :: rest =>
    if c == '/' then [] :: splitSlashes rest
    else match splitSlashes rest with
      | piece :: others => (c :: piece) :: others
      | [] => [[c]]

/-- The root that a path starts with. -/
def rootOf (t : Chars) : Chars :=
  match (t.takeWhile (· == '/')).length with
  | 0 => []
  | 2 => ['/', '/']
  | _ => ['/']

/-- The path that characters name. -/
def parse (t : Chars) : Path where
  root := rootOf t
  names := (splitSlashes t).filter fun name => !name.isEmpty && name != ['.']

/-- The characters of a path; a path of nothing is a single dot. -/
def toChars (p : Path) : Chars :=
  if p.root.isEmpty && p.names.isEmpty then ['.'] else p.root ++ ['/'].intercalate p.names

/-- Whether the path starts at the root of all files. -/
def isAbsolute (p : Path) : Bool :=
  !p.root.isEmpty

/-! ## Parts -/

/-- The last name of a path, empty when it has none. -/
def name (p : Path) : Chars :=
  p.names.getLastD []

/-- The path without its last name. -/
def parent (p : Path) : Path :=
  { p with names := p.names.dropLast }

/-- A name cut before its last dot, unless that dot is its first or last character. -/
def splitSuffix (name : Chars) : Chars × Chars :=
  let suffix := name.reverse.takeWhile (· != '.')
  match name.reverse.dropWhile (· != '.') with
  | _ :: before =>
    if suffix.isEmpty || before.isEmpty then (name, [])
    else (before.reverse, '.' :: suffix.reverse)
  | [] => (name, [])

/-- The last name without its suffix. -/
def stem (p : Path) : Chars :=
  (splitSuffix p.name).1

/-- The suffix of the last name with its dot, empty when there is none. -/
def suffix (p : Path) : Chars :=
  (splitSuffix p.name).2

/-- The path of a name in a directory. -/
def child (p : Path) (name : Chars) : Path :=
  { p with names := p.names ++ [name] }

end Path

end DartDecoders
