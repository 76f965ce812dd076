import RecordDiff.Text.Lines
import RecordDiff.Text.Utf8

/-!
Paths of files. A path is kept as it was given and cut at its slashes when it is followed. The last
component of a path is found behind any trailing slashes and dots; a dot in front of a relative path
is a component of its own.
-/

namespace RecordDiff.Storage

/-- The parts of a path between its slashes. -/
def pathParts (path : List Char) : List (List Char) :=
  Text.splitOn '/' path

/-- The dot that stands for the directory itself. -/
def dot : List Char := ['.']

/-- The dots that stand for the directory above. -/
def dotDot : List Char := ['.', '.']

/-- Parts of a path from the last one on, without those that are no component at its end. -/
def dropTrailing : List (List Char) → List (List Char)
  | [] => []
  | [part] => if part.isEmpty then [] else [part]
  | part :: before :: rest =>
    if part.isEmpty || part == dot then dropTrailing (before :: rest) else part :: before :: rest

/-- The components of a path and what lies between them, from the last one on. -/
def components (path : List Char) : List (List Char) :=
  dropTrailing (pathParts path).reverse

/-- The file name at the end of a path, unless the path ends in the directory itself or above. -/
def fileName? (path : List Char) : Option (List Char) :=
  match components path with
  | [] => none
  | name :: _ => if name = dot ∨ name = dotDot then none else some name

/-- Whether a path starts at the root. -/
def isAbsolute (path : List Char) : Bool :=
  path.head? == some '/'

/-- The path without its last component. -/
def parent? (path : List Char) : Option (List Char) :=
  match components path with
  | [] => none
  | _ :: before =>
    match dropTrailing before with
    | [] => some (if isAbsolute path then ['/'] else [])
    | rest => some (Text.joinWith ['/'] rest.reverse)

/-- The path of a name inside a directory. -/
def child (directory name : List Char) : List Char :=
  match directory.getLast? with
  | none => name
  | some last => if last = '/' then directory ++ name else directory ++ '/' :: name

/-- The name of the temporary file beside a file. -/
def temporaryName (name : List Char) : List Char :=
  '.' :: name ++ ".tmp".toList

/-- The path of the temporary file beside the file at a path. -/
def temporaryPath? (path : List Char) : Option (List Char) :=
  (fileName? path).map fun name => child ((parent? path).getD dot) (temporaryName name)

/-! ### As the system follows a path -/

/-- A path as the system follows it: the parts up to the last, the last one, and whether a slash
stands behind it. A path of nothing but slashes ends in the root itself. -/
structure Route where
  before : List (List Char)
  last : List Char
  slashed : Bool
  deriving DecidableEq, Repr

/-- The route of a path that is not empty. -/
def Route.ofPath (path : List Char) : Route :=
  match (pathParts path).reverse.dropWhile List.isEmpty with
  | [] => ⟨[], dot, true⟩
  | last :: before => ⟨before.reverse, last, path.getLast? == some '/'⟩

/-- Whether the last part of a route names an entry, and is not one of the dots. -/
def Route.isNamed (route : Route) : Bool :=
  route.last != dot && route.last != dotDot

/-- The most octets that a name may have. -/
def nameLimit : Nat := 255

/-- The first number of octets that a path may not have. -/
def pathLimit : Nat := 4096

/-- Whether a name is too long. -/
def isLongName (name : List Char) : Bool :=
  nameLimit < (Text.Utf8.encode name).length

/-- Whether a path as a whole is too long. -/
def isLongPath (path : List Char) : Bool :=
  pathLimit ≤ (Text.Utf8.encode path).length

end RecordDiff.Storage
