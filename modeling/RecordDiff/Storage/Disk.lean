import RecordDiff.Storage.Cause
import RecordDiff.Storage.Path

/-!
A disk: directories and files by the names that lead to them from the root, and the file operations
of a system of POSIX family as functions on it. A path is followed part by part from the root or
from the working directory; every part but the last has to lead to a directory. Main statements:

- `Disk.item?_set_self`, `Disk.item?_set_of_ne`: setting a place changes what is there and leaves
  every other place alone;
- `Disk.item?_erase_of_ne`: so does erasing it.
-/

namespace RecordDiff.Storage

/-- The names that lead from the root to a place. -/
abbrev Location : Type := List (List Char)

/-- What may be at a place. -/
inductive Item where
  | directory
  | file (content : List UInt8)
  deriving DecidableEq, Repr

/-- The items of a disk by their places, and the place where relative paths start. The root itself
is always there. -/
structure Disk where
  working : Location
  entries : List (Location × Item)
  deriving DecidableEq, Repr

namespace Disk

/-- The disk with nothing on it but a working directory and the directories above it. -/
def startingIn (working : Location) : Disk :=
  ⟨working,
    (List.range working.length).map fun depth => (working.take (depth + 1), .directory)⟩

/-- What is at a place. -/
def item? (disk : Disk) (location : Location) : Option Item :=
  if location = [] then some .directory
  else (disk.entries.find? fun entry => entry.1 == location).map Prod.snd

/-- The disk with an item put at a place. -/
def set (disk : Disk) (location : Location) (item : Item) : Disk :=
  { disk with
    entries := (location, item) :: disk.entries.filter fun entry => entry.1 != location }

/-- The disk without what is at a place. -/
def erase (disk : Disk) (location : Location) : Disk :=
  { disk with entries := disk.entries.filter fun entry => entry.1 != location }

/-! ### Following paths -/

/-- The place above another; nothing is above the root. -/
def above (location : Location) : Location :=
  location.dropLast

/-- Follows parts from a directory on, each of which has to lead to a directory. -/
def follow (disk : Disk) (here : Location) : List (List Char) → Except Cause Location
  | [] => .ok here
  | part :: rest =>
    if part.isEmpty || part == dot then disk.follow here rest
    else if part == dotDot then disk.follow (above here) rest
    else if isLongName part then .error .nameTooLong
    else
      match disk.item? (here ++ [part]) with
      | none => .error .missing
      | some (.file _) => .error .notDirectory
      | some .directory => disk.follow (here ++ [part]) rest

/-- The place where a path starts. -/
def startOf (disk : Disk) (path : List Char) : Location :=
  if isAbsolute path then [] else disk.working

/-- The route of a path that the system accepts as one, with the directory its last part is in. -/
def locate (disk : Disk) (path : List Char) : Except Cause (Location × Route) :=
  if path.contains '\x00' then .error .nulInName
  else if path.isEmpty then .error .missing
  else if isLongPath path then .error .nameTooLong
  else
    (disk.follow (disk.startOf path) (Route.ofPath path).before).map fun here =>
      (here, Route.ofPath path)

/-- The place that a path leads to, if the path ends in a name. -/
def place? (disk : Disk) (path : List Char) : Option Location :=
  match disk.locate path with
  | .error _ => none
  | .ok (here, route) => if route.isNamed then some (here ++ [route.last]) else none

/-- What is at a path. -/
def status (disk : Disk) (path : List Char) : Except Cause Item :=
  match disk.locate path with
  | .error cause => .error cause
  | .ok (here, route) =>
    if !route.isNamed then .ok .directory
    else if isLongName route.last then .error .nameTooLong
    else
      match disk.item? (here ++ [route.last]) with
      | none => .error .missing
      | some .directory => .ok .directory
      | some (.file content) => if route.slashed then .error .notDirectory else .ok (.file content)

/-- Whether there is anything at a path. -/
def doesExist (disk : Disk) (path : List Char) : Bool :=
  match disk.status path with
  | .ok _ => true
  | .error _ => false

/-- Whether there is a directory at a path. -/
def isDirectory (disk : Disk) (path : List Char) : Bool :=
  match disk.status path with
  | .ok .directory => true
  | _ => false

/-- Whether there is a file at a path. -/
def isFile (disk : Disk) (path : List Char) : Bool :=
  match disk.status path with
  | .ok (.file _) => true
  | _ => false

/-! ### Operations -/

/-- The content of the file at a path. -/
def read (disk : Disk) (path : List Char) : Except Cause (List UInt8) :=
  match disk.status path with
  | .error cause => .error cause
  | .ok .directory => .error .isDirectory
  | .ok (.file content) => .ok content

/-- The content of the file at a path as text. -/
def readText (disk : Disk) (path : List Char) : Except Cause (List Char) :=
  match disk.read path with
  | .error cause => .error cause
  | .ok content =>
    match Text.Utf8.decode content with
    | .error _ => .error .notText
    | .ok text => .ok text

/-- The disk with a file of the given content at a path, new or in place of another file. -/
def write (disk : Disk) (path : List Char) (content : List UInt8) : Except Cause Disk :=
  match disk.locate path with
  | .error cause => .error cause
  | .ok (here, route) =>
    if !route.isNamed || route.slashed then .error .isDirectory
    else if isLongName route.last then .error .nameTooLong
    else
      match disk.item? (here ++ [route.last]) with
      | some .directory => .error .isDirectory
      | _ => .ok (disk.set (here ++ [route.last]) (.file content))

/-- The disk with a new directory at a path. -/
def makeDirectory (disk : Disk) (path : List Char) : Except Cause Disk :=
  match disk.locate path with
  | .error cause => .error cause
  | .ok (here, route) =>
    if !route.isNamed then .error .occupied
    else if isLongName route.last then .error .nameTooLong
    else
      match disk.item? (here ++ [route.last]) with
      | some _ => .error .occupied
      | none => .ok (disk.set (here ++ [route.last]) .directory)

/-- A new directory at a path, where one that is there already will do. -/
def ensureDirectory (disk : Disk) (path : List Char) : Except Cause Disk :=
  match disk.makeDirectory path with
  | .ok made => .ok made
  | .error cause => if disk.isDirectory path then .ok disk else .error cause

/-- Makes a directory at a path and those above it, so many levels up at most. What was made stays
even where the rest fails. -/
def makeAll (disk : Disk) (path : List Char) : (levels : Nat) → Disk × Except Cause Unit
  | 0 => (disk, .error .missing)
  | levels + 1 =>
    if path.isEmpty then (disk, .ok ())
    else
      match disk.ensureDirectory path with
      | .ok made => (made, .ok ())
      | .error .missing =>
        match parent? path with
        | none => (disk, .error .missing)
        | some parent =>
          match disk.makeAll parent levels with
          | (made, .error cause) => (made, .error cause)
          | (made, .ok ()) =>
            match made.ensureDirectory path with
            | .ok complete => (complete, .ok ())
            | .error cause => (made, .error cause)
      | .error cause => (disk, .error cause)

/-- Makes a directory at a path and all those above it that are missing. -/
def makeDirectories (disk : Disk) (path : List Char) : Disk × Except Cause Unit :=
  disk.makeAll path (path.length + 1)

/-- The place of the file at a path, for an operation that takes it away from there. -/
def filePlace (disk : Disk) (path : List Char) : Except Cause (Location × List UInt8) :=
  match disk.locate path with
  | .error cause => .error cause
  | .ok (here, route) =>
    match disk.item? (here ++ [route.last]) with
    | some (.file content) => .ok (here ++ [route.last], content)
    | some .directory => .error .isDirectory
    | none => .error .missing

/-- The disk with the file at one path moved to another, in place of any file there. -/
def rename (disk : Disk) (source target : List Char) : Except Cause Disk :=
  match disk.filePlace source, disk.locate target with
  | .error cause, _ => .error cause
  | _, .error cause => .error cause
  | .ok (place, content), .ok (here, route) =>
    if !route.isNamed then .error .busy
    else if isLongName route.last then .error .nameTooLong
    else if route.slashed then .error .notDirectory
    else
      match disk.item? (here ++ [route.last]) with
      | some .directory => .error .isDirectory
      | _ => .ok ((disk.erase place).set (here ++ [route.last]) (.file content))

/-- The disk without the file at a path; without one, it stays as it is. -/
def remove (disk : Disk) (path : List Char) : Disk :=
  match disk.filePlace path with
  | .ok (place, _) => disk.erase place
  | .error _ => disk

/-- The path of an entry from a place above it on, with a slash behind a directory. -/
def entryPath (above : Location) (entry : Location × Item) : String :=
  String.ofList
    (Text.joinWith ['/'] (entry.1.drop above.length) ++
      match entry.2 with
      | .directory => ['/']
      | .file _ => [])

/-- Whether an entry lies below a place. -/
def isBelow (above : Location) (entry : Location × Item) : Bool :=
  above.isPrefixOf entry.1 && above.length < entry.1.length

/-- The paths of all entries below the working directory in ascending order. -/
def listing (disk : Disk) : List String :=
  ((disk.entries.filter (isBelow disk.working)).map (entryPath disk.working)).mergeSort
    fun left right => left ≤ right

/-! ### What an operation changes -/

theorem item?_set_self {location : Location} (below : location ≠ []) (disk : Disk) (item : Item) :
    (disk.set location item).item? location = some item := by
  simp [item?, set, below]

theorem find?_filter_of_ne {entries : List (Location × Item)} {location other : Location}
    (differs : location ≠ other) :
    (entries.filter fun entry => entry.1 != location).find? (fun entry => entry.1 == other) =
      entries.find? fun entry => entry.1 == other := by
  induction entries with
  | nil => rfl
  | cons entry rest ih =>
    by_cases here : entry.1 = location
    · have elsewhere : entry.1 ≠ other := fun same => differs (here.symm.trans same)
      simp [here, ih, differs]
    · simp [here, List.find?_cons, ih]

theorem item?_set_of_ne {location other : Location} (differs : location ≠ other) (disk : Disk)
    (item : Item) : (disk.set location item).item? other = disk.item? other := by
  simp only [item?, set]
  split
  · rfl
  · rw [List.find?_cons_of_neg (by simpa using differs), find?_filter_of_ne differs]

theorem item?_erase_of_ne {location other : Location} (differs : location ≠ other) (disk : Disk) :
    (disk.erase location).item? other = disk.item? other := by
  simp only [item?, erase]
  split
  · rfl
  · rw [find?_filter_of_ne differs]

end Disk

end RecordDiff.Storage
