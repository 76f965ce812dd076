import RecordDiff.Fault
import RecordDiff.Storage.Disk

/-!
Replacing a file as a whole. The content is written to a temporary file beside the target, which
then takes the place of the target, so that nobody ever sees half of it; missing directories above
the target are made first.
-/

namespace RecordDiff.Storage

namespace Disk

/-- Makes the directories above a path, where they are missing. -/
def prepareParent (disk : Disk) (path : List Char) : Disk × Except Fault Unit :=
  match parent? path with
  | none => (disk, .ok ())
  | some parent =>
    if parent.isEmpty || disk.doesExist parent then (disk, .ok ())
    else
      match disk.makeDirectories parent with
      | (made, .ok ()) => (made, .ok ())
      | (made, .error cause) => (made, .error (.noParent (String.ofList parent) cause))

/-- Writes a content to the temporary file and moves that to the target. If it cannot be moved, it
is removed again. -/
def replaceThrough (disk : Disk) (temporary path : List Char) (content : List UInt8) :
    Disk × Except Fault Unit :=
  match disk.write temporary content with
  | .error cause => (disk, .error (.noTemporary (String.ofList temporary) cause))
  | .ok written =>
    match written.rename temporary path with
    | .error cause => (written.remove temporary, .error (.notReplaced (String.ofList path) cause))
    | .ok replaced => (replaced, .ok ())

/-- The disk with a file of the given content at a path, all of it or none. -/
def replace (disk : Disk) (path : List Char) (content : List UInt8) : Disk × Except Fault Unit :=
  match disk.prepareParent path with
  | (made, .error fault) => (made, .error fault)
  | (made, .ok ()) =>
    match temporaryPath? path with
    | none => (made, .error (.invalidPath (String.ofList path)))
    | some temporary => made.replaceThrough temporary path content

end Disk

end RecordDiff.Storage
