import RecordDiff.Command.Run

/-!
The program. Its arguments name a command; what that command looks at is taken from the system onto
a disk, the command runs there, and what it has changed on the disk is carried over to the system.
Everything that is decided is decided by `Command.readArguments` and `Command.execute`.
-/

namespace RecordDiff

open RecordDiff.Command (Invocation Refusal)
open RecordDiff.Storage (Disk Item Location)

/-! ### The system as a disk -/

/-- The path of a place on the system. -/
def systemPath (location : Location) : String :=
  String.ofList ('/' :: Text.joinWith ['/'] location)

/-- What the system has at a place. What cannot be read counts as absent. -/
def systemItem? (location : Location) : IO (Option Item) := do
  try
    let path ← IO.FS.realPath (systemPath location)
    if ← path.isDir then
      return some .directory
    else
      return some (.file (← IO.FS.readBinFile path).toList)
  catch _ => return none

/-- Puts onto a disk what the system has on the way along parts of a path. -/
def captureParts (disk : Disk) (here : Location) : List (List Char) → IO Disk
  | [] => return disk
  | part :: rest => do
    if part.isEmpty || part == Storage.dot then captureParts disk here rest
    else if part == Storage.dotDot then captureParts disk (Disk.above here) rest
    else
      match ← systemItem? (here ++ [part]) with
      | none => captureParts disk (here ++ [part]) rest
      | some item => captureParts (disk.set (here ++ [part]) item) (here ++ [part]) rest

/-- Puts onto a disk what the system has at a path and above it. -/
def capturePath (disk : Disk) (path : List Char) : IO Disk :=
  captureParts disk (disk.startOf path) (Storage.pathParts path)

/-- The disk with nothing on it but the directory where the program runs. -/
def workingDisk : IO Disk := do
  let path := (← IO.currentDir).toString.toList
  return .startingIn ((Storage.pathParts path).filter fun part => !part.isEmpty)

/-- The paths that an action looks at under the given settings. -/
def inputPaths (settings : Settings) : Command.Action → List String
  | .diff arguments =>
    arguments.schema.getD settings.schema :: arguments.left :: arguments.right.toList
  | .schema arguments => [arguments.schema.getD settings.schema]
  | .init arguments =>
    arguments.path ::
      ((Storage.temporaryPath? arguments.path.toList).map String.ofList).toList

/-- The disk that an invocation runs on. -/
def captureInputs (invocation : Invocation) : IO Disk := do
  let settingsPath := invocation.config.getD Settings.fileName
  let disk ← capturePath (← workingDisk) settingsPath.toList
  let settings := (Storage.discoverSettings disk invocation.config).toOption.getD {}
  (inputPaths settings invocation.action).foldlM (fun disk path => capturePath disk path.toList)
    disk

/-! ### Changes -/

/-- Makes a directory on the system, or replaces a file there as a whole. -/
def writeItem (location : Location) (item : Item) : IO Unit :=
  match item with
  | .directory => IO.FS.createDir (systemPath location)
  | .file content => do
    let target := systemPath location
    let temporary := ((Storage.temporaryPath? target.toList).map String.ofList).getD target
    IO.FS.writeBinFile temporary ⟨content.toArray⟩
    IO.FS.rename temporary target

/-- Carries over to the system what is different on a later disk, the oldest entries first. -/
def commit (before after : Disk) : IO Unit := do
  for (location, _) in before.entries do
    if after.item? location = none then
      IO.FS.removeFile (systemPath location)
  for (location, item) in after.entries.reverse do
    if before.item? location ≠ some item then
      writeItem location item

/-! ### Running -/

/-- What is shown to those who ask for help, or whose arguments are refused. -/
def usage : String :=
  "Usage: patchdiff [-v]... [--config FILE] COMMAND\n" ++
  "\n" ++
  "Commands:\n" ++
  "  diff LEFT [RIGHT]   compare two records, or show one\n" ++
  "      [--schema FILE] [--root STRUCT] [--label TEXT] [--offset NUMBER]\n" ++
  "      [--diff-only] [--show-unknown] [--show-precomputed] [--format text|json]\n" ++
  "  schema              list structs with their sizes and fields\n" ++
  "      [--schema FILE] [--root STRUCT]\n" ++
  "  init [PATH]         write a file of default settings\n" ++
  "      [--force]\n"

/-- What is shown to those who ask for the version. -/
def versionText : String := "patchdiff 0.1.0\n"

/-- Reports a refusal of the arguments. -/
def reportRefusal (refusal : Refusal) : IO UInt32 := do
  match refusal with
  | .help => IO.print usage
  | .version => IO.print versionText
  | _ =>
    if let some message := refusal.message? then
      IO.eprintln ("error: " ++ message)
    IO.eprint usage
  return refusal.exitCode.toUInt32

/-- Runs an invocation on the system. -/
def runOnSystem (invocation : Invocation) : IO UInt32 := do
  let before ← captureInputs invocation
  let (after, outcome) := Command.execute ⟨before, ""⟩ invocation
  commit before after.disk
  let report := Command.Report.ofExecution (after, outcome)
  IO.print report.output
  IO.eprint report.complaint
  return report.exitCode.toUInt32

end RecordDiff

/-- Runs the program on its arguments; the answer is the exit code. -/
def main (arguments : List String) : IO UInt32 :=
  match RecordDiff.Command.readArguments arguments with
  | .error refusal => RecordDiff.reportRefusal refusal
  | .ok invocation => RecordDiff.runOnSystem invocation
