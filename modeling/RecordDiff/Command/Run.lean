import RecordDiff.Command.Arguments
import RecordDiff.Comparison.Walk
import RecordDiff.Storage.Load
import RecordDiff.Storage.Replace
import RecordDiff.View.Json
import RecordDiff.View.Table

/-!
Running a command on a disk. `diff` compares one or two records and `schema` lists structs; both
only read. `init` writes a file of settings. A command acts on the disk and prints as it goes on, and
stops at a fault with what it has done so far. Main statements:

- `run_disk_of_diff`, `run_disk_of_schema`: reading commands leave the disk as it is;
- `writeSettings_of_existing`: `init` does not touch a path that exists unless it is forced to.
-/

namespace RecordDiff.Command

open RecordDiff.Comparison (Filter Sides Tree)
open RecordDiff.Schema (Field Registry Struct)
open RecordDiff.Storage (Disk loadPatch loadSchema discoverSettings)

/-! ### Comparing -/

/-- A comparison in a format, as it is printed. -/
def render (format : Format) (tree : Tree) : String :=
  match format with
  | .text => View.renderTable tree
  | .json => View.renderJson tree ++ "\n"

/-- The record of the right file, if there is one. -/
def loadRight (disk : Disk) (path : Option String) (offset size : Nat) :
    Except Fault (Option (List UInt8)) :=
  match path with
  | none => .ok none
  | some path => (loadPatch disk path offset size).map some

/-- Runs `diff`: what is not given among the arguments is taken from the settings. The left record
is loaded before the right one. -/
def runDiff (disk : Disk) (arguments : DiffArguments) (settings : Settings) :
    Except Fault String :=
  match loadSchema disk (arguments.schema.getD settings.schema) with
  | .error fault => .error fault
  | .ok registry =>
    let root := arguments.root.getD settings.rootStruct
    let offset := arguments.offset.getD settings.offset
    match registry.byteSize root with
    | .error fault => .error fault
    | .ok size =>
      match loadPatch disk arguments.left offset size with
      | .error fault => .error fault
      | .ok left =>
        match loadRight disk arguments.right offset size with
        | .error fault => .error fault
        | .ok right =>
          (Comparison.compareLabeled registry ⟨some left, right⟩
            (arguments.filter.union settings.filters) root
            (arguments.label.getD settings.rootLabel)).map
              (render (arguments.format.getD settings.format))

/-! ### Listing -/

/-- The size of a struct in words. -/
def sizeText (registry : Registry) (name : String) : String :=
  match registry.byteSize name with
  | .ok size => toString size ++ " bytes"
  | .error _ => "size unknown"

/-- The lines that list a struct. -/
def describeStruct (registry : Registry) (struct : Struct) : String :=
  "struct " ++ struct.name ++ " (" ++ sizeText registry struct.name ++ ")\n" ++
    String.join (struct.fields.map fun field => "  " ++ field.render ++ "\n")

/-- The listing of all structs, or of the one that a name finds. -/
def describe (registry : Registry) (root : Option String) : Except Fault String :=
  match root with
  | none => .ok (String.join (registry.structs.map (describeStruct registry)))
  | some name => (registry.resolve name).map (describeStruct registry)

/-- Runs `schema`. -/
def runSchema (disk : Disk) (arguments : SchemaArguments) (settings : Settings) :
    Except Fault String :=
  match loadSchema disk (arguments.schema.getD settings.schema) with
  | .error fault => .error fault
  | .ok registry => describe registry arguments.root

/-! ### Writing settings -/

/-- The file of settings that `init` writes: the defaults, with a word on each. -/
def settingsTemplate : String :=
  "# patchdiff configuration\n" ++
  "\n" ++
  "# Struct definition file the patch records are decoded with.\n" ++
  "schema: JD-08.patchdef\n" ++
  "\n" ++
  "# Struct each patch record is interpreted as, and the label of its row.\n" ++
  "root_struct: PatchVST\n" ++
  "root_label: Patch\n" ++
  "\n" ++
  "# Byte offset of the patch record in each input file.\n" ++
  "offset: 0\n" ++
  "\n" ++
  "# Output format: text or json.\n" ++
  "format: text\n" ++
  "\n" ++
  "# Row filters. Command-line flags can turn these on.\n" ++
  "filters:\n" ++
  "  diff_only: false\n" ++
  "  show_unknown: false\n" ++
  "  show_precomputed: false\n"

/-- Writes the file of settings, unless something exists at its path and `init` is not forced. -/
def writeSettings (disk : Disk) (arguments : InitArguments) : Disk × Except Fault Unit :=
  let path := arguments.path.toList
  if disk.doesExist path && !arguments.force then
    (disk, .error (.alreadyExists arguments.path))
  else disk.replace path (Text.Utf8.encode settingsTemplate.toList)

/-! ### Running -/

/-- What commands act on: the disk, and what has been printed so far. -/
structure World where
  disk : Disk
  printed : String

namespace World

/-- Prints a text behind what has been printed so far. -/
def print (world : World) (text : String) : World :=
  { world with printed := world.printed ++ text }

/-- Prints a text that is there as a whole; a fault on the way to it is passed on. -/
def printOutcome (world : World) (outcome : Except Fault String) : World × Except Fault Unit :=
  match outcome with
  | .error fault => (world, .error fault)
  | .ok text => (world.print text, .ok ())

end World

/-- Executes an invocation. `init` does not look at the settings, so that a broken file of them can be
replaced. -/
def execute (world : World) (invocation : Invocation) : World × Except Fault Unit :=
  match invocation.action with
  | .init arguments =>
    match writeSettings world.disk arguments with
    | (after, .error fault) => ({ world with disk := after }, .error fault)
    | (after, .ok ()) =>
      (World.print { world with disk := after } ("Wrote " ++ arguments.path ++ "\n"), .ok ())
  | .diff arguments =>
    match discoverSettings world.disk invocation.config with
    | .error fault => (world, .error fault)
    | .ok settings => world.printOutcome (runDiff world.disk arguments settings)
  | .schema arguments =>
    match discoverSettings world.disk invocation.config with
    | .error fault => (world, .error fault)
    | .ok settings => world.printOutcome (runSchema world.disk arguments settings)

/-- Runs an invocation by itself: the disk behind it, and the text it has printed or the fault it ends
in. -/
def run (disk : Disk) (invocation : Invocation) : Disk × Except Fault String :=
  match execute ⟨disk, ""⟩ invocation with
  | (world, .error fault) => (world.disk, .error fault)
  | (world, .ok ()) => (world.disk, .ok world.printed)

/-- What a run shows, on its two channels, and how it ends. -/
structure Report where
  output : String
  complaint : String
  exitCode : Nat
  deriving DecidableEq, Repr

/-- The report on an execution: all that was printed, and a complaint about the fault at its end. -/
def Report.ofExecution : World × Except Fault Unit → Report
  | (world, .error fault) => ⟨world.printed, "Error: " ++ fault.text ++ "\n", fault.exitCode⟩
  | (world, .ok ()) => ⟨world.printed, "", 0⟩

/-- The report on an invocation that runs by itself. -/
def report (disk : Disk) (invocation : Invocation) : Report :=
  .ofExecution (execute ⟨disk, ""⟩ invocation)

/-- How much a run reports about itself. -/
inductive ReportLevel where
  | warn
  | info
  | debug
  | trace
  deriving DecidableEq, Repr

/-- The level that a number of requests for more gives. -/
def ReportLevel.ofVerbosity : Nat → ReportLevel
  | 0 => warn
  | 1 => info
  | 2 => debug
  | _ => trace

@[simp] theorem World.disk_printOutcome (world : World) (outcome : Except Fault String) :
    (world.printOutcome outcome).1.disk = world.disk := by
  cases outcome <;> rfl

theorem run_disk (disk : Disk) (invocation : Invocation) :
    (run disk invocation).1 = (execute ⟨disk, ""⟩ invocation).1.disk := by
  unfold run
  split
  · rename_i executed
    rw [executed]
  · rename_i executed
    rw [executed]

theorem run_disk_of_diff (disk : Disk) {invocation : Invocation} {arguments : DiffArguments}
    (action : invocation.action = .diff arguments) : (run disk invocation).1 = disk := by
  rw [run_disk, execute, action]
  cases discoverSettings disk invocation.config with
  | error fault => rfl
  | ok settings => exact World.disk_printOutcome _ _

theorem run_disk_of_schema (disk : Disk) {invocation : Invocation} {arguments : SchemaArguments}
    (action : invocation.action = .schema arguments) : (run disk invocation).1 = disk := by
  rw [run_disk, execute, action]
  cases discoverSettings disk invocation.config with
  | error fault => rfl
  | ok settings => exact World.disk_printOutcome _ _

theorem writeSettings_of_existing {disk : Disk} {path : String}
    (found : disk.doesExist path.toList = true) :
    writeSettings disk ⟨path, false⟩ = (disk, .error (.alreadyExists path)) := by
  simp [writeSettings, found]

end RecordDiff.Command
