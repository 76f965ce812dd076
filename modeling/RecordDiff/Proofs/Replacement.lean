import RecordDiff.Proofs.Places
import RecordDiff.Storage.Replace

/-!
Replacing a file as a whole, whatever is on the disk. The directories above the target are made
first, and stay even where the rest fails; all else is done in the place of the temporary file, until
one step puts it into the place of the target. Main statements:

- `Disk.makeAll_gains`: making directories adds directories on the way, and nothing else;
- `Disk.write_eq_ok`, `Disk.rename_eq_ok`: what has to be where for a file to be written or renamed;
- `Disk.replaceThrough_eq_error`: all that the temporary file can change;
- `Disk.replace_eq_ok_iff`: what has to be where for a replacement to succeed;
- `Disk.replace_whole`: a replacement is complete, or only the directories above the target and a
  temporary file from before can be different;
- `Disk.replace_makes_target`: one of these directories can stand where the target was to be.
-/

namespace RecordDiff.Storage

namespace Disk

/-! ### Directories that are made -/

/-- At a place there is what was there before, or a directory that was made there: the place is one
of those given, and there was nothing. -/
def SameOrMade (disk : Disk) (places : List Location) (after : Disk) (place : Location) : Prop :=
  after.item? place = disk.item? place ∨
    place ∈ places ∧ disk.item? place = none ∧ after.item? place = some .directory

/-- `disk.Gains places after`: the later disk has more directories, at some of the places, and is
else the same. -/
structure Gains (disk : Disk) (places : List Location) (after : Disk) : Prop where
  working : after.working = disk.working
  items : ∀ place, disk.SameOrMade places after place

section Gaining

variable {disk made after : Disk} {path : List Char} {places more : List Location}
  {place : Location} {octets : List UInt8}

theorem Gains.refl (disk : Disk) (places : List Location) : disk.Gains places disk :=
  ⟨rfl, fun _ => .inl rfl⟩

theorem Gains.trans (first : disk.Gains places made) (second : made.Gains places after) :
    disk.Gains places after := by
  constructor
  · rw [second.working, first.working]
  · intro place
    rcases second.items place with same | ⟨member, nothing, new⟩
    · rcases first.items place with sameBefore | ⟨member, nothing, new⟩
      · exact .inl (same.trans sameBefore)
      · exact .inr ⟨member, nothing, same.trans new⟩
    · rcases first.items place with sameBefore | ⟨-, -, newBefore⟩
      · exact .inr ⟨member, sameBefore ▸ nothing, new⟩
      · rw [newBefore] at nothing
        cases nothing

theorem Gains.mono (gains : disk.Gains places after) (inside : places ⊆ more) :
    disk.Gains more after := by
  refine ⟨gains.working, fun place => ?_⟩
  rcases gains.items place with same | ⟨member, nothing, new⟩
  · exact .inl same
  · exact .inr ⟨inside member, nothing, new⟩

theorem Gains.startOf_eq (gains : disk.Gains places after) (path : List Char) :
    after.startOf path = disk.startOf path := by
  rw [startOf, startOf, gains.working]

theorem Gains.placeOf_eq (gains : disk.Gains places after) (path : List Char) :
    after.placeOf path = disk.placeOf path := by
  rw [placeOf, placeOf, gains.startOf_eq]

theorem Gains.placesAbove_eq (gains : disk.Gains places after) (path : List Char) :
    after.placesAbove path = disk.placesAbove path := by
  unfold placesAbove
  cases parent? path with
  | none => rfl
  | some parent => simp only [gains.startOf_eq]

/-- A file that is there was there before. -/
theorem Gains.file (gains : disk.Gains places after)
    (there : after.item? place = some (.file octets)) : disk.item? place = some (.file octets) := by
  rcases gains.items place with same | ⟨-, -, new⟩
  · rw [← same, there]
  · rw [new] at there
    cases there

theorem Gains.set_directory (nothing : disk.item? place = none) (below : place ≠ [])
    (member : place ∈ places) : disk.Gains places (disk.set place .directory) := by
  refine ⟨rfl, fun other => ?_⟩
  by_cases here : other = place
  · subst here
    exact .inr ⟨member, nothing, item?_set_self below disk _⟩
  · exact .inl (item?_set_of_ne (Ne.symm here) disk _)

theorem makeDirectory_gains (ok : disk.makeDirectory path = .ok made) :
    disk.Gains (entered (disk.startOf path) (steps path)) made := by
  unfold makeDirectory at ok
  cases located : disk.locate path with
  | error cause =>
    rw [located] at ok
    cases ok
  | ok found =>
    obtain ⟨here, route⟩ := found
    simp only [located, Bool.not_eq_true'] at ok
    split at ok
    · cases ok
    · rename_i named
      split at ok
      · cases ok
      · split at ok
        · cases ok
        · rename_i nothing
          obtain rfl := Except.ok.inj ok
          obtain ⟨front, whole, isName, rfl, -⟩ := steps_of_locate located (by simpa using named)
          apply Gains.set_directory nothing (by simp)
          rw [whole]
          exact goal_mem_entered isName.noDots _ front

theorem ensureDirectory_gains (ok : disk.ensureDirectory path = .ok made) :
    disk.Gains (entered (disk.startOf path) (steps path)) made := by
  unfold ensureDirectory at ok
  split at ok
  · rename_i new
    obtain rfl := Except.ok.inj ok
    exact makeDirectory_gains new
  · split at ok
    · obtain rfl := Except.ok.inj ok
      exact .refl _ _
    · cases ok

/-- The places that the path above a path enters are entered by the path as well. -/
theorem entered_parent_subset {parent : List Char} (above : parent? path = some parent) :
    entered (disk.startOf parent) (steps parent) ⊆ entered (disk.startOf path) (steps path) := by
  obtain ⟨back, whole, start⟩ := exists_steps_of_parent? above
  have sameStart : disk.startOf parent = disk.startOf path := startOf_congr start disk
  rw [whole, entered_append, sameStart]
  exact List.subset_append_left _ _

/-- Making directories adds directories on the way, and nothing else, even where it fails. -/
theorem makeAll_gains (disk : Disk) (path : List Char) (levels : Nat) :
    disk.Gains (entered (disk.startOf path) (steps path)) (disk.makeAll path levels).1 := by
  induction levels generalizing path with
  | zero => exact .refl _ _
  | succ levels ih =>
    unfold makeAll
    split
    · exact .refl _ _
    · split
      · rename_i made ok
        exact ensureDirectory_gains ok
      · cases above : parent? path with
        | none => exact .refl _ _
        | some parent =>
          have gains := (ih parent).mono (entered_parent_subset above)
          dsimp only
          split
          · rename_i made cause failed
            rwa [failed] at gains
          · rename_i made done
            rw [done] at gains
            split
            · rename_i complete ok
              have last := ensureDirectory_gains ok
              rw [gains.startOf_eq] at last
              exact gains.trans last
            · exact gains
      · exact .refl _ _

/-- Making the directories above a path adds some of these, and nothing else. -/
theorem prepareParent_gains (disk : Disk) (path : List Char) :
    disk.Gains (disk.placesAbove path) (disk.prepareParent path).1 := by
  unfold prepareParent placesAbove
  cases parent? path with
  | none => exact .refl _ _
  | some parent =>
    dsimp only
    split
    · exact .refl _ _
    · have gains := makeAll_gains disk parent (parent.length + 1)
      unfold makeDirectories
      split
      · rename_i made done
        rwa [done] at gains
      · rename_i made cause failed
        rwa [failed] at gains

end Gaining

/-! ### Paths of files -/

/-- `disk.Names path here last`: the path can be followed to a directory, and ends in a name that a
file there can have. -/
def Names (disk : Disk) (path : List Char) (here : Location) (last : List Char) : Prop :=
  ∃ route, disk.locate path = .ok (here, route) ∧ route.isNamed = true ∧ route.slashed = false ∧
    route.last = last ∧ isLongName last = false

section Naming

variable {disk other : Disk} {path source target : List Char} {here : Location}
  {last : List Char} {content octets : List UInt8}

theorem Names.of_directories (working : other.working = disk.working)
    (directories : ∀ place, disk.item? place = some .directory →
      other.item? place = some .directory)
    (names : disk.Names path here last) : other.Names path here last := by
  obtain ⟨route, located, shape⟩ := names
  exact ⟨route, locate_of_directories working directories located, shape⟩

theorem Names.place?_eq (names : disk.Names path here last) :
    disk.place? path = some (here ++ [last]) := by
  obtain ⟨route, located, named, -, rfl, -⟩ := names
  simp [place?, located, named]

theorem Names.status_eq (names : disk.Names path here last) :
    disk.status path = match disk.item? (here ++ [last]) with
      | none => .error .missing
      | some item => .ok item := by
  obtain ⟨route, located, named, noSlash, rfl, short⟩ := names
  simp only [status, located, named, short, noSlash]
  cases disk.item? (here ++ [route.last]) with
  | none => rfl
  | some item => cases item <;> rfl

theorem Names.read_eq (names : disk.Names path here last)
    (there : disk.item? (here ++ [last]) = some (.file content)) : disk.read path = .ok content := by
  rw [read, names.status_eq, there]

theorem Names.doesExist_eq (names : disk.Names path here last) :
    disk.doesExist path = (disk.item? (here ++ [last])).isSome := by
  rw [doesExist, names.status_eq]
  cases disk.item? (here ++ [last]) <;> rfl

/-- The place of a file is one step away from where the other steps of its path lead. -/
theorem Names.steps_eq (names : disk.Names path here last) :
    ∃ front, steps path = front ++ [last] ∧ IsName last ∧ goal (disk.startOf path) front = here ∧
      ∀ place ∈ entered (disk.startOf path) front, disk.item? place = some .directory := by
  obtain ⟨route, located, named, -, rfl, -⟩ := names
  exact steps_of_locate located named

theorem Names.placeOf_eq (names : disk.Names path here last) : disk.placeOf path = here ++ [last] := by
  obtain ⟨front, whole, isName, rfl, -⟩ := names.steps_eq
  rw [placeOf, whole, goal_name isName.noDots]

/-- The path above the path of a file enters directories only. -/
theorem Names.directories_above {temporary : List Char}
    (found : temporaryPath? path = some temporary) (names : disk.Names path here last) :
    ∀ place ∈ disk.placesAbove path, disk.item? place = some .directory := by
  obtain ⟨name, named, -⟩ := Option.map_eq_some_iff.1 found
  obtain ⟨-, parent, above, whole, start⟩ := steps_of_fileName? named
  obtain ⟨front, wholeToo, -, -, directories⟩ := names.steps_eq
  obtain ⟨rfl, -⟩ := List.append_inj' (wholeToo.symm.trans whole) rfl
  have sameStart : disk.startOf parent = disk.startOf path := startOf_congr start disk
  intro place member
  rw [placesAbove, above] at member
  dsimp only at member
  rw [sameStart] at member
  exact directories place member

/-- A file is written where its path leads, unless a directory is there. -/
theorem write_eq_ok (ok : disk.write path content = .ok other) :
    ∃ here last, disk.Names path here last ∧ disk.item? (here ++ [last]) ≠ some .directory ∧
      other = disk.set (here ++ [last]) (.file content) := by
  unfold write at ok
  cases located : disk.locate path with
  | error cause =>
    rw [located] at ok
    cases ok
  | ok found =>
    obtain ⟨here, route⟩ := found
    simp only [located] at ok
    split at ok
    · cases ok
    · rename_i shape
      split at ok
      · cases ok
      · rename_i short
        split at ok
        · cases ok
        · rename_i noDirectory
          simp only [Bool.or_eq_true, Bool.not_eq_true', not_or, Bool.not_eq_false,
            Bool.not_eq_true] at shape short
          exact ⟨here, route.last, ⟨route, located, shape.1, shape.2, rfl, short⟩, noDirectory,
            (Except.ok.inj ok).symm⟩

theorem Names.write_eq (names : disk.Names path here last)
    (noDirectory : disk.item? (here ++ [last]) ≠ some .directory) (content : List UInt8) :
    disk.write path content = .ok (disk.set (here ++ [last]) (.file content)) := by
  obtain ⟨route, located, named, noSlash, rfl, short⟩ := names
  simp only [write, located, named, noSlash, short, Bool.not_true, Bool.or_self,
    Bool.false_eq_true, if_false]

/-- The file at one path takes the place that another path leads to, unless a directory is there. -/
theorem rename_eq_ok (ok : disk.rename source target = .ok other) :
    ∃ place content here last, disk.filePlace source = .ok (place, content) ∧
      disk.Names target here last ∧ disk.item? (here ++ [last]) ≠ some .directory ∧
      other = (disk.erase place).set (here ++ [last]) (.file content) := by
  unfold rename at ok
  split at ok
  · cases ok
  · cases ok
  · rename_i place content here route taken located
    split at ok
    · cases ok
    · rename_i named
      split at ok
      · cases ok
      · rename_i short
        split at ok
        · cases ok
        · rename_i noSlash
          split at ok
          · cases ok
          · rename_i noDirectory
            simp only [Bool.not_eq_true', Bool.not_eq_false, Bool.not_eq_true] at named short noSlash
            exact ⟨place, content, here, route.last, taken,
              ⟨route, located, named, noSlash, rfl, short⟩, noDirectory,
              (Except.ok.inj ok).symm⟩

theorem Names.rename_eq {place : Location} (names : disk.Names target here last)
    (taken : disk.filePlace source = .ok (place, content))
    (noDirectory : disk.item? (here ++ [last]) ≠ some .directory) :
    disk.rename source target = .ok ((disk.erase place).set (here ++ [last]) (.file content)) := by
  obtain ⟨route, located, named, noSlash, rfl, short⟩ := names
  simp only [rename, taken, located, named, noSlash, short, Bool.not_true, Bool.false_eq_true,
    if_false]

theorem Names.filePlace_eq (names : disk.Names path here last)
    (there : disk.item? (here ++ [last]) = some (.file content)) :
    disk.filePlace path = .ok (here ++ [last], content) := by
  obtain ⟨route, located, -, -, rfl, -⟩ := names
  simp [filePlace, located, there]

end Naming

/-! ### The temporary file -/

section Through

variable {disk after : Disk} {temporary path : List Char} {content : List UInt8} {fault : Fault}
  {here : Location} {last : List Char}

theorem item?_erase_self {place : Location} (below : place ≠ []) (disk : Disk) :
    (disk.erase place).item? place = none := by
  simp [item?, erase, below]

/-- Where a file is put in the place of no directory, the directories stay what they were. -/
theorem item?_set_eq_directory_iff {place : Location} (below : place ≠ [])
    (noDirectory : disk.item? place ≠ some .directory) (content : List UInt8) (other : Location) :
    (disk.set place (.file content)).item? other = some .directory ↔
      disk.item? other = some .directory := by
  by_cases here : place = other
  · subst here
    simp [item?_set_self below, noDirectory]
  · rw [item?_set_of_ne here]

/-- Paths can be followed as before where a file is put in the place of no directory. -/
theorem names_set_iff {place : Location} (content : List UInt8) (below : place ≠ [])
    (noDirectory : disk.item? place ≠ some .directory) :
    (disk.set place (.file content)).Names path here last ↔ disk.Names path here last := by
  have directories := item?_set_eq_directory_iff below noDirectory content
  constructor
  · intro names
    refine names.of_directories ?_ fun other => (directories other).1
    rfl
  · intro names
    refine names.of_directories ?_ fun other => (directories other).2
    rfl

/-- The disk with a content written to one place and moved from there to another. -/
def moved (disk : Disk) (place target : Location) (content : List UInt8) : Disk :=
  ((disk.set place (.file content)).erase place).set target (.file content)

/-- A content that was written and moved is in its last place only, and all else is as before. -/
theorem item?_moved (disk : Disk) {place target : Location} (below : place ≠ [])
    (belowTarget : target ≠ []) (differs : target ≠ place) (content : List UInt8) :
    (disk.moved place target content).item? target = some (.file content) ∧
      (disk.moved place target content).item? place = none ∧
      ∀ other, other ≠ target → other ≠ place →
        (disk.moved place target content).item? other = disk.item? other := by
  refine ⟨item?_set_self belowTarget _ _, ?_, ?_⟩
  · rw [moved, item?_set_of_ne differs, item?_erase_self below]
  · intro other notTarget notPlace
    rw [moved, item?_set_of_ne (Ne.symm notTarget), item?_erase_of_ne (Ne.symm notPlace),
      item?_set_of_ne (Ne.symm notPlace)]

/-- The temporary file beside a file is in the same directory. -/
theorem Names.beside {there : Location} {name : List Char}
    (found : temporaryPath? path = some temporary) (names : disk.Names temporary here last)
    (target : disk.Names path there name) : there = here ∧ last = temporaryName name := by
  obtain ⟨other, front, -, steps, stepsBeside, start⟩ := steps_temporaryPath? found
  obtain ⟨above, stepsTarget, -, leadsTarget, -⟩ := target.steps_eq
  obtain ⟨aboveToo, stepsNames, -, leads, -⟩ := names.steps_eq
  obtain ⟨rfl, sameName⟩ := List.append_inj' (stepsTarget.symm.trans steps) rfl
  obtain ⟨rfl, sameLast⟩ := List.append_inj' (stepsNames.symm.trans stepsBeside) rfl
  obtain rfl : name = other := by simpa using sameName
  have sameStart : disk.startOf temporary = disk.startOf path := startOf_congr start disk
  constructor
  · rw [← leadsTarget, ← leads, sameStart]
  · simpa using sameLast

/-- A replacement succeeds exactly if the temporary file can be written and moved to the target, which
is in the same directory, and this is what it does. -/
theorem replaceThrough_eq_ok_iff (found : temporaryPath? path = some temporary) :
    disk.replaceThrough temporary path content = (after, .ok ()) ↔
      ∃ here name, disk.Names temporary here (temporaryName name) ∧ disk.Names path here name ∧
        disk.item? (here ++ [temporaryName name]) ≠ some .directory ∧
        disk.item? (here ++ [name]) ≠ some .directory ∧
        after = disk.moved (here ++ [temporaryName name]) (here ++ [name]) content := by
  constructor
  · intro ok
    unfold replaceThrough at ok
    cases written : disk.write temporary content with
    | error cause =>
      rw [written] at ok
      cases (Prod.mk.inj ok).2
    | ok other =>
      obtain ⟨here, last, names, noDirectory, rfl⟩ := write_eq_ok written
      have below : here ++ [last] ≠ [] := by simp
      rw [written] at ok
      dsimp only at ok
      split at ok
      · cases (Prod.mk.inj ok).2
      · rename_i replaced renamed
        obtain rfl := (Prod.mk.inj ok).1
        obtain ⟨place, octets, there, name, taken, target, noTarget, rfl⟩ := rename_eq_ok renamed
        -- what was just written is what is moved
        have namesToo := (names_set_iff content below noDirectory).2 names
        rw [namesToo.filePlace_eq (item?_set_self below disk _)] at taken
        obtain ⟨rfl, rfl⟩ := Prod.mk.inj (Except.ok.inj taken)
        rw [names_set_iff content below noDirectory] at target
        rw [ne_eq, item?_set_eq_directory_iff below noDirectory] at noTarget
        obtain ⟨rfl, rfl⟩ := names.beside found target
        exact ⟨there, name, names, target, noDirectory, noTarget, rfl⟩
  · rintro ⟨here, name, names, target, noDirectory, noTarget, rfl⟩
    have below : here ++ [temporaryName name] ≠ [] := by simp
    have namesToo := (names_set_iff content below noDirectory).2 names
    have targetToo := (names_set_iff content below noDirectory).2 target
    have taken := namesToo.filePlace_eq (item?_set_self below disk _)
    have noTargetToo : (disk.set (here ++ [temporaryName name]) (.file content)).item?
        (here ++ [name]) ≠ some .directory := by
      rwa [ne_eq, item?_set_eq_directory_iff below noDirectory]
    rw [replaceThrough, names.write_eq noDirectory]
    dsimp only
    rw [targetToo.rename_eq taken noTargetToo]
    rfl

/-- A replacement that fails has changed nothing, or taken the temporary file away again. -/
theorem replaceThrough_eq_error
    (failed : disk.replaceThrough temporary path content = (after, .error fault)) :
    after = disk ∨ ∃ here last, disk.Names temporary here last ∧
      disk.item? (here ++ [last]) ≠ some .directory ∧
      after = (disk.set (here ++ [last]) (.file content)).erase (here ++ [last]) := by
  unfold replaceThrough at failed
  cases written : disk.write temporary content with
  | error cause =>
    rw [written] at failed
    exact .inl (Prod.mk.inj failed).1.symm
  | ok other =>
    obtain ⟨here, last, names, noDirectory, rfl⟩ := write_eq_ok written
    have below : here ++ [last] ≠ [] := by simp
    have namesToo := (names_set_iff content below noDirectory).2 names
    have taken := namesToo.filePlace_eq (item?_set_self below disk _)
    rw [written] at failed
    dsimp only at failed
    split at failed
    · refine .inr ⟨here, last, names, noDirectory, ?_⟩
      have removed := (Prod.mk.inj failed).1.symm
      rwa [remove, taken] at removed
    · cases (Prod.mk.inj failed).2

end Through

/-! ### All or nothing -/

section Whole

variable {disk after : Disk} {path : List Char} {content : List UInt8} {fault : Fault}

/-- A replacement succeeds exactly if it does so once the directories above the target are made. -/
theorem replace_eq_ok_iff :
    disk.replace path content = (after, .ok ()) ↔
      ∃ made temporary here name, disk.prepareParent path = (made, .ok ()) ∧
        temporaryPath? path = some temporary ∧
        made.Names temporary here (temporaryName name) ∧ made.Names path here name ∧
        made.item? (here ++ [temporaryName name]) ≠ some .directory ∧
        made.item? (here ++ [name]) ≠ some .directory ∧
        after = made.moved (here ++ [temporaryName name]) (here ++ [name]) content := by
  constructor
  · intro ok
    unfold replace at ok
    split at ok
    · cases (Prod.mk.inj ok).2
    · rename_i made prepared
      split at ok
      · cases (Prod.mk.inj ok).2
      · rename_i temporary found
        obtain ⟨here, name, through⟩ := (replaceThrough_eq_ok_iff found).1 ok
        exact ⟨made, temporary, here, name, prepared, found, through⟩
  · rintro ⟨made, temporary, here, name, prepared, found, through⟩
    rw [replace, prepared]
    dsimp only
    rw [found]
    exact (replaceThrough_eq_ok_iff found).2 ⟨here, name, through⟩

theorem replace_eq_error (failed : disk.replace path content = (after, .error fault)) :
    ∃ made, disk.Gains (disk.placesAbove path) made ∧
      (after = made ∨ ∃ temporary here last, temporaryPath? path = some temporary ∧
        made.Names temporary here last ∧ made.item? (here ++ [last]) ≠ some .directory ∧
        after = (made.set (here ++ [last]) (.file content)).erase (here ++ [last])) := by
  have gains := prepareParent_gains disk path
  unfold replace at failed
  split at failed
  · rename_i made cause prepared
    rw [prepared] at gains
    exact ⟨made, gains, .inl (Prod.mk.inj failed).1.symm⟩
  · rename_i made prepared
    rw [prepared] at gains
    refine ⟨made, gains, ?_⟩
    split at failed
    · exact .inl (Prod.mk.inj failed).1.symm
    · rename_i temporary found
      rcases replaceThrough_eq_error failed with same | ⟨here, last, through⟩
      · exact .inl same
      · exact .inr ⟨temporary, here, last, found, through⟩

/-- The temporary file of a path is never at the place of the path. -/
theorem placeOf_temporary (disk : Disk) {temporary : List Char}
    (found : temporaryPath? path = some temporary) :
    ∃ directory name, disk.placeOf path = directory ++ [name] ∧
      disk.placeOf temporary = directory ++ [temporaryName name] := by
  obtain ⟨name, front, isName, whole, wholeBeside, start⟩ := steps_temporaryPath? found
  refine ⟨goal (disk.startOf path) front, name, ?_, ?_⟩
  · rw [placeOf, whole, goal_name isName.noDots]
  · have sameStart : disk.startOf temporary = disk.startOf path := startOf_congr start disk
    rw [placeOf, wholeBeside, goal_name isName.temporaryName.noDots, sameStart]

theorem placeOf_temporary_ne {temporary : List Char}
    (found : temporaryPath? path = some temporary) : disk.placeOf path ≠ disk.placeOf temporary := by
  obtain ⟨directory, name, target, beside⟩ := placeOf_temporary disk found
  rw [target, beside]
  intro same
  have sameName := List.append_cancel_left same
  exact temporaryName_ne name (by simpa using sameName.symm)

/-- Behind a replacement that succeeds the content is at the target, there is no temporary file, and
all else is as before but for directories above the target. -/
theorem changes_of_replace_eq_ok (ok : disk.replace path content = (after, .ok ())) :
    after.working = disk.working ∧ ∃ temporary, temporaryPath? path = some temporary ∧
      (after.read path = .ok content ∧ after.place? path = some (disk.placeOf path) ∧
        after.item? (disk.placeOf path) = some (.file content)) ∧
      (after.doesExist temporary = false ∧ after.place? temporary = some (disk.placeOf temporary) ∧
        after.item? (disk.placeOf temporary) = none) ∧
      (∀ place ∈ disk.placesAbove path, after.item? place = some .directory) ∧
      ∀ place, place ≠ disk.placeOf path → place ≠ disk.placeOf temporary →
        disk.SameOrMade (disk.placesAbove path) after place := by
  obtain ⟨made, temporary, here, name, prepared, found, names, target, noDirectory, noTarget, rfl⟩ :=
    replace_eq_ok_iff.1 ok
  have gains := prepareParent_gains disk path
  rw [prepared] at gains
  have differs : here ++ [name] ≠ here ++ [temporaryName name] := by
    intro same
    exact temporaryName_ne name (by simpa using same.symm)
  obtain ⟨written, cleared, others⟩ := item?_moved made (by simp) (by simp) differs content
  have directories : ∀ place, made.item? place = some .directory →
      (made.moved (here ++ [temporaryName name]) (here ++ [name]) content).item? place =
        some .directory := by
    intro place there
    rw [others place, there]
    · rintro rfl
      exact noTarget there
    · rintro rfl
      exact noDirectory there
  have targetAfter := target.of_directories (by rfl) directories
  have namesAfter := names.of_directories (by rfl) directories
  have place : here ++ [name] = disk.placeOf path := by
    rw [← target.placeOf_eq, gains.placeOf_eq]
  have placeBeside : here ++ [temporaryName name] = disk.placeOf temporary := by
    rw [← names.placeOf_eq, gains.placeOf_eq]
  refine ⟨gains.working, temporary, found, ?_⟩
  rw [← place, ← placeBeside]
  refine ⟨⟨targetAfter.read_eq written, targetAfter.place?_eq, written⟩,
    ⟨?_, namesAfter.place?_eq, cleared⟩, ?_, ?_⟩
  · rw [namesAfter.doesExist_eq, cleared]
    rfl
  · intro above member
    rw [← gains.placesAbove_eq] at member
    exact directories above (target.directories_above found above member)
  · intro other notTarget notBeside
    rcases gains.items other with same | ⟨member, nothing, new⟩
    · exact .inl ((others other notTarget notBeside).trans same)
    · exact .inr ⟨member, nothing, (others other notTarget notBeside).trans new⟩

/-- Behind a replacement that fails all is as before but for directories above the target, and for a
temporary file from before, which may be gone. -/
theorem changes_of_replace_eq_error (failed : disk.replace path content = (after, .error fault)) :
    after.working = disk.working ∧ ∀ place, disk.SameOrMade (disk.placesAbove path) after place ∨
      ∃ temporary octets, temporaryPath? path = some temporary ∧ place = disk.placeOf temporary ∧
        disk.item? place = some (.file octets) ∧ after.item? place = none := by
  obtain ⟨made, gains, rfl | ⟨temporary, here, last, found, names, noDirectory, rfl⟩⟩ :=
    replace_eq_error failed
  · exact ⟨gains.working, fun place => .inl (gains.items place)⟩
  · refine ⟨gains.working, fun place => ?_⟩
    have below : here ++ [last] ≠ [] := by simp
    by_cases beside : place = here ++ [last]
    · subst beside
      have cleared := item?_erase_self below (made.set (here ++ [last]) (.file content))
      cases item : made.item? (here ++ [last]) with
      | none =>
        -- there was nothing before either, since directories are never taken away
        rcases gains.items (here ++ [last]) with same | ⟨-, -, new⟩
        · exact .inl (.inl (cleared.trans (item.symm.trans same)))
        · rw [new] at item
          cases item
      | some there =>
        cases there with
        | directory => exact absurd item noDirectory
        | file octets =>
          refine .inr ⟨temporary, octets, found, ?_, gains.file item, cleared⟩
          rw [← names.placeOf_eq, gains.placeOf_eq]
    · have same : ((made.set (here ++ [last]) (.file content)).erase (here ++ [last])).item? place =
          made.item? place := by
        rw [item?_erase_of_ne (Ne.symm beside), item?_set_of_ne (Ne.symm beside)]
      unfold SameOrMade
      rw [same]
      exact .inl (gains.items place)

/-- A replacement is done as a whole or not at all. If it succeeds, the content is read at the path,
the temporary file, which is named after the target and stands in the same directory, does not exist,
all places that the path above the target enters are directories, and everything else is as before
but for those of these directories that were missing. If it fails, everything is as before but for
such directories, and for a temporary file from before, which may have been taken away; so is the
target, unless it is itself the place of such a directory. -/
theorem replace_whole (disk : Disk) (path : List Char) (content : List UInt8) :
    (∀ temporary, temporaryPath? path = some temporary →
      ∃ directory name, disk.placeOf path = directory ++ [name] ∧
        disk.placeOf temporary = directory ++ [temporaryName name]) ∧
      (∀ after, disk.replace path content = (after, .ok ()) →
        after.working = disk.working ∧ ∃ temporary, temporaryPath? path = some temporary ∧
          after.read path = .ok content ∧ after.place? path = some (disk.placeOf path) ∧
          after.doesExist temporary = false ∧
          after.place? temporary = some (disk.placeOf temporary) ∧
          (∀ place ∈ disk.placesAbove path, after.item? place = some .directory) ∧
          ∀ place, place ≠ disk.placeOf path → place ≠ disk.placeOf temporary →
            disk.SameOrMade (disk.placesAbove path) after place) ∧
      ∀ after fault, disk.replace path content = (after, .error fault) →
        after.working = disk.working ∧
          disk.SameOrMade (disk.placesAbove path) after (disk.placeOf path) ∧
          ∀ place, disk.SameOrMade (disk.placesAbove path) after place ∨
            ∃ temporary octets, temporaryPath? path = some temporary ∧
              place = disk.placeOf temporary ∧ disk.item? place = some (.file octets) ∧
              after.item? place = none := by
  refine ⟨fun temporary found => placeOf_temporary disk found, ?_, ?_⟩
  · intro after ok
    obtain ⟨working, temporary, found, ⟨read, place, -⟩, ⟨absent, beside, -⟩, rest⟩ :=
      changes_of_replace_eq_ok ok
    exact ⟨working, temporary, found, read, place, absent, beside, rest⟩
  · intro after fault failed
    obtain ⟨working, changes⟩ := changes_of_replace_eq_error failed
    refine ⟨working, ?_, changes⟩
    rcases changes (disk.placeOf path) with sameOrMade | ⟨temporary, octets, found, beside, -⟩
    · exact sameOrMade
    · exact absurd beside (placeOf_temporary_ne found)

/-- A disk with a file, a directory, and temporary files that were left beside both. -/
def untidyDisk : Disk :=
  ⟨[], [([['f']], .file [0x61]), ([".f.tmp".toList], .file [0x62]), ([['d']], .directory),
    ([".d.tmp".toList], .file [0x63])]⟩

/-- A file is replaced and the file left beside it goes with it; a directory is not replaced, and is
still there. -/
theorem replace_whole_of_untidy :
    (∃ after, untidyDisk.replace ['f'] [0x78] = (after, .ok ()) ∧ after.read ['f'] = .ok [0x78] ∧
        after.item? [['d']] = some .directory ∧
        after.item? [".d.tmp".toList] = some (.file [0x63])) ∧
      ∃ after fault, untidyDisk.replace ['d'] [0x78] = (after, .error fault) ∧
        after.item? [['d']] = some .directory ∧ after.item? [['f']] = some (.file [0x61]) := by
  obtain ⟨-, complete, -⟩ := replace_whole untidyDisk ['f'] [0x78]
  obtain ⟨-, -, nothing⟩ := replace_whole untidyDisk ['d'] [0x78]
  constructor
  · obtain ⟨-, temporary, found, read, -, -, -, -, others⟩ := complete _ rfl
    obtain rfl : ".f.tmp".toList = temporary := Option.some.inj found
    refine ⟨_, rfl, read, ?_, ?_⟩
    · rcases others [['d']] (by decide) (by decide) with same | ⟨member, -⟩
      · exact same
      · cases member
    · rcases others [".d.tmp".toList] (by decide) (by decide) with same | ⟨member, -⟩
      · exact same
      · cases member
  · obtain ⟨-, target, others⟩ := nothing _ _ rfl
    refine ⟨_, _, rfl, ?_, ?_⟩
    · rcases target with same | ⟨member, -⟩
      · exact same
      · cases member
    · rcases others [['f']] with (same | ⟨member, -⟩) | ⟨temporary, octets, found, beside, -⟩
      · exact same
      · cases member
      · obtain rfl : ".d.tmp".toList = temporary := Option.some.inj found
        exact absurd beside (by decide)

/-- Where the path above the target leads down and up again, a directory on that way can be made at
the very place of the target; the replacement fails then, and the directory stays. -/
theorem replace_makes_target :
    ∃ after fault, (Disk.mk [] []).replace "x/../x".toList [0x61] = (after, .error fault) ∧
      (Disk.mk [] []).placeOf "x/../x".toList = [['x']] ∧
      (Disk.mk [] []).item? [['x']] = none ∧ after.item? [['x']] = some .directory ∧
      after.status "x/../x".toList = .ok .directory :=
  ⟨⟨[], [([['x']], .directory)]⟩, .notReplaced "x/../x" .isDirectory, rfl, rfl, rfl, rfl, rfl⟩

end Whole

end Disk

end RecordDiff.Storage
