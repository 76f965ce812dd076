import RecordDiff.Proofs.Output
import RecordDiff.Proofs.Replacement
import RecordDiff.Proofs.Utf8

/-!
Sessions: invocations that run one after the other on the same disk. Whatever they are and whatever
is on the disk, only `init` writes, and only to its target and to the temporary file beside it. Main
statements:

- `run_init_cases`: `init` is refused, or it is the replacement of a file;
- `Disk.exists_missing_of_replace`: a file that a replacement reaches, but that did not exist at its
  path before, stands behind a directory that was missing;
- `run_clean`: what holds of each run;
- `runAll_clean`: a file changes over a session only at a run that may change it;
- `runAll_overwrites`: this includes an `init` without force, whose path exists once the directories
  above it are made.
-/

namespace RecordDiff.Storage.Disk

variable {disk made after : Disk} {path : List Char} {places : List Location} {place : Location}
  {content octets : List UInt8}

/-- Directories that were made are missing before, so where none of the places was empty nothing was
made. -/
theorem Gains.directory_of_full (gains : disk.Gains places made)
    (full : ∀ place ∈ places, disk.item? place ≠ none)
    (there : made.item? place = some .directory) : disk.item? place = some .directory := by
  rcases gains.items place with same | ⟨member, nothing, -⟩
  · rw [← same, there]
  · exact absurd nothing (full place member)

/-- A file at the target of a replacement was found at the path before, unless one of the directories
above it was missing. -/
theorem exists_missing_of_replace (ok : disk.replace path content = (after, .ok ()))
    (there : disk.item? (disk.placeOf path) = some (.file octets))
    (absent : disk.doesExist path = false) :
    ∃ above ∈ disk.placesAbove path, disk.item? above = none := by
  obtain ⟨made, temporary, here, name, prepared, found, -, target, -⟩ := replace_eq_ok_iff.1 ok
  have gains := prepareParent_gains disk path
  rw [prepared] at gains
  by_contra none
  have full : ∀ above ∈ disk.placesAbove path, disk.item? above ≠ Option.none := by
    intro above member nothing
    exact none ⟨above, member, nothing⟩
  have targetBefore : disk.Names path here name :=
    target.of_directories gains.working.symm fun _ => gains.directory_of_full full
  rw [targetBefore.placeOf_eq] at there
  rw [targetBefore.doesExist_eq, there] at absent
  cases absent

end RecordDiff.Storage.Disk

namespace RecordDiff.Command

open RecordDiff.Storage (Disk Location temporaryName temporaryPath?)

/-! ### One run -/

/-- The octets that `init` writes. -/
def templateOctets : List UInt8 :=
  Text.Utf8.encode settingsTemplate.toList

/-- Whether `init` goes on to write: it is forced to, or finds nothing at its path. -/
def InitArguments.Passes (arguments : InitArguments) (disk : Disk) : Prop :=
  arguments.force = true ∨ disk.doesExist arguments.path.toList = false

/-- What a run may do to a file: put the settings in its place, if it is the target of an `init` that
succeeds, or take it away, if it has the name of the temporary file beside the target of an `init`
that passes its check. Without force it is such a target only if its path could not be followed
before, for want of a directory. -/
inductive MayChange (disk : Disk) (invocation : Invocation) (place : Location) : Prop where
  | target (arguments : InitArguments) (output : String)
      (action : invocation.action = .init arguments)
      (done : (run disk invocation).2 = .ok output)
      (here : place = disk.placeOf arguments.path.toList)
      (free : arguments.force = true ∨ disk.doesExist arguments.path.toList = false ∧
        ∃ above ∈ disk.placesAbove arguments.path.toList, disk.item? above = none)
      (written : (run disk invocation).1.item? place = some (.file templateOctets))
  | temporary (arguments : InitArguments) (directory : Location) (name : List Char)
      (action : invocation.action = .init arguments) (passes : arguments.Passes disk)
      (target : disk.placeOf arguments.path.toList = directory ++ [name])
      (beside : place = directory ++ [temporaryName name])
      (gone : (run disk invocation).1.item? place = none)

section Running

variable {disk after : Disk} {invocation : Invocation} {arguments : InitArguments}
  {place : Location} {octets : List UInt8} {fault : Fault}

theorem run_of_writeSettings_error (action : invocation.action = .init arguments)
    (failed : writeSettings disk arguments = (after, .error fault)) :
    run disk invocation = (after, .error fault) := by
  rw [run, execute, action]
  simp only [failed]

theorem run_of_writeSettings_ok (action : invocation.action = .init arguments)
    (wrote : writeSettings disk arguments = (after, .ok ())) :
    run disk invocation = (after, .ok ("Wrote " ++ arguments.path ++ "\n")) := by
  rw [run, execute, action]
  simp only [wrote, World.print, String.empty_append]

/-- `init` is refused, or it is the replacement of a file and reports how that went. -/
theorem run_init_cases (disk : Disk) (action : invocation.action = .init arguments) :
    (arguments.force = false ∧ disk.doesExist arguments.path.toList = true ∧
      run disk invocation = (disk, .error (.alreadyExists arguments.path))) ∨
    arguments.Passes disk ∧ ∃ after,
      (∃ fault, disk.replace arguments.path.toList templateOctets = (after, .error fault) ∧
        run disk invocation = (after, .error fault)) ∨
      disk.replace arguments.path.toList templateOctets = (after, .ok ()) ∧
        run disk invocation = (after, .ok ("Wrote " ++ arguments.path ++ "\n")) := by
  by_cases refused : arguments.force = false ∧ disk.doesExist arguments.path.toList = true
  · have failed : writeSettings disk arguments = (disk, .error (.alreadyExists arguments.path)) := by
      simp [writeSettings, refused]
    exact .inl ⟨refused.1, refused.2, run_of_writeSettings_error action failed⟩
  · have replaces : writeSettings disk arguments =
        disk.replace arguments.path.toList templateOctets := by
      rw [writeSettings, if_neg]
      · rfl
      · simpa [and_comm] using refused
    refine .inr ⟨?_, ?_⟩
    · unfold InitArguments.Passes
      cases force : arguments.force with
      | true => exact .inl rfl
      | false => exact .inr (by simpa [force] using refused)
    · rcases replaced : disk.replace arguments.path.toList templateOctets with ⟨after, outcome⟩
      rw [replaced] at replaces
      cases outcome with
      | error fault =>
        exact ⟨after, .inl ⟨fault, rfl, run_of_writeSettings_error action replaces⟩⟩
      | ok => exact ⟨after, .inr ⟨rfl, run_of_writeSettings_ok action replaces⟩⟩

/-- The temporary file of the target of an `init` has the name that `MayChange` speaks of. -/
theorem MayChange.of_temporaryPath? {temporary : List Char}
    (action : invocation.action = .init arguments) (passes : arguments.Passes disk)
    (found : temporaryPath? arguments.path.toList = some temporary)
    (gone : (run disk invocation).1.item? (disk.placeOf temporary) = none) :
    MayChange disk invocation (disk.placeOf temporary) := by
  obtain ⟨directory, name, target, beside⟩ := Disk.placeOf_temporary disk found
  exact .temporary arguments directory name action passes target beside gone

/-- A file that a run has changed is one that it may change. -/
theorem mayChange_of_run (there : disk.item? place = some (.file octets))
    (changed : (run disk invocation).1.item? place ≠ some (.file octets)) :
    MayChange disk invocation place := by
  cases action : invocation.action with
  | diff arguments =>
    rw [run_disk_of_diff disk action] at changed
    exact absurd there changed
  | schema arguments =>
    rw [run_disk_of_schema disk action] at changed
    exact absurd there changed
  | init arguments =>
    rcases run_init_cases disk action with
      ⟨-, -, refused⟩ | ⟨passes, after, ⟨fault, failed, ran⟩ | ⟨ok, ran⟩⟩
    · rw [refused] at changed
      exact absurd there changed
    · rw [ran] at changed
      obtain ⟨-, changes⟩ := Disk.changes_of_replace_eq_error failed
      rcases changes place with (same | ⟨-, nothing, -⟩) | ⟨temporary, content, found, rfl, -, gone⟩
      · rw [same] at changed
        exact absurd there changed
      · rw [nothing] at there
        cases there
      · exact .of_temporaryPath? action passes found (by rw [ran, gone])
    · rw [ran] at changed
      obtain ⟨-, temporary, found, ⟨-, -, written⟩, ⟨-, -, gone⟩, -, others⟩ :=
        Disk.changes_of_replace_eq_ok ok
      by_cases target : place = disk.placeOf arguments.path.toList
      · refine .target arguments _ action (by rw [ran]) target ?_
          (by rw [ran, target, written])
        rcases passes with forced | absent
        · exact .inl forced
        · rw [target] at there
          exact .inr ⟨absent, Disk.exists_missing_of_replace ok there absent⟩
      · by_cases beside : place = disk.placeOf temporary
        · rw [beside]
          exact .of_temporaryPath? action passes found (by rw [ran, gone])
        · rcases others place target beside with same | ⟨-, nothing, -⟩
          · rw [same] at changed
            exact absurd there changed
          · rw [nothing] at there
            cases there

/-- What holds of each run. -/
structure Clean (disk : Disk) (invocation : Invocation) : Prop where
  /-- Reading commands leave the disk as it is. -/
  reading : (∀ arguments, invocation.action ≠ .init arguments) → (run disk invocation).1 = disk
  /-- A run that ends in a fault has printed nothing by then, and its exit code tells so. -/
  silent : ∀ fault, (run disk invocation).2 = .error fault →
    (report disk invocation).output = "" ∧ (report disk invocation).exitCode ≠ 0
  /-- A run that ends well has printed something, and complains of nothing. -/
  telling : ∀ text, (run disk invocation).2 = .ok text →
    text ≠ "" ∧ report disk invocation = ⟨text, "", 0⟩
  /-- Where something exists, `init` without force is a fault of the user and changes nothing. -/
  refusing : ∀ path, invocation.action = .init ⟨path, false⟩ → disk.doesExist path.toList = true →
    ∃ fault, run disk invocation = (disk, .error fault) ∧ fault.kind = .user
  /-- A file that the run changes is one that it may change. -/
  changing : ∀ place octets, disk.item? place = some (.file octets) →
    (run disk invocation).1.item? place ≠ some (.file octets) → MayChange disk invocation place

theorem run_clean (disk : Disk) (invocation : Invocation) : Clean disk invocation where
  reading := by
    intro noInit
    cases action : invocation.action with
    | diff arguments => exact run_disk_of_diff disk action
    | schema arguments => exact run_disk_of_schema disk action
    | init arguments => exact absurd action (noInit arguments)
  silent := by
    intro fault failed
    rw [report_of_run_error failed]
    exact ⟨rfl, Nat.ne_of_gt fault.kind.exitCode_pos⟩
  telling := by
    intro text ran
    exact report_of_run_ok ran
  refusing := by
    intro path action found
    refine ⟨.alreadyExists path, ?_, rfl⟩
    exact run_of_writeSettings_error action (writeSettings_of_existing found)
  changing := by
    intro place octets there changed
    exact mayChange_of_run there changed

end Running

/-! ### Sessions -/

/-- The disk behind invocations that run one after the other. -/
def runAll (disk : Disk) : List Invocation → Disk
  | [] => disk
  | invocation :: rest => runAll (run disk invocation).1 rest

/-- A file that is different behind a session was changed by one of its runs. -/
theorem exists_mayChange_of_runAll {disk : Disk} {session : List Invocation} {place : Location}
    {octets : List UInt8} (there : disk.item? place = some (.file octets))
    (changed : (runAll disk session).item? place ≠ some (.file octets)) :
    ∃ front invocation back, session = front ++ invocation :: back ∧
      (runAll disk front).item? place = some (.file octets) ∧
      MayChange (runAll disk front) invocation place := by
  induction session generalizing disk with
  | nil => exact absurd there changed
  | cons invocation rest ih =>
    by_cases stays : (run disk invocation).1.item? place = some (.file octets)
    · obtain ⟨front, later, back, rfl, still, may⟩ := ih stays changed
      exact ⟨invocation :: front, later, back, rfl, still, may⟩
    · exact ⟨[], invocation, rest, rfl, there, mayChange_of_run there stays⟩

/-- Sessions fail cleanly. Each of their runs is clean on the disk that it finds: what only reads
changes nothing, a run prints nothing exactly if it ends in a fault, and `init` without force leaves
what exists alone. And a file that was there before keeps its content over the session, unless some
run on the way may change it: an `init` that passed its check of existence and has the file as its
temporary file, or an `init` that succeeds with the file as its target, forced to, or finding no way
to it since directories above were missing. -/
theorem runAll_clean (disk : Disk) (session : List Invocation) :
    (∀ front invocation back, session = front ++ invocation :: back →
      Clean (runAll disk front) invocation) ∧
    ∀ place octets, disk.item? place = some (.file octets) →
      (runAll disk session).item? place ≠ some (.file octets) →
        ∃ front invocation back, session = front ++ invocation :: back ∧
          (runAll disk front).item? place = some (.file octets) ∧
          MayChange (runAll disk front) invocation place := by
  constructor
  · intro front invocation back _
    exact run_clean _ _
  · intro place octets there changed
    exact exists_mayChange_of_runAll there changed

/-- A session that is refused first, and then writes by force. -/
def insistentSession : List Invocation :=
  [⟨none, 0, .init ⟨"f", false⟩⟩, ⟨none, 0, .init ⟨"f", true⟩⟩]

/-- The first run of the session is refused and changes nothing; a file left beside the target is gone
in the end, so one of the runs may change it. -/
theorem runAll_clean_of_insistent :
    (∃ fault, run Disk.untidyDisk ⟨none, 0, .init ⟨"f", false⟩⟩ = (Disk.untidyDisk, .error fault) ∧
        fault.kind = .user) ∧
      ∃ front invocation back, insistentSession = front ++ invocation :: back ∧
        MayChange (runAll Disk.untidyDisk front) invocation [".f.tmp".toList] := by
  obtain ⟨clean, changes⟩ := runAll_clean Disk.untidyDisk insistentSession
  constructor
  · exact (clean [] _ _ rfl).refusing "f" rfl (by decide)
  · have changed : (runAll Disk.untidyDisk insistentSession).item? [".f.tmp".toList] ≠
        some (.file [0x62]) := by
      have gone : (runAll Disk.untidyDisk insistentSession).item? [".f.tmp".toList] = none := rfl
      rw [gone]
      intro same
      cases same
    obtain ⟨front, invocation, back, whole, -, may⟩ := changes _ _ rfl changed
    exact ⟨front, invocation, back, whole, may⟩

/-- A disk with a single file, which is no text. -/
def singleDisk : Disk :=
  ⟨[], [([['f']], .file [0xff])]⟩

/-- Without force `init` changes a file that was there before: the path leads to it, but only once a
missing directory is made, and whether it exists was asked before. -/
theorem runAll_overwrites :
    ∃ invocation, readArguments ["init", "x/../f"] = .ok invocation ∧
      invocation.action = .init ⟨"x/../f", false⟩ ∧
      singleDisk.item? [['f']] = some (.file [0xff]) ∧
      (run singleDisk invocation).2 = .ok "Wrote x/../f\n" ∧
      singleDisk.placeOf "x/../f".toList = [['f']] ∧
      (runAll singleDisk [invocation]).item? [['f']] = some (.file templateOctets) ∧
      templateOctets ≠ [0xff] := by
  refine ⟨⟨none, 0, .init ⟨"x/../f", false⟩⟩, rfl, rfl, rfl, rfl, rfl, rfl, ?_⟩
  intro same
  have text : Text.Utf8.decode [0xff] = .ok settingsTemplate.toList :=
    Text.Utf8.decode_eq_ok_iff.2 same
  cases text

end RecordDiff.Command
