import RecordDiff.Command.Run
import RecordDiff.Proofs.WellFormed

/-!
What commands print. Every command does all of its work before it prints, and what it prints is never
empty; so the standard output tells whether a run ended well, and a fault leaves nothing there. Main
statements:

- `runDiff_ne_empty`, `runSchema_ne_empty`: the text of a command that succeeds holds something;
- `execute_printsOnSuccess`: a command stops at a fault with nothing printed, or ends with its text
  printed;
- `report_of_run_error`, `report_of_run_ok`: what is shown of a run, and how it ends.
-/

namespace RecordDiff.Command

open RecordDiff.Comparison (Tree)
open RecordDiff.Schema (Registry Struct)
open RecordDiff.Storage (Disk loadSchema discoverSettings)

/-! ### Texts of commands -/

section Texts

variable {disk : Disk} {registry : Registry} {settings : Settings} {text : String}

theorem exists_of_map_eq_ok {α β : Type} {change : α → β} {outcome : Except Fault α} {value : β}
    (mapped : outcome.map change = .ok value) :
    ∃ before, outcome = .ok before ∧ change before = value := by
  cases outcome with
  | error fault => cases mapped
  | ok before => exact ⟨before, rfl, Except.ok.inj mapped⟩

/-- A table has a heading, and JSON ends in a line feed. -/
theorem render_ne_empty (format : Format) (tree : Tree) : render format tree ≠ "" := by
  cases format with
  | text =>
    obtain ⟨line, more, heading⟩ : ∃ line more, View.tableLines
        (View.TableRow.header :: View.tableRows 0 tree.root) = line :: more := ⟨_, _, rfl⟩
    simp [render, View.renderTable, heading, ← String.toList_inj]
  | json => simp [render]

theorem describeStruct_ne_empty (registry : Registry) (struct : Struct) :
    describeStruct registry struct ≠ "" := by
  simp [describeStruct]

theorem describe_ne_empty {root : Option String} (declares : registry.structs ≠ [])
    (described : describe registry root = .ok text) : text ≠ "" := by
  cases root with
  | none =>
    obtain ⟨struct, rest, structs⟩ := List.exists_cons_of_ne_nil declares
    obtain rfl := Except.ok.inj described
    simp [structs, String.join_cons, describeStruct_ne_empty]
  | some name =>
    obtain ⟨struct, -, rfl⟩ := exists_of_map_eq_ok described
    exact describeStruct_ne_empty registry struct

theorem structs_ne_nil_of_loadSchema {path : String}
    (loaded : loadSchema disk path = .ok registry) : registry.structs ≠ [] := by
  unfold loadSchema at loaded
  split at loaded
  · cases loaded
  · cases loaded
  · exact Schema.structs_ne_nil_of_readText loaded

theorem runSchema_ne_empty {arguments : SchemaArguments}
    (ran : runSchema disk arguments settings = .ok text) : text ≠ "" := by
  unfold runSchema at ran
  split at ran
  · cases ran
  · rename_i registry loaded
    exact describe_ne_empty (structs_ne_nil_of_loadSchema loaded) ran

/-- What `diff` prints is a comparison that it made. -/
theorem exists_render_of_runDiff {arguments : DiffArguments}
    (ran : runDiff disk arguments settings = .ok text) :
    ∃ tree, text = render (arguments.format.getD settings.format) tree := by
  unfold runDiff at ran
  split at ran
  · cases ran
  · dsimp only at ran
    split at ran
    · cases ran
    · split at ran
      · cases ran
      · split at ran
        · cases ran
        · obtain ⟨tree, -, rfl⟩ := exists_of_map_eq_ok ran
          exact ⟨tree, rfl⟩

theorem runDiff_ne_empty {arguments : DiffArguments}
    (ran : runDiff disk arguments settings = .ok text) : text ≠ "" := by
  obtain ⟨tree, rfl⟩ := exists_render_of_runDiff ran
  exact render_ne_empty _ tree

end Texts

/-! ### Executions -/

section Executions

variable {disk after : Disk} {world : World} {invocation : Invocation}
  {arguments : InitArguments} {outcome : Except Fault String} {fault : Fault} {text : String}

/-- How an execution ends: at a fault, with nothing printed, or well, with a text printed that is not
empty. -/
def PrintsOnSuccess (world : World) (executed : World × Except Fault Unit) : Prop :=
  (∃ after fault, executed = (⟨after, world.printed⟩, .error fault)) ∨
    ∃ after text, text ≠ "" ∧ executed = (⟨after, world.printed ++ text⟩, .ok ())

theorem printOutcome_printsOnSuccess (holds : ∀ text, outcome = .ok text → text ≠ "") :
    PrintsOnSuccess world (world.printOutcome outcome) := by
  cases outcome with
  | error fault => exact .inl ⟨world.disk, fault, rfl⟩
  | ok text => exact .inr ⟨world.disk, text, holds text rfl, rfl⟩

/-- A command stops at a fault with nothing printed, or ends with its text printed. -/
theorem execute_printsOnSuccess (world : World) (invocation : Invocation) :
    PrintsOnSuccess world (execute world invocation) := by
  cases action : invocation.action with
  | init arguments =>
    rw [execute, action]
    dsimp only
    split
    · rename_i after fault _
      exact .inl ⟨after, fault, rfl⟩
    · rename_i after _
      exact .inr ⟨after, "Wrote " ++ arguments.path ++ "\n", by simp, rfl⟩
  | diff arguments =>
    rw [execute, action]
    cases discoverSettings world.disk invocation.config with
    | error fault => exact .inl ⟨world.disk, fault, rfl⟩
    | ok settings => exact printOutcome_printsOnSuccess fun text => runDiff_ne_empty
  | schema arguments =>
    rw [execute, action]
    cases discoverSettings world.disk invocation.config with
    | error fault => exact .inl ⟨world.disk, fault, rfl⟩
    | ok settings => exact printOutcome_printsOnSuccess fun text => runSchema_ne_empty

/-- A run that ends in a fault shows nothing but a complaint about it. -/
theorem report_of_run_error (failed : (run disk invocation).2 = .error fault) :
    report disk invocation = ⟨"", "Error: " ++ fault.text ++ "\n", fault.exitCode⟩ := by
  rcases execute_printsOnSuccess ⟨disk, ""⟩ invocation with
    ⟨after, other, executed⟩ | ⟨after, text, -, executed⟩
  · rw [run, executed] at failed
    obtain rfl : other = fault := Except.error.inj failed
    rw [report, executed, Report.ofExecution]
  · rw [run, executed] at failed
    cases failed

/-- A run that ends well shows a text and complains of nothing. -/
theorem report_of_run_ok (ran : (run disk invocation).2 = .ok text) :
    text ≠ "" ∧ report disk invocation = ⟨text, "", 0⟩ := by
  rcases execute_printsOnSuccess ⟨disk, ""⟩ invocation with
    ⟨after, fault, executed⟩ | ⟨after, printed, holds, executed⟩
  · rw [run, executed] at ran
    cases ran
  · rw [run, executed] at ran
    obtain rfl : printed = text := by simpa using ran
    rw [report, executed, Report.ofExecution]
    exact ⟨holds, by simp⟩

end Executions

end RecordDiff.Command
