import RecordDiff.Comparison.Filter
import RecordDiff.Fault
import RecordDiff.Text.Blank

/-!
The settings of a run: where the schema is, which struct the records are, how the root row is
labelled, where in the files the records start, and how the comparison is shown. They are valid if
neither the schema nor the root is blank.
-/

namespace RecordDiff

/-- How a comparison is shown. -/
inductive Format where
  | text
  | json
  deriving DecidableEq, Repr

namespace Format

/-- The word for a format. -/
def word : Format → String
  | text => "text"
  | json => "json"

/-- The format that a word names. -/
def ofWord? (word : String) : Option Format :=
  if word = "text" then some text else if word = "json" then some json else none

theorem ofWord?_word (format : Format) : ofWord? format.word = some format := by
  cases format <;> decide

end Format

/-- The settings of a run. -/
structure Settings where
  /-- The path of the schema file. -/
  schema : String := "JD-08.patchdef"
  /-- The struct that the records are read as. -/
  rootStruct : String := "PatchVST"
  /-- The label of the root row. -/
  rootLabel : String := "Patch"
  /-- The offset of the record in each file. -/
  offset : Nat := 0
  /-- How the comparison is shown. -/
  format : Format := .text
  /-- Which rows are shown. -/
  filters : Comparison.Filter := {}
  deriving DecidableEq, Repr

namespace Settings

/-- The file that settings are looked for in when no other is named. -/
def fileName : String := "patchdiff.yaml"

/-- Refuses settings that leave the schema or the root struct blank; the schema is looked at
first. -/
def validate (settings : Settings) : Except Fault Unit :=
  if Text.isAllBlank settings.schema.toList then .error (.blankSetting .schema)
  else if Text.isAllBlank settings.rootStruct.toList then .error (.blankSetting .rootStruct)
  else .ok ()

/-- The settings, if they are valid. -/
def validated (settings : Settings) : Except Fault Settings :=
  match settings.validate with
  | .error fault => .error fault
  | .ok () => .ok settings

end Settings

end RecordDiff
