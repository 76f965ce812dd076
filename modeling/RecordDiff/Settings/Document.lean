import RecordDiff.Settings
import RecordDiff.Yaml.Reader
import RecordDiff.Yaml.Resolution
import RecordDiff.Yaml.Writer

/-!
Settings as a YAML mapping. Keys that are missing leave the default in place, keys that mean nothing
are passed over, and a known key may stand only once. Texts take any scalar as it is written; a
number, a truth value or a format has to be one. A blank document is the default settings.
-/

namespace RecordDiff.Settings

open RecordDiff.Comparison (Filter)
open RecordDiff.Yaml (Node Document)

/-! ### Reading -/

/-- A value that is a text. -/
def text? : Node → Option String
  | .scalar _ _ text => some text
  | _ => none

/-- A value that is a number of 64 bits. -/
def number? : Node → Option Nat
  | .scalar tag style text =>
    if Node.isCore "int" tag style then Yaml.unsigned? Text.wordLimit text.toList else none
  | _ => none

/-- A value that is a truth value. -/
def switch? : Node → Option Bool
  | .scalar tag style text =>
    if Node.isCore "bool" tag style then Yaml.bool? text.toList else none
  | _ => none

/-- A value that is a format: its name, or null under a tag of its name. -/
def format? : Node → Option Format
  | .scalar tag style text =>
    match Node.localName? tag with
    | some name =>
      if style = .plain ∧ (text.isEmpty || Yaml.isNull text.toList) then Format.ofWord? name
      else none
    | none => Format.ofWord? text
  | _ => none

/-- The values of a key among entries, in order. Every key has to be a text. -/
def valuesOf (key : String) (entries : List (Node × Node)) : List Node :=
  (entries.filter fun entry => text? entry.1 == some key).map Prod.snd

/-- The value of a key that stands at most once, read in a certain way, or the default. -/
def field? {α : Type} (entries : List (Node × Node)) (key : String) (read : Node → Option α)
    (default : α) : Option α :=
  match valuesOf key entries with
  | [] => some default
  | [value] => read value
  | _ => none

/-- The entries of a mapping whose keys are all texts, each key and value without its alias. Where
nothing is written there are none. -/
def entries? (document : Document) : Node → Option (List (Node × Node))
  | .mapping entries =>
    let resolved := entries.map fun entry =>
      (document.resolve entry.1, document.resolve entry.2)
    if resolved.all fun entry => (text? entry.1).isSome then some resolved else none
  | .scalar _ .plain "" => some []
  | _ => none

/-- A value that is a filter. -/
def filter? (document : Document) (node : Node) : Option Filter := do
  let entries ← entries? document node
  let diffOnly ← field? entries "diff_only" switch? false
  let showUnknown ← field? entries "show_unknown" switch? false
  let showPrecomputed ← field? entries "show_precomputed" switch? false
  return ⟨diffOnly, showUnknown, showPrecomputed⟩

/-- A document that is settings, valid or not. -/
def ofDocument? (document : Document) : Option Settings := do
  let entries ← entries? document document.root
  let default : Settings := {}
  let schema ← field? entries "schema" text? default.schema
  let rootStruct ← field? entries "root_struct" text? default.rootStruct
  let rootLabel ← field? entries "root_label" text? default.rootLabel
  let offset ← field? entries "offset" number? default.offset
  let format ← field? entries "format" format? default.format
  let filters ← field? entries "filters" (filter? document) default.filters
  return ⟨schema, rootStruct, rootLabel, offset, format, filters⟩

/-- The valid settings that a text holds. -/
def ofText (text : List Char) : Except Fault Settings :=
  if Text.isAllBlank text then .ok {}
  else
    match (Yaml.readDocument text).bind ofDocument? with
    | none => .error .badSettings
    | some settings => settings.validated

/-! ### Writing -/

/-- A truth value as it is written. -/
def switchText (value : Bool) : List Char :=
  if value then "true".toList else "false".toList

/-- The entries of a filter, indented as what belongs to a key. -/
def filterText (filter : Filter) : List Char :=
  [("diff_only", filter.diffOnly), ("show_unknown", filter.showUnknown),
    ("show_precomputed", filter.showPrecomputed)].flatMap fun (key, value) =>
      List.replicate Yaml.indentStep ' ' ++ Yaml.writeEntry key.toList (switchText value)

/-- An entry whose value is a text. -/
def textEntry (key value : String) : List Char :=
  Yaml.writeEntry key.toList (Yaml.writeText Yaml.indentStep value.toList)

/-- The settings as a document, every key in the order of the settings. -/
def toText (settings : Settings) : List Char :=
  textEntry "schema" settings.schema ++ textEntry "root_struct" settings.rootStruct ++
    textEntry "root_label" settings.rootLabel ++
    Yaml.writeEntry "offset".toList (Text.decimal settings.offset) ++
    Yaml.writeEntry "format".toList settings.format.word.toList ++
    "filters:\n".toList ++ filterText settings.filters

end RecordDiff.Settings
