import RecordDiff.Storage.Cause
import RecordDiff.Text.Numeral
import RecordDiff.Text.Utf8

/-!
Everything that can go wrong between a schema, two records and a report, as one type of causes.
A fault belongs to one of four kinds, the kind decides the exit code of a run, and `Fault.message`
is the one place where a cause is put into words. Main statement:

- `FaultKind.exitCode_pos`: no run that ends in a fault has the exit code of success.
-/

namespace RecordDiff

/-- The four kinds of fault. -/
inductive FaultKind where
  /-- The schema is absent or malformed, or a name in it leads nowhere. -/
  | schema
  /-- The schema declares a layout for which there is no decoding. -/
  | unsupported
  /-- The octets of a record are not what the schema says. -/
  | decode
  /-- Arguments, files or settings are at fault. -/
  | user
  deriving DecidableEq, Repr

namespace FaultKind

/-- The exit code of a run that ends in a fault of this kind. -/
def exitCode : FaultKind → Nat
  | user => 1
  | schema => 2
  | unsupported => 3
  | decode => 4

/-- What stands before the message of a fault of this kind in a report. -/
def heading : FaultKind → String
  | schema => "Schema error: "
  | unsupported => "Unsupported layout: "
  | decode => "Decode error: "
  | user => ""

/-- A message under the heading of its kind. -/
def report (kind : FaultKind) (message : String) : String :=
  kind.heading ++ message

theorem exitCode_pos (kind : FaultKind) : 0 < kind.exitCode := by
  cases kind <;> decide

end FaultKind

/-- What a file is read for. -/
inductive FileRole where
  | schema
  | config
  | patch
  deriving DecidableEq, Repr

/-- The role in words. -/
def FileRole.word : FileRole → String
  | .schema => "schema"
  | .config => "config"
  | .patch => "patch"

/-- A setting that may not be left blank. -/
inductive RequiredSetting where
  | schema
  | rootStruct
  deriving DecidableEq, Repr

/-- The key of the setting. -/
def RequiredSetting.key : RequiredSetting → String
  | .schema => "schema"
  | .rootStruct => "root_struct"

/-- The cause of a failure. -/
inductive Fault where
  /-- The text of the schema is blank. -/
  | emptySchema
  /-- The text of the schema declares no struct. -/
  | noStructs
  /-- A line inside a struct is no field declaration. -/
  | badDeclaration (line : Nat) (text : String)
  /-- An element count is not a positive number of 64 bits. -/
  | badCount (line : Nat) (text : String)
  /-- No struct answers to the name. -/
  | unknownStruct (name : String)
  /-- Structs are nested too deeply at the name. -/
  | tooDeep (name : String)
  /-- The size at the name does not fit into a word. -/
  | sizeOverflow (name : String)
  /-- A field holds a struct, which has no value of its own. -/
  | noValue (field struct : String)
  /-- There is no schema file at the path. -/
  | schemaNotFound (path : String)
  /-- A field is an array of 16-bit words. -/
  | wordArray (field : String) (count : Nat)
  /-- A record of `length` octets ends before the field does. -/
  | truncated (length : Nat) (field : String) (width offset : Nat)
  /-- The octets of a text field are not UTF-8. -/
  | badText (field : String) (offset : Nat) (cause : Text.Utf8.Fault)
  /-- A file cannot be read. -/
  | unreadable (role : FileRole) (path : String) (cause : Storage.Cause)
  /-- A patch file of `length` octets does not hold the window asked for. -/
  | shortPatch (path : String) (length size offset : Nat)
  /-- The settings are not a mapping of the expected values. -/
  | badSettings
  /-- A setting is blank that may not be. -/
  | blankSetting (setting : RequiredSetting)
  /-- A file is there already and may not be overwritten. -/
  | alreadyExists (path : String)
  /-- The directory above a target cannot be created. -/
  | noParent (path : String) (cause : Storage.Cause)
  /-- The path names no file. -/
  | invalidPath (path : String)
  /-- The temporary file beside a target cannot be created. -/
  | noTemporary (path : String) (cause : Storage.Cause)
  /-- The temporary file cannot take the place of the target. -/
  | notReplaced (path : String) (cause : Storage.Cause)
  deriving DecidableEq, Repr

namespace Fault

/-- The deepest nesting of structs that is followed, the root being at depth zero. -/
def maxDepth : Nat := 64

/-- The kind a cause belongs to. -/
def kind : Fault → FaultKind
  | emptySchema | noStructs | badDeclaration .. | badCount .. | unknownStruct _ | tooDeep _
  | sizeOverflow _ | noValue .. | schemaNotFound _ => .schema
  | wordArray .. => .unsupported
  | truncated .. | badText .. => .decode
  | unreadable .. | shortPatch .. | badSettings | blankSetting _ | alreadyExists _ | noParent ..
  | invalidPath _ | noTemporary .. | notReplaced .. => .user

/-- A text between apostrophes. -/
def quoted (text : String) : String :=
  "'" ++ text ++ "'"

/-- The cause in words. -/
def message : Fault → String
  | emptySchema => "struct definition text is empty"
  | noStructs => "no struct definitions found"
  | badDeclaration line text =>
    "line " ++ toString line ++ ": expected a field declaration 'TYPE name', found " ++ quoted text
  | badCount line text =>
    "line " ++ toString line ++ ": array count must be a positive integer, found " ++ quoted text
  | unknownStruct name => "struct not found: " ++ name
  | tooDeep name =>
    "struct nesting deeper than " ++ toString maxDepth ++ " levels at " ++ quoted name ++
      " (does a struct contain itself?)"
  | sizeOverflow name => "layout size overflows at " ++ quoted name
  | noValue field struct =>
    "field " ++ quoted field ++ " refers to struct " ++ quoted struct ++ " and has no scalar value"
  | schemaNotFound path => "schema file not found: " ++ path
  | wordArray field count =>
    "field " ++ quoted field ++ " is an array of " ++ toString count ++
      " uint16le values; arrays of uint16le cannot be decoded"
  | truncated length field width offset =>
    "buffer of " ++ toString length ++ " bytes ends before field " ++ quoted field ++ " (" ++
      toString width ++ " bytes at offset " ++ toString offset ++ ")"
  | badText field offset cause =>
    "field " ++ quoted field ++ " at offset " ++ toString offset ++ " is not valid UTF-8: " ++
      cause.message
  | unreadable role path cause =>
    "failed to read " ++ role.word ++ " file " ++ quoted path ++ ": " ++ cause.message
  | shortPatch path length size offset =>
    "patch file " ++ quoted path ++ " is " ++ toString length ++ " bytes; need " ++
      toString size ++ " bytes at offset " ++ String.ofList (Text.hexadecimal offset)
  | badSettings => "failed to parse config YAML"
  | blankSetting setting => "config validation failed: " ++ setting.key ++ " must not be empty"
  | alreadyExists path => quoted path ++ " already exists; use --force to overwrite it"
  | noParent path cause =>
    "failed to create parent directory " ++ quoted path ++ ": " ++ cause.message
  | invalidPath path => "invalid file path " ++ quoted path
  | noTemporary path cause =>
    "failed to create temporary file " ++ quoted path ++ ": " ++ cause.message
  | notReplaced path cause =>
    "failed to atomically replace " ++ quoted path ++ ": " ++ cause.message

/-- The exit code of a run that ends in this fault. -/
def exitCode (fault : Fault) : Nat :=
  fault.kind.exitCode

/-- The fault as a report shows it. -/
def text (fault : Fault) : String :=
  fault.kind.report fault.message

end Fault

end RecordDiff
