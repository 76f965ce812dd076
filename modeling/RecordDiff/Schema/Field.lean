import RecordDiff.Fault

/-!
Fields of a struct and their kinds. A field is a value of a primitive kind, or an array of a nested
struct; its count is one for a single value. Main statement:

- `Field.checkSupported_eq_ok_iff`: only arrays of 16-bit words have no decoding.
-/

namespace RecordDiff.Schema

/-- The kind of value that a field holds. -/
inductive Kind where
  /-- An octet. -/
  | byte
  /-- A 16-bit number, low octet first. -/
  | word
  /-- A run of octets that hold UTF-8. -/
  | text
  /-- A struct of the given name. -/
  | nested (name : String)
  deriving DecidableEq, Repr

namespace Kind

/-- The primitive kind that a type token names; any other token names a struct. -/
def ofToken? (token : String) : Option Kind :=
  if token = "uint8_t" then some byte
  else if token = "uint16le" then some word
  else if token = "char" then some text
  else none

/-- The type token of a kind. -/
def token : Kind → String
  | byte => "uint8_t"
  | word => "uint16le"
  | text => "char"
  | nested name => name

end Kind

/-- A field of a struct. -/
structure Field where
  /-- The name as it was declared. -/
  name : String
  /-- What the field holds. -/
  kind : Kind
  /-- The number of elements; one for a single value. -/
  count : Nat
  /-- The comment behind the declaration with a space in front of it, or nothing. -/
  comment : String
  deriving DecidableEq, Repr

namespace Field

/-- Whether the field has more than one element. -/
def isArray (field : Field) : Bool :=
  1 < field.count

/-- Whether the field is an array of 16-bit words. -/
def isWordArray (field : Field) : Bool :=
  field.kind == .word && field.isArray

/-- Refuses a field for which there is no decoding. -/
def checkSupported (field : Field) : Except Fault Unit :=
  if field.isWordArray then .error (.wordArray field.name field.count) else .ok ()

/-- The octets that a field of a primitive kind takes up. -/
def scalarWidth (field : Field) : Nat :=
  match field.kind with
  | .word => 2
  | _ => field.count

/-- The label of one element: the name, with the index in brackets for an array. -/
def elementLabel (field : Field) (index : Nat) : String :=
  if field.isArray then field.name ++ "[" ++ toString index ++ "]" else field.name

/-- The field as a declaration without its end mark. -/
def render (field : Field) : String :=
  let size := if field.isArray then "[" ++ toString field.count ++ "]" else ""
  field.kind.token ++ " " ++ field.name ++ size ++ field.comment

theorem checkSupported_eq_ok_iff {field : Field} :
    field.checkSupported = .ok () ↔ ¬(field.kind = .word ∧ 1 < field.count) := by
  simp [checkSupported, isWordArray, isArray]

end Field

/-- A struct: its name with the enclosing struct in front of it, and its fields in order. -/
structure Struct where
  /-- The qualified name. -/
  name : String
  /-- The fields in the order of the layout. -/
  fields : List Field
  deriving DecidableEq, Repr

/-- The struct with one more field behind its others. -/
def Struct.push (struct : Struct) (field : Field) : Struct :=
  { struct with fields := struct.fields ++ [field] }

end RecordDiff.Schema
