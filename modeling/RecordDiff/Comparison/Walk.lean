import RecordDiff.Comparison.Filter
import RecordDiff.Record.Value
import RecordDiff.Schema.Size

/-!
Comparing two records under one layout. The fields of the root struct are walked in order with one
cursor for both records, nested structs element by element; each field of a primitive kind is
decoded on every side that is present and becomes a row, unless the filter leaves it out. The
cursor moves on over a row that is left out just the same. Main statement:

- `compare_of_unsized`: a root without a size is refused before any octet is read.
-/

namespace RecordDiff.Comparison

open RecordDiff.Schema (Field Kind Registry)

/-- The records to compare. Either may be absent. -/
structure Sides where
  left : Option (List UInt8)
  right : Option (List UInt8)
  deriving DecidableEq, Repr

/-- Rows together with the cursor behind what they show. -/
abbrev Walked : Type := List Row × Nat

/-- The value of a field on one side, if that side is present. -/
def decodeSide (record : Option (List UInt8)) (offset : Nat) (field : Field) :
    Except Fault (Option String) :=
  match record with
  | none => .ok none
  | some octets => (Record.decodeField octets offset field).map some

/-- The row of a field with the given values, if it is shown. A side without a value shows that of
the other side. -/
def leafRows (filter : Filter) (field : Field) (left right : Option String) : List Row :=
  if filter.keepsLeaf field.name left right then
    [.leaf field.name field.comment ((left.or right).getD "") ((right.or left).getD "")]
  else []

/-- Walks over a field of a primitive kind. The left side is decoded first. -/
def walkScalar (sides : Sides) (filter : Filter) (field : Field) (cursor : Nat) :
    Except Fault Walked :=
  match field.checkSupported with
  | .error fault => .error fault
  | .ok () =>
    match decodeSide sides.left cursor field with
    | .error fault => .error fault
    | .ok left =>
      match decodeSide sides.right cursor field with
      | .error fault => .error fault
      | .ok right => .ok (leafRows filter field left right, cursor + field.scalarWidth)

/-- The row of one element of a nested struct, if it is shown. -/
def sectionRows (filter : Filter) (field : Field) (index : Nat) (children : List Row) : List Row :=
  if filter.keepsSection field.name children then
    [.branch (field.elementLabel index) children]
  else []

/-- Walks over so many elements of a field from an index on, given how to walk over one. -/
def walkElements (filter : Filter) (field : Field) (walk : Nat → Except Fault Walked) :
    (remaining index cursor : Nat) → Except Fault Walked
  | 0, _, cursor => .ok ([], cursor)
  | remaining + 1, index, cursor =>
    match walk cursor with
    | .error fault => .error fault
    | .ok (children, behind) =>
      match walkElements filter field walk remaining (index + 1) behind with
      | .error fault => .error fault
      | .ok (rows, last) => .ok (sectionRows filter field index children ++ rows, last)

/-- Walks over a field, given how to walk over the fields of a struct. Elements of no width are
passed over at once, however many they are. -/
def walkField (registry : Registry) (sides : Sides) (filter : Filter)
    (walk : String → Nat → Except Fault Walked) (field : Field) (cursor : Nat) :
    Except Fault Walked :=
  match field.kind with
  | .nested name =>
    match registry.byteSize name with
    | .error fault => .error fault
    | .ok 0 => .ok ([], cursor)
    | .ok _ => walkElements filter field (walk name) field.count 0 cursor
  | _ => walkScalar sides filter field cursor

/-- Walks over fields in order, given how to walk over one. -/
def walkFields (walk : Field → Nat → Except Fault Walked) : List Field → Nat → Except Fault Walked
  | [], cursor => .ok ([], cursor)
  | field :: rest, cursor =>
    match walk field cursor with
    | .error fault => .error fault
    | .ok (rows, behind) =>
      match walkFields walk rest behind with
      | .error fault => .error fault
      | .ok (more, last) => .ok (rows ++ more, last)

/-- Walks over the fields of the struct that a name finds, with so many levels left to follow. -/
def walkWithin (registry : Registry) (sides : Sides) (filter : Filter) :
    (levels : Nat) → String → Nat → Except Fault Walked
  | 0, name, _ => .error (.tooDeep name)
  | levels + 1, name, cursor =>
    match registry.resolve name with
    | .error fault => .error fault
    | .ok struct =>
      walkFields (walkField registry sides filter (walkWithin registry sides filter levels))
        struct.fields cursor

/-- The row that stands for a comparison without records. -/
def nothingToShow : Tree :=
  ⟨.leaf "Nothing to show" "" "n.a." "n.a.", 0⟩

/-- Compares the records that are present as the struct `root`, under a root row of the given
label. -/
def compareLabeled (registry : Registry) (sides : Sides) (filter : Filter) (root label : String) :
    Except Fault Tree :=
  if sides.left.isNone && sides.right.isNone then .ok nothingToShow
  else
    match registry.byteSize root with
    | .error fault => .error fault
    | .ok _ =>
      match walkWithin registry sides (filter.against sides.right.isSome) Registry.levelLimit
        root 0 with
      | .error fault => .error fault
      | .ok (rows, cursor) => .ok ⟨.branch label rows, cursor⟩

/-- Compares the records that are present as the struct `root`, which labels the root row too. -/
def compare (registry : Registry) (sides : Sides) (filter : Filter) (root : String) :
    Except Fault Tree :=
  compareLabeled registry sides filter root root

theorem compare_of_unsized {registry : Registry} {sides : Sides} {filter : Filter}
    {root label : String} {fault : Fault} (present : sides.left.isSome ∨ sides.right.isSome)
    (unsized : registry.byteSize root = .error fault) :
    compareLabeled registry sides filter root label = .error fault := by
  have notBoth : (sides.left.isNone && sides.right.isNone) = false := by
    rcases present with left | right
    · simp [Option.isNone_eq_false_iff.2 left]
    · simp [Option.isNone_eq_false_iff.2 right]
  simp [compareLabeled, notBoth, unsized]

end RecordDiff.Comparison
