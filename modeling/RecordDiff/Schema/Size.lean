import RecordDiff.Schema.Registry

/-!
The size of a struct in octets. Sizes are added up over the fields, nested structs included, and
are refused where they leave 64 bits. Nesting is followed for `Fault.maxDepth` levels below the
root, so that a struct which contains itself has no size. Main statements:

- `sizeWithin_zero`: with no level left, every name is too deep;
- `sizeWithin_lt`: a size fits into a word.
-/

namespace RecordDiff.Schema

/-- A sum of sizes, refused at `name` where it leaves 64 bits. -/
def addSize (name : String) (total size : Nat) : Except Fault Nat :=
  if total + size < Text.wordLimit then .ok (total + size) else .error (.sizeOverflow name)

/-- `count` times a size, refused at `name` where it leaves 64 bits. -/
def repeatSize (name : String) (size count : Nat) : Except Fault Nat :=
  if size * count < Text.wordLimit then .ok (size * count) else .error (.sizeOverflow name)

/-- The size of a field, given how to size a nested struct. -/
def Field.size (sizeOf : String → Except Fault Nat) (field : Field) : Except Fault Nat :=
  match field.checkSupported with
  | .error fault => .error fault
  | .ok () =>
    match field.kind with
    | .nested name =>
      match sizeOf name with
      | .error fault => .error fault
      | .ok size => repeatSize field.name size field.count
    | _ => .ok field.scalarWidth

/-- The size of fields behind a total already counted, for the struct of the given name. -/
def sizeFields (sizeOf : String → Except Fault Nat) (struct : String) :
    Nat → List Field → Except Fault Nat
  | total, [] => .ok total
  | total, field :: rest =>
    match field.size sizeOf with
    | .error fault => .error fault
    | .ok size =>
      match addSize struct total size with
      | .error fault => .error fault
      | .ok total => sizeFields sizeOf struct total rest

namespace Registry

/-- The size of the struct that a name finds, with so many levels of structs left to follow. -/
def sizeWithin (registry : Registry) : Nat → String → Except Fault Nat
  | 0, name => .error (.tooDeep name)
  | levels + 1, name =>
    match registry.resolve name with
    | .error fault => .error fault
    | .ok struct => sizeFields (registry.sizeWithin levels) struct.name 0 struct.fields

/-- The levels of structs that are followed: the root and `Fault.maxDepth` below it. -/
def levelLimit : Nat := Fault.maxDepth + 1

/-- The size of the struct that a name finds. -/
def byteSize (registry : Registry) (name : String) : Except Fault Nat :=
  registry.sizeWithin levelLimit name

end Registry

/-! ### Bounds -/

theorem Registry.sizeWithin_zero (registry : Registry) (name : String) :
    registry.sizeWithin 0 name = .error (.tooDeep name) := rfl

theorem addSize_lt {name : String} {total size sum : Nat}
    (added : addSize name total size = .ok sum) : sum < Text.wordLimit := by
  simp only [addSize] at added
  split at added
  · cases added
    assumption
  · cases added

theorem sizeFields_lt {sizeOf : String → Except Fault Nat} {struct : String} {fields : List Field}
    {start total : Nat} (fits : start < Text.wordLimit)
    (sized : sizeFields sizeOf struct start fields = .ok total) : total < Text.wordLimit := by
  induction fields generalizing start with
  | nil =>
    simp only [sizeFields, Except.ok.injEq] at sized
    exact sized ▸ fits
  | cons field rest ih =>
    simp only [sizeFields] at sized
    split at sized
    · cases sized
    · split at sized
      · cases sized
      · rename_i added
        exact ih (addSize_lt added) sized

theorem Registry.sizeWithin_lt {registry : Registry} {levels size : Nat} {name : String}
    (sized : registry.sizeWithin levels name = .ok size) : size < Text.wordLimit := by
  cases levels with
  | zero => cases sized
  | succ levels =>
    simp only [sizeWithin] at sized
    split at sized
    · cases sized
    · exact sizeFields_lt (by decide) sized

end RecordDiff.Schema
