import RecordDiff.Text.Lines

/-!
Rows of a comparison. A row with a value on either side is a leaf; the others are branches, which
stand for a struct or for one element of an array and hold rows of their own. Main statements:

- `Row.leaves_branch`, `Row.leaves_leaf`: the leaves of the two shapes that a comparison makes;
- `Row.descend_append`: following two paths one after the other is following their concatenation.
-/

namespace RecordDiff.Comparison

/-- A row of a comparison. -/
structure Row where
  /-- The name of the field, with its index for an element of an array. -/
  label : String
  /-- The comment of the field with a space in front of it, or nothing. -/
  comment : String
  /-- The value on the left. -/
  left : Option String
  /-- The value on the right. -/
  right : Option String
  /-- The rows below, in order. -/
  children : List Row
  deriving Repr

namespace Row

/-- A row with a value on both sides. -/
def leaf (label comment left right : String) : Row :=
  ⟨label, comment, some left, some right, []⟩

/-- A row without values that holds others. -/
def branch (label : String) (children : List Row) : Row :=
  ⟨label, "", none, none, children⟩

instance : Inhabited Row := ⟨branch "" []⟩

/-- Whether the row holds a value. -/
def isLeaf (row : Row) : Bool :=
  row.left.isSome || row.right.isSome

/-- Whether the row holds no value. -/
def isBranch (row : Row) : Bool :=
  !row.isLeaf

/-- Whether the two sides of the row differ. -/
def differs (row : Row) : Bool :=
  row.left != row.right

mutual

/-- The rows with values in a tree of rows, from the top down and in order. -/
def leaves : Row → List Row
  | ⟨label, comment, left, right, children⟩ =>
    if left.isSome || right.isSome then ⟨label, comment, left, right, children⟩ :: leavesOf children
    else leavesOf children

/-- The rows with values in trees of rows. -/
def leavesOf : List Row → List Row
  | [] => []
  | row :: rest => row.leaves ++ leavesOf rest

end

/-- The number of rows with values. -/
def leafCount (row : Row) : Nat :=
  row.leaves.length

/-- The first row of a given label directly below. -/
def child? (row : Row) (label : String) : Option Row :=
  row.children.find? fun child => child.label == label

/-- The row that labels lead to, one level down for each of them. -/
def descend (row : Row) : List String → Option Row
  | [] => some row
  | label :: rest => (row.child? label).bind fun child => child.descend rest

/-- The labels of a path, which dots separate. -/
def pathLabels (path : String) : List String :=
  (Text.splitOn '.' path.toList).map String.ofList

/-- The row at a dotted path of labels. -/
def find? (row : Row) (path : String) : Option Row :=
  row.descend (pathLabels path)

/-! ### Laws -/

theorem leaves_leaf (label comment left right : String) :
    (leaf label comment left right).leaves = [leaf label comment left right] := by
  simp [leaf, leaves, leavesOf]

theorem leaves_branch (label : String) (children : List Row) :
    (branch label children).leaves = leavesOf children := by
  simp [branch, leaves]

theorem leavesOf_append (front back : List Row) :
    leavesOf (front ++ back) = leavesOf front ++ leavesOf back := by
  induction front with
  | nil => simp [leavesOf]
  | cons row rest ih => simp [leavesOf, ih]

theorem descend_append (row : Row) (front back : List String) :
    row.descend (front ++ back) = (row.descend front).bind fun inner => inner.descend back := by
  induction front generalizing row with
  | nil => rfl
  | cons label rest ih =>
    simp only [List.cons_append, descend]
    cases row.child? label with
    | none => rfl
    | some child => exact ih child

end Row

/-- The outcome of a comparison: its rows under one root, and the octets that were read. -/
structure Tree where
  root : Row
  consumed : Nat
  deriving Repr

end RecordDiff.Comparison
