import RecordDiff.Comparison.Row
import RecordDiff.Schema.Field

/-!
Which rows a comparison shows. Three switches decide: leaves with equal sides may be left out,
fields of unknown meaning are left out unless they are asked for, and so are sections that are
computed from other fields. Main statement:

- `Filter.showAll_keepsLeaf`, `Filter.showAll_keepsSection`: with everything asked for, only empty
  sections go.
-/

namespace RecordDiff.Comparison

/-- The switches that choose rows. -/
structure Filter where
  /-- Leave out leaves whose sides are equal. It has no effect without a right record. -/
  diffOnly : Bool := false
  /-- Show leaves of fields whose name holds `unknown`. -/
  showUnknown : Bool := false
  /-- Show sections of fields whose name holds `Precomputed`. -/
  showPrecomputed : Bool := false
  deriving DecidableEq, Repr

namespace Filter

/-- The filter that asks for every row. -/
def showAll : Filter :=
  { showUnknown := true, showPrecomputed := true }

/-- The filter where there is, or is not, a right record to differ from. -/
def against (filter : Filter) (hasRight : Bool) : Filter :=
  { filter with diffOnly := filter.diffOnly && hasRight }

/-- The switches that are on in either filter. -/
def union (filter other : Filter) : Filter where
  diffOnly := filter.diffOnly || other.diffOnly
  showUnknown := filter.showUnknown || other.showUnknown
  showPrecomputed := filter.showPrecomputed || other.showPrecomputed

/-- Whether a name marks a field of unknown meaning. -/
def isUnknown (name : String) : Bool :=
  Text.contains ['u', 'n', 'k', 'n', 'o', 'w', 'n'] name.toList

/-- Whether a name marks a section that is computed from other fields. -/
def isPrecomputed (name : String) : Bool :=
  Text.contains ['P', 'r', 'e', 'c', 'o', 'm', 'p', 'u', 't', 'e', 'd'] name.toList

/-- Whether the leaf of a name with the given sides is shown. -/
def keepsLeaf (filter : Filter) (name : String) (left right : Option String) : Bool :=
  (filter.showUnknown || !isUnknown name) && !(filter.diffOnly && left == right)

/-- Whether a section with the given rows is shown, for the field of a name. -/
def keepsSection (filter : Filter) (name : String) (children : List Row) : Bool :=
  (filter.showPrecomputed || !isPrecomputed name) && !children.isEmpty

theorem showAll_keepsLeaf (name : String) (left right : Option String) :
    showAll.keepsLeaf name left right = true := by
  simp [showAll, keepsLeaf]

theorem showAll_keepsSection (name : String) (children : List Row) :
    showAll.keepsSection name children = !children.isEmpty := by
  simp [showAll, keepsSection]

end Filter

end RecordDiff.Comparison
