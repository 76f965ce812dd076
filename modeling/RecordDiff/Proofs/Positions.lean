import RecordDiff.View.Table

/-!
Rows of a tree by their positions. A position says which row to take on every level from the top
down. The listing of a tree holds each of its rows once, with its position, in the order of a
dictionary: a row stands before those below it, and those before what follows. Leaves, their number
and the rows of a table are all taken from this one listing. Main statements:

- `Row.mem_listing_iff`: the listing holds just the rows that positions lead to;
- `Row.listing_ascending`: its positions ascend, so that none occurs twice;
- `Row.leaves_eq_map_listing`: the leaves are the listed rows with values, in order;
- `tableRows_eq_map_listing`: a table shows the listed rows, in order.
-/

namespace RecordDiff.Comparison

/-- A row of a tree with its position: the indices that lead to it, from the top down. -/
structure Listed where
  position : List Nat
  row : Row

namespace Listed

/-- The same row, seen from one level further up. -/
def under (index : Nat) (listed : Listed) : Listed :=
  ⟨index :: listed.position, listed.row⟩

/-- How many levels the row is below the top. -/
def depth (listed : Listed) : Nat :=
  listed.position.length

end Listed

namespace Row

/-- The row at a position, if there is one. -/
def at? (row : Row) : List Nat → Option Row
  | [] => some row
  | index :: rest => row.children[index]?.bind fun child => child.at? rest

mutual

/-- The rows of a tree with their positions, each before those below it. -/
def listing : Row → List Listed
  | ⟨label, comment, left, right, children⟩ =>
    ⟨[], ⟨label, comment, left, right, children⟩⟩ :: listingFrom 0 children

/-- The rows of neighbouring trees, the first of which has the given index. -/
def listingFrom (index : Nat) : List Row → List Listed
  | [] => []
  | row :: rest => row.listing.map (Listed.under index) ++ listingFrom (index + 1) rest

end

variable {top row child : Row} {rows : List Row} {position : List Nat} {index first : Nat}
  {listed : Listed}

/-! ### Which rows are listed -/

theorem at?_cons_eq_some_iff :
    top.at? (index :: position) = some row ↔
      ∃ child, top.children[index]? = some child ∧ child.at? position = some row := by
  simp [at?, Option.bind_eq_some_iff]

theorem listing_eq (row : Row) : row.listing = ⟨[], row⟩ :: listingFrom 0 row.children := by
  obtain ⟨label, comment, left, right, children⟩ := row
  rw [listing]

/-- What is listed of neighbouring trees is listed of one of them. -/
theorem mem_listingFrom_iff :
    listed ∈ listingFrom first rows ↔
      ∃ (index : Nat) (child : Row) (inner : Listed), rows[index]? = some child ∧
        inner ∈ child.listing ∧ listed = inner.under (first + index) := by
  induction rows generalizing first with
  | nil => simp [listingFrom]
  | cons child rest ih =>
    rw [listingFrom, List.mem_append, List.mem_map, ih]
    constructor
    · rintro (⟨inner, member, rfl⟩ | ⟨index, other, inner, found, member, rfl⟩)
      · exact ⟨0, child, inner, rfl, member, rfl⟩
      · refine ⟨index + 1, other, inner, found, member, ?_⟩
        rw [Nat.add_assoc, Nat.add_comm 1]
    · rintro ⟨index, other, inner, found, member, rfl⟩
      cases index with
      | zero =>
        obtain rfl := Option.some.inj found
        exact .inl ⟨inner, member, rfl⟩
      | succ index =>
        refine .inr ⟨index, other, inner, found, member, ?_⟩
        rw [Nat.add_assoc, Nat.add_comm 1]

/-- The listing of a tree holds just the rows that positions lead to. -/
theorem mem_listing_iff : ⟨position, row⟩ ∈ top.listing ↔ top.at? position = some row := by
  induction position generalizing top with
  | nil =>
    rw [listing_eq, List.mem_cons]
    constructor
    · rintro (same | below)
      · exact congrArg some (Listed.mk.inj same).2.symm
      · -- no row below the top is at the empty position
        obtain ⟨index, child, inner, -, -, same⟩ := mem_listingFrom_iff.1 below
        cases same
    · rintro found
      exact .inl (congrArg (Listed.mk []) (Option.some.inj found).symm)
  | cons index rest ih =>
    rw [listing_eq, List.mem_cons, mem_listingFrom_iff, at?_cons_eq_some_iff]
    constructor
    · rintro (same | ⟨here, child, inner, found, member, same⟩)
      · cases same
      · rw [Listed.under, Nat.zero_add, Listed.mk.injEq, List.cons.injEq] at same
        obtain ⟨⟨rfl, rfl⟩, rfl⟩ := same
        exact ⟨child, found, ih.1 member⟩
    · rintro ⟨child, found, inside⟩
      refine .inr ⟨index, child, ⟨rest, row⟩, found, ih.2 inside, ?_⟩
      rw [Nat.zero_add]
      rfl

/-! ### Their order -/

mutual

/-- Positions ascend in a listing, so that none occurs twice. -/
theorem listing_ascending (row : Row) :
    (row.listing.map Listed.position).Pairwise (· < ·) := by
  obtain ⟨label, comment, left, right, children⟩ := row
  rw [listing, List.map_cons, List.pairwise_cons]
  refine ⟨fun position member => ?_, listingFrom_ascending 0 children⟩
  obtain ⟨listed, below, rfl⟩ := List.mem_map.1 member
  obtain ⟨index, child, inner, -, -, rfl⟩ := mem_listingFrom_iff.1 below
  exact List.nil_lt_cons _ _

theorem listingFrom_ascending (first : Nat) (rows : List Row) :
    ((listingFrom first rows).map Listed.position).Pairwise (· < ·) := by
  cases rows with
  | nil => simp [listingFrom]
  | cons row rest =>
    rw [listingFrom, List.map_append, List.pairwise_append]
    refine ⟨?_, listingFrom_ascending (first + 1) rest, ?_⟩
    · have inside := listing_ascending row
      rw [List.pairwise_map] at inside
      rw [List.map_map, List.pairwise_map]
      exact inside.imp fun before => List.cons_lt_cons_self.2 before
    · intro position front other back
      obtain ⟨listed, here, rfl⟩ := List.mem_map.1 front
      obtain ⟨inner, -, rfl⟩ := List.mem_map.1 here
      obtain ⟨listed, later, rfl⟩ := List.mem_map.1 back
      obtain ⟨index, child, otherInner, -, -, rfl⟩ := mem_listingFrom_iff.1 later
      exact List.Lex.rel (by omega)

end

/-! ### Leaves -/

mutual

/-- The leaves of a tree are the listed rows with values, in order. -/
theorem leaves_eq_map_listing (row : Row) :
    row.leaves = (row.listing.filter fun listed => listed.row.isLeaf).map Listed.row := by
  obtain ⟨label, comment, left, right, children⟩ := row
  rw [leaves, listing, List.filter_cons, leavesOf_eq_map_listingFrom 0 children]
  change _ = List.map Listed.row (if left.isSome || right.isSome then _ else _)
  split <;> rfl

theorem leavesOf_eq_map_listingFrom (first : Nat) (rows : List Row) :
    leavesOf rows =
      ((listingFrom first rows).filter fun listed => listed.row.isLeaf).map Listed.row := by
  cases rows with
  | nil => simp [leavesOf, listingFrom]
  | cons row rest =>
    rw [leavesOf, listingFrom, List.filter_append, List.map_append, List.filter_map, List.map_map,
      leaves_eq_map_listing row, leavesOf_eq_map_listingFrom (first + 1) rest]
    rfl

end

theorem leafCount_eq_countP (row : Row) :
    row.leafCount = row.listing.countP fun listed => listed.row.isLeaf := by
  rw [leafCount, leaves_eq_map_listing, List.length_map, List.countP_eq_length_filter]

end Row

end RecordDiff.Comparison

namespace RecordDiff.View

open RecordDiff.Comparison (Row Listed)

/-- The row of a table for a listed row of a tree. -/
def TableRow.ofListed (listed : Listed) : TableRow :=
  .ofRow listed.depth listed.row

mutual

/-- A table shows the listed rows of a tree, in order and each indented by its depth. -/
theorem tableRows_eq_map_listing (depth : Nat) (row : Row) :
    tableRows depth row =
      row.listing.map fun listed => TableRow.ofRow (depth + listed.depth) listed.row := by
  obtain ⟨label, comment, left, right, children⟩ := row
  rw [tableRows, Row.listing, List.map_cons, tableRowsOf_eq_map_listingFrom depth 0 children]
  rfl

theorem tableRowsOf_eq_map_listingFrom (depth first : Nat) (rows : List Row) :
    tableRowsOf (depth + 1) rows = (Row.listingFrom first rows).map fun listed =>
      TableRow.ofRow (depth + listed.depth) listed.row := by
  cases rows with
  | nil => simp [tableRowsOf, Row.listingFrom]
  | cons row rest =>
    rw [tableRowsOf, Row.listingFrom, List.map_append, List.map_map,
      tableRows_eq_map_listing (depth + 1) row,
      tableRowsOf_eq_map_listingFrom depth (first + 1) rest]
    congr 1
    refine List.map_congr_left fun listed _ => ?_
    have deeper : (listed.under first).depth = listed.depth + 1 := rfl
    rw [Function.comp_apply, deeper, Nat.add_assoc, Nat.add_comm 1]
    rfl

end

theorem tableRows_zero (row : Row) : tableRows 0 row = row.listing.map TableRow.ofListed := by
  rw [tableRows_eq_map_listing]
  simp [TableRow.ofListed]

end RecordDiff.View
