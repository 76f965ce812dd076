import RecordDiff.Proofs.Extension
import RecordDiff.Proofs.Pieces
import RecordDiff.Proofs.Positions

/-!
The shape of every tree that a comparison makes. A row below the root is a value or a section that
is not empty, and it takes a level of structs to put rows into a section; so the levels that a walk
may follow bound the depth of its rows, whatever the filter leaves out. Main statements:

- `Row.Shaped.at?`: every row at a position inside a shaped row is shaped too, with fewer levels;
- `Row.Shaped.exists_value`: a shaped section holds a value somewhere below it;
- `walkWithin_shaped`: a walk that follows so many levels makes rows of so many levels;
- `compareLabeled_wellFormed`: the tree of a comparison is well formed, and its leaves are the values
  of its rows in the order of the table.
-/

namespace RecordDiff.Comparison

open RecordDiff.Schema

/-- A row with a value on both sides and no rows below. -/
structure Row.IsValue (row : Row) : Prop where
  left : row.left.isSome
  right : row.right.isSome
  children : row.children = []

/-- A row without values and without a comment. -/
structure Row.IsSection (row : Row) : Prop where
  left : row.left = none
  right : row.right = none
  comment : row.comment = ""

/-- A tree as a comparison makes it: a section of the given label, in which every row is a value or a
section; no section is without values but perhaps the root, and no row is more than 65 levels deep. -/
structure Tree.WellFormed (label : String) (tree : Tree) : Prop where
  label : tree.root.label = label
  root : tree.root.IsSection
  shapes : ∀ listed ∈ tree.root.listing, listed.row.IsValue ∨ listed.row.IsSection
  filled : ∀ listed ∈ tree.root.listing, listed.position ≠ [] → listed.row.IsSection →
    ∃ below ∈ listed.row.listing, below.position ≠ [] ∧ below.row.IsValue
  shallow : ∀ listed ∈ tree.root.listing, listed.depth ≤ 65

/-- `Shaped levels row`: the row is a value, or a section with rows in it that are shaped in turn, and
there are at most so many levels of rows from it on downwards. -/
inductive Row.Shaped : Nat → Row → Prop where
  | value {levels : Nat} (label comment left right : String) :
      Shaped (levels + 1) (leaf label comment left right)
  | filled {levels : Nat} {label : String} {children : List Row} (some : children ≠ [])
      (inside : ∀ child ∈ children, Shaped levels child) : Shaped (levels + 1) (branch label children)

namespace Row

variable {row inner : Row} {levels : Nat} {position : List Nat} {label : String}
  {children : List Row}

theorem isValue_leaf (label comment left right : String) : (leaf label comment left right).IsValue :=
  ⟨rfl, rfl, rfl⟩

theorem isSection_branch (label : String) (children : List Row) : (branch label children).IsSection :=
  ⟨rfl, rfl, rfl⟩

theorem Shaped.levels_pos (shaped : row.Shaped levels) : 0 < levels := by
  cases shaped <;> exact Nat.succ_pos _

theorem Shaped.isValue_or_isSection (shaped : row.Shaped levels) : row.IsValue ∨ row.IsSection := by
  cases shaped with
  | value label comment left right => exact .inl (isValue_leaf label comment left right)
  | filled some inside => exact .inr (isSection_branch _ _)

/-- Every row inside a shaped row is shaped, with as many levels less as it is further down. -/
theorem Shaped.at? (shaped : row.Shaped levels) (found : row.at? position = some inner) :
    ∃ left, levels = position.length + left ∧ inner.Shaped left := by
  induction position generalizing row levels with
  | nil =>
    obtain rfl := Option.some.inj found
    exact ⟨levels, (Nat.zero_add levels).symm, shaped⟩
  | cons index rest ih =>
    obtain ⟨child, direct, further⟩ := at?_cons_eq_some_iff.1 found
    cases shaped with
    | value label comment left right => cases direct
    | filled some inside =>
      obtain ⟨left, rfl, shapedInner⟩ := ih (inside child (List.mem_of_getElem? direct)) further
      exact ⟨left, by rw [List.length_cons]; omega, shapedInner⟩

/-- A shaped section holds a value somewhere below it. -/
theorem Shaped.exists_value (shaped : row.Shaped levels) (noValue : row.IsSection) :
    ∃ position value, position ≠ [] ∧ row.at? position = some value ∧ value.IsValue := by
  induction shaped with
  | value label comment left right => cases noValue.left
  | @filled levels label children some inside ih =>
    obtain ⟨first, rest, rfl⟩ := List.exists_cons_of_ne_nil some
    have shapedFirst : first.Shaped levels := inside first List.mem_cons_self
    rcases shapedFirst.isValue_or_isSection with isValue | isSection
    · exact ⟨[0], first, by simp, rfl, isValue⟩
    · obtain ⟨position, value, -, found, isValue⟩ := ih first List.mem_cons_self isSection
      exact ⟨0 :: position, value, by simp, found, isValue⟩

/-- Below a section with shaped rows everything is shaped, one level further down. -/
theorem at?_branch (inside : ∀ child ∈ children, child.Shaped levels)
    (found : (branch label children).at? position = some inner) (below : position ≠ []) :
    position.length ≤ levels ∧ ∃ left, inner.Shaped left := by
  obtain ⟨index, rest, rfl⟩ := List.exists_cons_of_ne_nil below
  obtain ⟨child, direct, further⟩ := at?_cons_eq_some_iff.1 found
  obtain ⟨left, rfl, shaped⟩ := (inside child (List.mem_of_getElem? direct)).at? further
  have remaining := shaped.levels_pos
  exact ⟨by rw [List.length_cons]; omega, left, shaped⟩

end Row

/-! ### Rows of walks -/

/-- `Yields property outcome`: if the walk comes to an end, all of its rows have the property. -/
def Yields (property : Row → Prop) (outcome : Except Fault Walked) : Prop :=
  ∀ rows behind, outcome = .ok (rows, behind) → ∀ row ∈ rows, property row

section Walks

variable {property within : Row → Prop} {first outcome : Except Fault Walked}
  {next : Nat → Except Fault Walked} {sides : Sides} {filter : Filter} {field : Field}
  {registry : Registry} {levels : Nat} {row : Row}

theorem yields_nil (cursor : Nat) : Yields property (.ok ([], cursor)) := by
  intro rows behind walked row member
  cases walked
  cases member

theorem Yields.followedBy (firsts : Yields property first)
    (nexts : ∀ cursor, Yields property (next cursor)) :
    Yields property (followedBy first next) := by
  intro rows behind walked row member
  obtain ⟨front, middle, back, walkedFront, walkedBack, rfl⟩ := followedBy_eq_ok walked
  rcases List.mem_append.1 member with here | later
  · exact firsts front middle walkedFront row here
  · exact nexts middle back behind walkedBack row later

theorem Yields.changeRows {change : List Row → List Row} (inside : Yields within outcome)
    (changes : ∀ rows, (∀ row ∈ rows, within row) → ∀ row ∈ change rows, property row) :
    Yields property (changeRows change outcome) := by
  intro rows behind walked
  obtain ⟨before, walkedBefore, rfl⟩ := changeRows_eq_ok walked
  exact changes before (inside before behind walkedBefore)

theorem walkElements_yields {walk : Nat → Except Fault Walked}
    (walks : ∀ cursor, Yields within (walk cursor))
    (sections : ∀ index children, (∀ child ∈ children, within child) →
      ∀ row ∈ sectionRows filter field index children, property row)
    (remaining index cursor : Nat) :
    Yields property (walkElements filter field walk remaining index cursor) := by
  induction remaining generalizing index cursor with
  | zero => exact yields_nil cursor
  | succ remaining ih =>
    rw [walkElements_succ]
    exact ((walks cursor).changeRows (sections index)).followedBy (ih (index + 1))

theorem walkFields_yields {walk : Field → Nat → Except Fault Walked}
    (walks : ∀ field cursor, Yields property (walk field cursor)) (fields : List Field)
    (cursor : Nat) : Yields property (walkFields walk fields cursor) := by
  induction fields generalizing cursor with
  | nil => exact yields_nil cursor
  | cons field rest ih =>
    rw [walkFields_cons]
    exact (walks field cursor).followedBy ih

theorem walkField_yields {walk : String → Nat → Except Fault Walked}
    (walks : ∀ name cursor, Yields within (walk name cursor))
    (values : ∀ cursor, Yields property (walkScalar sides filter field cursor))
    (sections : ∀ index children, (∀ child ∈ children, within child) →
      ∀ row ∈ sectionRows filter field index children, property row) (cursor : Nat) :
    Yields property (walkField registry sides filter walk field cursor) := by
  rcases field.nested_or_primitive with ⟨name, kind⟩ | primitive
  · rw [walkField_eq_bind kind]
    cases registry.byteSize name with
    | error fault =>
      intro rows behind walked
      cases walked
    | ok size =>
      simp only [Except.bind]
      split
      · exact yields_nil cursor
      · exact walkElements_yields (walks name) sections field.count 0 cursor
  · rw [walkField_of_primitive primitive]
    exact values cursor

/-! ### Shapes of walks -/

theorem shaped_of_mem_leafRows {left right : Option String}
    (member : row ∈ leafRows filter field left right) : row.Shaped (levels + 1) := by
  unfold leafRows at member
  split at member
  · obtain rfl := List.mem_singleton.1 member
    exact .value _ _ _ _
  · cases member

theorem shaped_of_mem_sectionRows {index : Nat} {children : List Row}
    (inside : ∀ child ∈ children, child.Shaped levels)
    (member : row ∈ sectionRows filter field index children) : row.Shaped (levels + 1) := by
  unfold sectionRows at member
  split at member
  · rename_i kept
    obtain rfl := List.mem_singleton.1 member
    -- what is kept is not empty, whatever else the filter asks for
    have some : children ≠ [] := by
      rintro rfl
      simp [Filter.keepsSection] at kept
    exact .filled some inside
  · cases member

theorem walkScalar_shaped (cursor : Nat) :
    Yields (Row.Shaped (levels + 1)) (walkScalar sides filter field cursor) := by
  intro rows behind walked row member
  obtain ⟨-, left, right, -, -, rfl, -⟩ := walkScalar_eq_ok walked
  exact shaped_of_mem_leafRows member

/-- A walk that follows so many levels of structs makes rows of so many levels. -/
theorem walkWithin_shaped (registry : Registry) (sides : Sides) (filter : Filter) (levels : Nat)
    (name : String) (cursor : Nat) :
    Yields (Row.Shaped levels) (walkWithin registry sides filter levels name cursor) := by
  induction levels generalizing name cursor with
  | zero =>
    intro rows behind walked
    cases walked
  | succ levels ih =>
    rw [walkWithin_succ_eq_bind]
    cases registry.resolve name with
    | error fault =>
      intro rows behind walked
      cases walked
    | ok struct =>
      refine walkFields_yields (fun field => ?_) struct.fields cursor
      exact walkField_yields ih walkScalar_shaped
        fun index children inside row member => shaped_of_mem_sectionRows inside member

end Walks

/-! ### Comparisons -/

section Comparisons

variable {registry : Registry} {sides : Sides} {filter : Filter} {root label : String} {tree : Tree}

theorem exists_shaped_of_compareLabeled (present : sides.Present)
    (compared : compareLabeled registry sides filter root label = .ok tree) :
    ∃ rows, tree.root = .branch label rows ∧ ∀ row ∈ rows, row.Shaped Registry.levelLimit := by
  rw [compareLabeled_eq_bind, present.not_absent] at compared
  simp only [Bool.false_eq_true, if_false] at compared
  cases sized : registry.byteSize root with
  | error fault => rw [sized] at compared; cases compared
  | ok size =>
    rw [sized] at compared
    simp only [Except.bind] at compared
    have shaped := walkWithin_shaped registry sides (filter.against sides.right.isSome)
      Registry.levelLimit root 0
    cases walked : walkWithin registry sides (filter.against sides.right.isSome)
        Registry.levelLimit root 0 with
    | error fault => rw [walked] at compared; cases compared
    | ok outcome =>
      obtain ⟨rows, cursor⟩ := outcome
      rw [walked] at compared
      cases compared
      exact ⟨rows, rfl, shaped rows cursor walked⟩

theorem wellFormed_branch {rows : List Row} {consumed : Nat}
    (shaped : ∀ row ∈ rows, row.Shaped Registry.levelLimit) :
    Tree.WellFormed label ⟨.branch label rows, consumed⟩ := by
  have limit : Registry.levelLimit = 65 := rfl
  have top : (Row.branch label rows).IsSection := Row.isSection_branch label rows
  refine ⟨rfl, top, ?_, ?_, ?_⟩
  · rintro ⟨position, row⟩ member
    have found := Row.mem_listing_iff.1 member
    by_cases here : position = []
    · subst here
      obtain rfl := Option.some.inj found
      exact .inr top
    · obtain ⟨-, left, shapedRow⟩ := Row.at?_branch shaped found here
      exact shapedRow.isValue_or_isSection
  · rintro ⟨position, row⟩ member below noValue
    obtain ⟨-, left, shapedRow⟩ := Row.at?_branch shaped (Row.mem_listing_iff.1 member) below
    obtain ⟨further, value, deeper, found, isValue⟩ := shapedRow.exists_value noValue
    exact ⟨⟨further, value⟩, Row.mem_listing_iff.2 found, deeper, isValue⟩
  · rintro ⟨position, row⟩ member
    by_cases here : position = []
    · subst here
      exact Nat.zero_le _
    · exact limit ▸ (Row.at?_branch shaped (Row.mem_listing_iff.1 member) here).1

end Comparisons

/-- Every tree that a comparison of at least one record makes is well formed, whatever the filter. Its
listing holds each of its rows once, by ascending positions; the leaves are the listed rows with
values, as many as are counted, and the table shows the listed rows in the same order. -/
theorem compareLabeled_wellFormed {registry : Registry} {sides : Sides} {filter : Filter}
    {root label : String} {tree : Tree} (present : sides.Present)
    (compared : compareLabeled registry sides filter root label = .ok tree) :
    tree.WellFormed label ∧
      (∀ position row, ⟨position, row⟩ ∈ tree.root.listing ↔ tree.root.at? position = some row) ∧
      (tree.root.listing.map Listed.position).Pairwise (· < ·) ∧
      tree.root.leaves = (tree.root.listing.filter fun listed => listed.row.isLeaf).map Listed.row ∧
      tree.root.leafCount = (tree.root.listing.countP fun listed => listed.row.isLeaf) ∧
      View.renderTable tree = String.ofList ((View.tableLines
        (.header :: tree.root.listing.map View.TableRow.ofListed)).flatMap fun line =>
          line ++ ['\n']) := by
  obtain ⟨rows, isBranch, shaped⟩ := exists_shaped_of_compareLabeled present compared
  refine ⟨?_, fun position row => Row.mem_listing_iff, Row.listing_ascending _,
    Row.leaves_eq_map_listing _, Row.leafCount_eq_countP _, ?_⟩
  · obtain ⟨top, consumed⟩ := tree
    cases isBranch
    exact wellFormed_branch shaped
  · rw [View.renderTable, View.tableRows_zero]

/-- Of two elements only the one that differs is left, and it is left with its value. -/
theorem compareLabeled_wellFormed_of_array :
    ∃ tree, compareLabeled arrayRegistry ⟨some [0x61, 0x62], some [0x61, 0x63]⟩
        { diffOnly := true } "A" "Patch" = .ok tree ∧
      tree.WellFormed "Patch" ∧ tree.root.leafCount = 1 ∧
      tree.root.at? [0, 0] = some (.leaf "b" "" "'b'" "'c'") := by
  have compared : compareLabeled arrayRegistry ⟨some [0x61, 0x62], some [0x61, 0x63]⟩
      { diffOnly := true } "A" "Patch" =
        .ok ⟨.branch "Patch" [.branch "e[1]" [.leaf "b" "" "'b'" "'c'"]], 2⟩ := rfl
  obtain ⟨wellFormed, -⟩ := compareLabeled_wellFormed (.inl rfl) compared
  exact ⟨_, compared, wellFormed, rfl, rfl⟩

end RecordDiff.Comparison
