import RecordDiff.Proofs.Declared
import RecordDiff.Proofs.Walking

/-!
What a comparison shows when nothing is left out. The leaves of the tree, from the top down, are the
slots of the layout, one for one: each stands under the labels of the sections around its slot and
shows the field decoded in both records where the slot starts. Elements of no width are passed over
on the way; in a schema that was read from a text they hold no slot. Main statements:

- `Row.placedLeaves_map_snd`: placing the leaves of a tree does not change which they are;
- `walkLayout_shows`: the rows of a full walk show the slots of its layout;
- `shows_of_compareLabeled`: so do those of a full comparison;
- `compareLabeled_showAll`: the tree of a full comparison shows the layout of its root.
-/

namespace RecordDiff.Comparison

open RecordDiff.Schema

/-! ### Leaves with their places -/

/-- A leaf with the labels of the rows around it, from the outside in. -/
abbrev Placed : Type := List String × Row

/-- The leaf with one more row around it. -/
def Placed.within (label : String) (placed : Placed) : Placed :=
  (label :: placed.1, placed.2)

namespace Row

mutual

/-- The rows with values in a tree of rows, in the order of `leaves`, each with its place. -/
def placedLeaves : Row → List Placed
  | ⟨label, comment, left, right, children⟩ =>
    if left.isSome || right.isSome then
      ([], ⟨label, comment, left, right, children⟩) ::
        (placedLeavesOf children).map (Placed.within label)
    else (placedLeavesOf children).map (Placed.within label)

/-- The rows with values in trees of rows, each with its place. -/
def placedLeavesOf : List Row → List Placed
  | [] => []
  | row :: rest => row.placedLeaves ++ placedLeavesOf rest

end

theorem map_snd_within (label : String) (placed : List Placed) :
    (placed.map (Placed.within label)).map Prod.snd = placed.map Prod.snd := by
  rw [List.map_map]
  rfl

mutual

theorem placedLeaves_map_snd (row : Row) : row.placedLeaves.map Prod.snd = row.leaves := by
  obtain ⟨label, comment, left, right, children⟩ := row
  rw [placedLeaves, leaves]
  split
  · rw [List.map_cons, map_snd_within, placedLeavesOf_map_snd children]
  · rw [map_snd_within, placedLeavesOf_map_snd children]

theorem placedLeavesOf_map_snd (rows : List Row) :
    (placedLeavesOf rows).map Prod.snd = leavesOf rows := by
  cases rows with
  | nil => simp [placedLeavesOf, leavesOf]
  | cons row rest =>
    rw [placedLeavesOf, leavesOf, List.map_append, placedLeaves_map_snd row,
      placedLeavesOf_map_snd rest]

end

theorem placedLeavesOf_append (front back : List Row) :
    placedLeavesOf (front ++ back) = placedLeavesOf front ++ placedLeavesOf back := by
  induction front with
  | nil => simp [placedLeavesOf]
  | cons row rest ih => simp [placedLeavesOf, ih]

theorem placedLeaves_branch (label : String) (children : List Row) :
    (branch label children).placedLeaves =
      (placedLeavesOf children).map (Placed.within label) := by
  simp [branch, placedLeaves]

theorem placedLeavesOf_leaf (label comment left right : String) :
    placedLeavesOf [leaf label comment left right] = [([], leaf label comment left right)] := by
  simp [leaf, placedLeaves, placedLeavesOf]

end Row

/-! ### Slots as they are shown -/

/-- `Shows left right start slots placed`: the leaves show the slots, which stand one behind the
other from an offset on, one for one. -/
inductive Shows (left right : List UInt8) : Nat → List Slot → List Placed → Prop where
  | nil {start : Nat} : Shows left right start [] []
  | cons {start : Nat} {slot : Slot} {rest : List Slot} {placed : List Placed}
      {shownLeft shownRight : String}
      (decodesLeft : Record.decodeField left start slot.field = .ok shownLeft)
      (decodesRight : Record.decodeField right start slot.field = .ok shownRight)
      (behind : Shows left right (start + slot.width) rest placed) :
      Shows left right start (slot :: rest)
        ((slot.sections, .leaf slot.field.name slot.field.comment shownLeft shownRight) :: placed)

section Shown

variable {left right : List UInt8} {start : Nat} {slots more : List Slot}
  {placed others : List Placed}

theorem Shows.append (front : Shows left right start slots placed)
    (back : Shows left right (start + slotsWidth slots) more others) :
    Shows left right start (slots ++ more) (placed ++ others) := by
  induction front with
  | nil => simpa using back
  | @cons start slot rest placed shownLeft shownRight decodesLeft decodesRight behind ih =>
    rw [slotsWidth_cons, ← Nat.add_assoc] at back
    exact .cons decodesLeft decodesRight (ih back)

theorem Shows.within (label : String) (shows : Shows left right start slots placed) :
    Shows left right start (slots.map (Slot.within label)) (placed.map (Placed.within label)) := by
  induction shows with
  | nil => exact .nil
  | cons decodesLeft decodesRight behind ih => exact .cons decodesLeft decodesRight ih

theorem Shows.length_eq (shows : Shows left right start slots placed) :
    placed.length = slots.length := by
  induction shows with
  | nil => rfl
  | cons decodesLeft decodesRight behind ih => rw [List.length_cons, List.length_cons, ih]

/-- Each slot is shown under its sections, with what stands behind all slots before it. -/
theorem Shows.getElem? (shows : Shows left right start slots placed) {index : Nat} {slot : Slot}
    (found : slots[index]? = some slot) :
    ∃ shownLeft shownRight,
      Record.decodeField left (start + offsetOf slots index) slot.field = .ok shownLeft ∧
      Record.decodeField right (start + offsetOf slots index) slot.field = .ok shownRight ∧
      placed[index]? =
        some (slot.sections, .leaf slot.field.name slot.field.comment shownLeft shownRight) := by
  induction shows generalizing index with
  | nil => simp at found
  | @cons start front rest placed shownLeft shownRight decodesLeft decodesRight behind ih =>
    cases index with
    | zero =>
      obtain rfl : front = slot := Option.some.inj found
      rw [offsetOf_zero, Nat.add_zero]
      exact ⟨shownLeft, shownRight, decodesLeft, decodesRight, rfl⟩
    | succ index =>
      rw [offsetOf_cons_succ, ← Nat.add_assoc]
      exact ih found

end Shown

/-! ### Full walks -/

section Walks

variable {left right : List UInt8} {field : Field} {rows : List Row} {cursor behind : Nat}

theorem walkScalar_showAll
    (walked : walkScalar ⟨some left, some right⟩ .showAll field cursor = .ok (rows, behind)) :
    ∃ shownLeft shownRight, Record.decodeField left cursor field = .ok shownLeft ∧
      Record.decodeField right cursor field = .ok shownRight ∧
      rows = [.leaf field.name field.comment shownLeft shownRight] ∧
      behind = cursor + field.scalarWidth := by
  unfold walkScalar at walked
  cases supported : field.checkSupported with
  | error fault => rw [supported] at walked; cases walked
  | ok =>
    rw [supported] at walked
    simp only [decodeSide] at walked
    cases decodesLeft : Record.decodeField left cursor field with
    | error fault => rw [decodesLeft] at walked; cases walked
    | ok shownLeft =>
      cases decodesRight : Record.decodeField right cursor field with
      | error fault => rw [decodesLeft, decodesRight] at walked; cases walked
      | ok shownRight =>
        rw [decodesLeft, decodesRight] at walked
        obtain ⟨rfl, rfl⟩ := Prod.mk.inj (Except.ok.inj walked)
        refine ⟨shownLeft, shownRight, rfl, rfl, ?_, rfl⟩
        rw [leafRows, Filter.showAll_keepsLeaf, if_pos rfl]
        rfl

/-- A section without rows is not shown, but there are no leaves in it either. -/
theorem placedLeavesOf_sectionRows (field : Field) (index : Nat) (children : List Row) :
    Row.placedLeavesOf (sectionRows .showAll field index children) =
      (Row.placedLeavesOf children).map (Placed.within (field.elementLabel index)) := by
  rw [sectionRows, Filter.showAll_keepsSection]
  cases children with
  | nil => simp [Row.placedLeavesOf]
  | cons child rest => simp [Row.placedLeavesOf, Row.placedLeaves_branch]

/-- The rows of a full walk show the slots of its layout. -/
theorem walkLayout_shows {layout : Layout} (populated : layout.Every fun field => 0 < field.count)
    (walked : walkLayout ⟨some left, some right⟩ .showAll layout cursor = .ok (rows, behind)) :
    Shows left right cursor layout.slots (Row.placedLeavesOf rows) ∧
      behind = cursor + layout.width := by
  induction layout generalizing cursor rows behind with
  | done =>
    obtain ⟨rfl, rfl⟩ := Prod.mk.inj (Except.ok.inj walked)
    exact ⟨.nil, rfl⟩
  | value field rest ih =>
    obtain ⟨front, middle, back, walkedFront, walkedBack, rfl⟩ := followedBy_eq_ok walked
    obtain ⟨shownLeft, shownRight, decodesLeft, decodesRight, rfl, rfl⟩ :=
      walkScalar_showAll walkedFront
    obtain ⟨showsRest, rfl⟩ := ih (Layout.every_value.1 populated).2 walkedBack
    refine ⟨?_, Nat.add_assoc cursor field.scalarWidth rest.width⟩
    rw [Row.placedLeavesOf_append, Row.placedLeavesOf_leaf]
    exact .cons decodesLeft decodesRight showsRest
  | element field index inside rest ihInside ihRest =>
    obtain ⟨populatedInside, populatedRest⟩ := Layout.every_element.1 populated
    rw [walkLayout] at walked
    rw [Layout.slots, Layout.width]
    by_cases narrow : inside.width = 0
    · -- the walk leaves the element out, and no slot is in it
      rw [if_pos narrow] at walked
      rw [Layout.slots_eq_nil populatedInside narrow, narrow, Nat.zero_add]
      exact ihRest populatedRest walked
    · rw [if_neg narrow] at walked
      obtain ⟨front, middle, back, walkedFront, walkedBack, rfl⟩ := followedBy_eq_ok walked
      obtain ⟨children, walkedInside, rfl⟩ := changeRows_eq_ok walkedFront
      obtain ⟨showsInside, rfl⟩ := ihInside populatedInside walkedInside
      obtain ⟨showsRest, rfl⟩ := ihRest populatedRest walkedBack
      rw [Row.placedLeavesOf_append, placedLeavesOf_sectionRows]
      refine ⟨(showsInside.within (field.elementLabel index)).append ?_, Nat.add_assoc ..⟩
      rw [slotsWidth_map_within, Layout.slotsWidth_slots]
      exact showsRest

end Walks

/-! ### Schemas that were read -/

section Schemas

variable {registry : Registry} {root label source : String} {left right : List UInt8} {tree : Tree}

/-- The rows of a full comparison show the layout of the root, if all fields have elements. -/
theorem shows_of_compareLabeled (populated : registry.Populated)
    (compared : compareLabeled registry ⟨some left, some right⟩ .showAll root label = .ok tree) :
    ∃ layout rows cursor, registry.HasLayout root layout ∧ tree = ⟨.branch label rows, cursor⟩ ∧
      Shows left right 0 layout.slots (Row.placedLeavesOf rows) := by
  have present : Sides.Present ⟨some left, some right⟩ := .inl rfl
  cases sized : registry.byteSize root with
  | error fault =>
    rw [compare_of_unsized present sized] at compared
    cases compared
  | ok size =>
    obtain ⟨layout, laid, -, -⟩ := Registry.layout_of_sizeWithin sized
    rw [compareLabeled_of_sized present sized laid] at compared
    change rootTree label (walkLayout ⟨some left, some right⟩ .showAll layout 0) = _ at compared
    cases walked : walkLayout ⟨some left, some right⟩ .showAll layout 0 with
    | error fault => rw [walked] at compared; cases compared
    | ok outcome =>
      obtain ⟨rows, cursor⟩ := outcome
      rw [walked] at compared
      obtain ⟨shows, -⟩ := walkLayout_shows (laid.every populated) walked
      exact ⟨layout, rows, cursor, laid, (Except.ok.inj compared).symm, shows⟩

/-- The tree of a full comparison of two records under a schema that was read. The root has one
layout, and the leaves are its slots in order: each one stands under the root and the sections of
its slot, bears the name and comment of the field, and shows the field decoded in either record
behind the widths of all slots before it. -/
theorem compareLabeled_showAll (read : Registry.ofString source = .ok registry)
    (compared : compareLabeled registry ⟨some left, some right⟩ .showAll root label = .ok tree) :
    ∃ layout, registry.HasLayout root layout ∧
      (∀ other, registry.HasLayout root other → other = layout) ∧
      tree.root.placedLeaves.map Prod.snd = tree.root.leaves ∧
      tree.root.leaves.length = layout.slots.length ∧
      ∀ index slot, layout.slots[index]? = some slot → ∃ shownLeft shownRight,
        Record.decodeField left (offsetOf layout.slots index) slot.field = .ok shownLeft ∧
        Record.decodeField right (offsetOf layout.slots index) slot.field = .ok shownRight ∧
        tree.root.placedLeaves[index]? = some (label :: slot.sections,
          .leaf slot.field.name slot.field.comment shownLeft shownRight) := by
  obtain ⟨layout, rows, cursor, laid, rfl, shows⟩ :=
    shows_of_compareLabeled (Registry.populated_of_ofString read) compared
  have underRoot := Row.placedLeaves_branch label rows
  refine ⟨layout, laid, fun other laidToo => laidToo.unique laid,
    Row.placedLeaves_map_snd _, ?_, ?_⟩
  · rw [← Row.placedLeaves_map_snd, List.length_map, underRoot, List.length_map, shows.length_eq]
  · intro index slot found
    obtain ⟨shownLeft, shownRight, decodesLeft, decodesRight, placed⟩ := shows.getElem? found
    rw [Nat.zero_add] at decodesLeft decodesRight
    refine ⟨shownLeft, shownRight, decodesLeft, decodesRight, ?_⟩
    rw [underRoot, List.getElem?_map, placed]
    rfl

/-- A struct with an array of another one that is declared inside it. -/
def arrayRegistry : Registry :=
  (Registry.empty.insert ⟨"A::E", [⟨"b", .text, 1, ""⟩]⟩).insert
    ⟨"A", [⟨"e", .nested "A::E", 2, ""⟩]⟩

theorem ofString_array :
    Registry.ofString "struct A\nstruct E\nchar b\n\x7d\nE e[2]" = .ok arrayRegistry := by
  have notBlank : Text.isAllBlank "struct A\nstruct E\nchar b\n\x7d\nE e[2]".toList = false := by
    decide +kernel
  have lines : LogicalLine.ofText "struct A\nstruct E\nchar b\n\x7d\nE e[2]".toList =
      [⟨1, .declaration "struct A".toList ""⟩, ⟨2, .declaration "struct E".toList ""⟩,
        ⟨3, .declaration "char b".toList ""⟩, ⟨4, .closing⟩,
        ⟨5, .declaration "E e[2]".toList ""⟩] := by decide +kernel
  have opensA : structName? "struct A".toList = some "A".toList := by decide +kernel
  have opensE : structName? "struct E".toList = some "E".toList := by decide +kernel
  have plainB : structName? "char b".toList = none := by decide +kernel
  have plainE : structName? "E e[2]".toList = none := by decide +kernel
  have fieldB : readDeclaration 3 "char b".toList = .ok ("char", "b", 1) := rfl
  have fieldE : readDeclaration 5 "E e[2]".toList = .ok ("E", "e", 2) := rfl
  rw [Registry.ofString, readText, notBlank, lines]
  simp only [Bool.false_eq_true, if_false, readLines, readBody, opensA, opensE, plainB, plainE,
    fieldB, fieldE, openNested, Except.map, Reading.behind, Reading.after]
  rfl

theorem compareLabeled_showAll_of_array :
    Registry.ofString "struct A\nstruct E\nchar b\n\x7d\nE e[2]" = .ok arrayRegistry ∧
      ∃ tree, compareLabeled arrayRegistry ⟨some [0x61, 0x62], some [0x61, 0x63]⟩ .showAll
          "A" "A" = .ok tree ∧
        ∃ layout, arrayRegistry.HasLayout "A" layout ∧
          tree.root.leaves.length = layout.slots.length := by
  obtain ⟨tree, compared⟩ : ∃ tree, compareLabeled arrayRegistry
      ⟨some [0x61, 0x62], some [0x61, 0x63]⟩ .showAll "A" "A" = .ok tree := ⟨_, rfl⟩
  obtain ⟨layout, laid, -, -, length, -⟩ := compareLabeled_showAll ofString_array compared
  exact ⟨ofString_array, tree, compared, layout, laid, length⟩

end Schemas

end RecordDiff.Comparison
