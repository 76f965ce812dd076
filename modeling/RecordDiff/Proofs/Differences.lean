import RecordDiff.Proofs.FullView
import RecordDiff.Proofs.Pruning
import RecordDiff.Proofs.Values

/-!
Comparisons that show differences only. With every row asked for but those of equal leaves, a slot
of the layout has a leaf exactly if the two records hold different octets in it. The slots stand one
behind the other from the start of the records to their size, so that nothing is shown exactly if
the records are equal up to there. Main statements:

- `walkScalar_differences`: a field has a row exactly if it is shown differently on the two sides;
- `walkLayout_reports`: a walk shows the slots in which the records differ, and no section without
  one;
- `Reports.eq_nil_iff`: no slot is shown exactly if all slots together hold equal octets;
- `compareLabeled_differences`: what a comparison shows tells where the records differ.
-/

namespace RecordDiff.Comparison

open RecordDiff.Schema

/-- The filter that leaves out equal leaves and asks for every other row. -/
def Filter.differences : Filter :=
  { diffOnly := true, showUnknown := true, showPrecomputed := true }

/-- The octets of a given width from an offset on, as far as the record reaches. -/
def octetsAt (record : List UInt8) (offset width : Nat) : List UInt8 :=
  (record.drop offset).take width

/-- `Reports left right start slots placed`: of slots that stand one behind the other from an offset
on, those in which the records differ have a leaf each, and no other slot has one. -/
inductive Reports (left right : List UInt8) : Nat → List Slot → List Placed → Prop where
  | nil {start : Nat} : Reports left right start [] []
  | same {start : Nat} {slot : Slot} {rest : List Slot} {placed : List Placed}
      (equal : octetsAt left start slot.width = octetsAt right start slot.width)
      (behind : Reports left right (start + slot.width) rest placed) :
      Reports left right start (slot :: rest) placed
  | differs {start : Nat} {slot : Slot} {rest : List Slot} {placed : List Placed}
      {shownLeft shownRight : String}
      (unequal : octetsAt left start slot.width ≠ octetsAt right start slot.width)
      (decodesLeft : Record.decodeField left start slot.field = .ok shownLeft)
      (decodesRight : Record.decodeField right start slot.field = .ok shownRight)
      (behind : Reports left right (start + slot.width) rest placed) :
      Reports left right start (slot :: rest)
        ((slot.sections, .leaf slot.field.name slot.field.comment shownLeft shownRight) :: placed)

/-- The leaf of a slot at an offset, if it has one: it has one exactly if the records differ in the
slot, and the leaf stands under the sections of the slot and shows the field decoded in either
record. -/
structure SlotShown (left right : List UInt8) (offset : Nat) (slot : Slot)
    (leaf? : Option Placed) : Prop where
  isSome_iff : leaf?.isSome = true ↔
    octetsAt left offset slot.width ≠ octetsAt right offset slot.width
  decodes : ∀ leaf ∈ leaf?, ∃ shownLeft shownRight,
    Record.decodeField left offset slot.field = .ok shownLeft ∧
      Record.decodeField right offset slot.field = .ok shownRight ∧
      leaf = (slot.sections, .leaf slot.field.name slot.field.comment shownLeft shownRight)

section Reported

variable {left right : List UInt8} {start : Nat} {slots more : List Slot}
  {placed others : List Placed}

/-! ### Slots that are reported -/

theorem Reports.append (front : Reports left right start slots placed)
    (back : Reports left right (start + slotsWidth slots) more others) :
    Reports left right start (slots ++ more) (placed ++ others) := by
  induction front with
  | nil => simpa using back
  | same equal behind ih =>
    rw [slotsWidth_cons, ← Nat.add_assoc] at back
    exact .same equal (ih back)
  | differs unequal decodesLeft decodesRight behind ih =>
    rw [slotsWidth_cons, ← Nat.add_assoc] at back
    exact .differs unequal decodesLeft decodesRight (ih back)

theorem Reports.within (label : String) (reports : Reports left right start slots placed) :
    Reports left right start (slots.map (Slot.within label))
      (placed.map (Placed.within label)) := by
  induction reports with
  | nil => exact .nil
  | same equal behind ih => exact .same equal ih
  | differs unequal decodesLeft decodesRight behind ih =>
    exact .differs unequal decodesLeft decodesRight ih

/-- Slots of no width hold equal octets, none at all. -/
theorem Reports.of_narrow (narrow : slotsWidth slots = 0) : Reports left right start slots [] := by
  induction slots with
  | nil => exact .nil
  | cons slot rest ih =>
    rw [slotsWidth_cons] at narrow
    have widthZero : slot.width = 0 := by omega
    have behind : Reports left right (start + slot.width) rest [] := by
      rw [widthZero]
      exact ih (by omega)
    refine .same ?_ behind
    rw [octetsAt, octetsAt, widthZero, List.take_zero, List.take_zero]

theorem octetsAt_add (record : List UInt8) (offset front back : Nat) :
    octetsAt record offset (front + back) =
      octetsAt record offset front ++ octetsAt record (offset + front) back := by
  rw [octetsAt, List.take_add, List.drop_drop]
  rfl

/-- No slot is shown exactly if all slots together hold equal octets. -/
theorem Reports.eq_nil_iff (reports : Reports left right start slots placed) :
    placed = [] ↔
      octetsAt left start (slotsWidth slots) = octetsAt right start (slotsWidth slots) := by
  induction reports with
  | nil => simp [octetsAt]
  | same equal behind ih =>
    rw [ih, slotsWidth_cons, octetsAt_add, octetsAt_add, equal, List.append_right_inj]
  | @differs start slot rest placed shownLeft shownRight unequal decodesLeft decodesRight behind =>
    constructor
    · intro nothing
      cases nothing
    · intro equal
      -- equal octets in all slots are equal octets in the first
      have front := congrArg (List.take slot.width) equal
      rw [octetsAt, octetsAt, List.take_take, List.take_take, slotsWidth_cons,
        Nat.min_eq_left (Nat.le_add_right _ _)] at front
      exact absurd front unequal

/-- For every slot the leaf that it has, if it has one. -/
theorem Reports.exists_shown (reports : Reports left right start slots placed) :
    ∃ shown : List (Option Placed), placed = shown.filterMap id ∧ shown.length = slots.length ∧
      ∀ index slot, slots[index]? = some slot → ∃ leaf?, shown[index]? = some leaf? ∧
        SlotShown left right (start + offsetOf slots index) slot leaf? := by
  induction reports with
  | nil => exact ⟨[], rfl, rfl, by simp⟩
  | @same start front rest placed equal behind ih =>
    obtain ⟨shown, rfl, length, each⟩ := ih
    refine ⟨none :: shown, rfl, by rw [List.length_cons, List.length_cons, length], ?_⟩
    intro index slot found
    cases index with
    | zero =>
      obtain rfl : front = slot := Option.some.inj found
      rw [offsetOf_zero, Nat.add_zero]
      exact ⟨none, rfl, by simp [equal], by simp⟩
    | succ index =>
      rw [offsetOf_cons_succ, ← Nat.add_assoc]
      exact each index slot found
  | @differs start front rest placed shownLeft shownRight unequal decodesLeft decodesRight behind
      ih =>
    obtain ⟨shown, rfl, length, each⟩ := ih
    refine ⟨some (front.sections, .leaf front.field.name front.field.comment shownLeft shownRight)
      :: shown, rfl, by rw [List.length_cons, List.length_cons, length], ?_⟩
    intro index slot found
    cases index with
    | zero =>
      obtain rfl : front = slot := Option.some.inj found
      rw [offsetOf_zero, Nat.add_zero]
      refine ⟨_, rfl, by simp [unequal], ?_⟩
      rintro leaf ⟨⟩
      exact ⟨shownLeft, shownRight, decodesLeft, decodesRight, rfl⟩
    | succ index =>
      rw [offsetOf_cons_succ, ← Nat.add_assoc]
      exact each index slot found

end Reported

/-! ### Walks for differences -/

section Walks

variable {left right : List UInt8} {field : Field} {rows : List Row} {cursor behind : Nat}

/-- A field has a row exactly if it is shown differently on the two sides. -/
theorem walkScalar_differences
    (walked : walkScalar ⟨some left, some right⟩ .differences field cursor = .ok (rows, behind)) :
    ∃ shownLeft shownRight, Record.decodeField left cursor field = .ok shownLeft ∧
      Record.decodeField right cursor field = .ok shownRight ∧
      rows = (if shownLeft = shownRight then []
        else [.leaf field.name field.comment shownLeft shownRight]) ∧
      behind = cursor + field.scalarWidth := by
  have pruned : walkScalar ⟨some left, some right⟩ .differences field cursor =
      changeRows (Filter.differences.pruneRows true)
        (walkScalar ⟨some left, some right⟩ .showAll field cursor) :=
    @walkScalar_prune ⟨some left, some right⟩ .differences field cursor
  rw [pruned] at walked
  obtain ⟨full, walkedFull, rfl⟩ := changeRows_eq_ok walked
  obtain ⟨shownLeft, shownRight, decodesLeft, decodesRight, rfl, rfl⟩ :=
    walkScalar_showAll walkedFull
  have removes : Filter.differences.removesLeaf true field.name (some shownLeft)
      (some shownRight) = (shownLeft == shownRight) := by
    simp [Filter.removesLeaf, Filter.differences]
  refine ⟨shownLeft, shownRight, decodesLeft, decodesRight, ?_, rfl⟩
  rw [Filter.pruneRows_leaf, removes]
  by_cases equal : shownLeft = shownRight
  · rw [if_pos equal, if_pos (beq_iff_eq.2 equal)]
  · rw [if_neg equal, if_neg (fun same => equal (beq_iff_eq.1 same))]

/-- Of sections, this filter takes away those without rows, as a full view does. -/
theorem sectionRows_differences (index : Nat) (children : List Row) :
    sectionRows .differences field index children = sectionRows .showAll field index children := rfl

/-- A walk shows the slots in which the records differ, and no section without one. -/
theorem walkLayout_reports {layout : Layout}
    (walked : walkLayout ⟨some left, some right⟩ .differences layout cursor = .ok (rows, behind)) :
    Reports left right cursor layout.slots (Row.placedLeavesOf rows) ∧
      (Row.placedLeavesOf rows = [] → rows = []) ∧ behind = cursor + layout.width := by
  induction layout generalizing cursor rows behind with
  | done =>
    obtain ⟨rfl, rfl⟩ := Prod.mk.inj (Except.ok.inj walked)
    exact ⟨.nil, fun _ => rfl, rfl⟩
  | value field rest ih =>
    obtain ⟨front, middle, back, walkedFront, walkedBack, rfl⟩ := followedBy_eq_ok walked
    obtain ⟨shownLeft, shownRight, decodesLeft, decodesRight, rfl, rfl⟩ :=
      walkScalar_differences walkedFront
    obtain ⟨reports, noEmpty, rfl⟩ := ih walkedBack
    have alike := Record.decodeField_eq_iff decodesLeft decodesRight
    refine ⟨?_, ?_, Nat.add_assoc cursor field.scalarWidth rest.width⟩
    · by_cases equal : shownLeft = shownRight
      · rw [if_pos equal]
        exact .same (alike.1 equal) reports
      · rw [if_neg equal, Row.placedLeavesOf_append, Row.placedLeavesOf_leaf]
        exact .differs (fun octets => equal (alike.2 octets)) decodesLeft decodesRight reports
    · intro nothing
      rw [Row.placedLeavesOf_append, List.append_eq_nil_iff] at nothing
      obtain ⟨nothingFront, nothingBack⟩ := nothing
      rw [noEmpty nothingBack]
      by_cases equal : shownLeft = shownRight
      · rw [if_pos equal]
        rfl
      · rw [if_neg equal, Row.placedLeavesOf_leaf] at nothingFront
        cases nothingFront
  | element field index inside rest ihInside ihRest =>
    rw [walkLayout] at walked
    rw [Layout.slots, Layout.width]
    by_cases narrow : inside.width = 0
    · -- the walk leaves the element out, and its slots hold no octets
      rw [if_pos narrow] at walked
      obtain ⟨reports, noEmpty, rfl⟩ := ihRest walked
      have width : slotsWidth (inside.slots.map (Slot.within (field.elementLabel index))) = 0 := by
        rw [slotsWidth_map_within, inside.slotsWidth_slots, narrow]
      refine ⟨(Reports.of_narrow width).append ?_, noEmpty, by rw [narrow, Nat.zero_add]⟩
      rw [width, Nat.add_zero]
      exact reports
    · rw [if_neg narrow] at walked
      obtain ⟨front, middle, back, walkedFront, walkedBack, rfl⟩ := followedBy_eq_ok walked
      obtain ⟨children, walkedInside, rfl⟩ := changeRows_eq_ok walkedFront
      obtain ⟨reportsInside, noEmptyInside, rfl⟩ := ihInside walkedInside
      obtain ⟨reports, noEmpty, rfl⟩ := ihRest walkedBack
      rw [Row.placedLeavesOf_append, sectionRows_differences, placedLeavesOf_sectionRows]
      refine ⟨(reportsInside.within (field.elementLabel index)).append ?_, ?_, Nat.add_assoc ..⟩
      · rw [slotsWidth_map_within, Layout.slotsWidth_slots]
        exact reports
      · intro nothing
        rw [List.append_eq_nil_iff, List.map_eq_nil_iff] at nothing
        obtain ⟨nothingInside, nothingBack⟩ := nothing
        rw [noEmptyInside nothingInside, noEmpty nothingBack]
        rfl

end Walks

/-! ### Comparisons -/

section Comparisons

variable {registry : Registry} {root label : String} {left right : List UInt8} {tree : Tree}
  {size : Nat}

/-- What a comparison of two records shows when only differences are. For every slot of the layout
of the root there is a leaf exactly if the two records differ in the octets of the slot; the leaves
stand in the order of their slots, each under the sections of its slot and with the field decoded in
either record. So nothing stands below the root exactly if the records agree up to the size of the
root. -/
theorem compareLabeled_differences (sized : registry.byteSize root = .ok size)
    (compared : compareLabeled registry ⟨some left, some right⟩ .differences root label =
      .ok tree) :
    ∃ (layout : Layout) (rows : List Row) (shown : List (Option Placed)),
      registry.HasLayout root layout ∧
      (∀ other, registry.HasLayout root other → other = layout) ∧
      tree.root = .branch label rows ∧
      tree.root.leaves = (Row.placedLeavesOf rows).map Prod.snd ∧
      Row.placedLeavesOf rows = shown.filterMap id ∧ shown.length = layout.slots.length ∧
      (∀ index slot, layout.slots[index]? = some slot → ∃ leaf?, shown[index]? = some leaf? ∧
        SlotShown left right (offsetOf layout.slots index) slot leaf?) ∧
      (rows = [] ↔ left.take size = right.take size) := by
  have present : Sides.Present ⟨some left, some right⟩ := .inl rfl
  obtain ⟨layout, laid, width, -⟩ := Registry.layout_of_sizeWithin sized
  rw [compareLabeled_of_sized present sized laid] at compared
  change rootTree label (walkLayout ⟨some left, some right⟩ .differences layout 0) = _ at compared
  cases walked : walkLayout ⟨some left, some right⟩ .differences layout 0 with
  | error fault => rw [walked] at compared; cases compared
  | ok outcome =>
    obtain ⟨rows, cursor⟩ := outcome
    rw [walked] at compared
    obtain rfl : _ = tree := Except.ok.inj compared
    obtain ⟨reports, noEmpty, -⟩ := walkLayout_reports walked
    obtain ⟨shown, leaves, length, each⟩ := reports.exists_shown
    refine ⟨layout, rows, shown, laid, fun other laidToo => laidToo.unique laid, rfl, ?_, leaves,
      length, ?_, ?_⟩
    · rw [Row.placedLeavesOf_map_snd]
      exact Row.leaves_branch label rows
    · simpa only [Nat.zero_add] using each
    · have nothing := reports.eq_nil_iff
      rw [layout.slotsWidth_slots, width] at nothing
      refine Iff.trans ⟨?_, noEmpty⟩ nothing
      rintro rfl
      exact Row.placedLeavesOf.eq_1

theorem compareLabeled_differences_of_array :
    arrayRegistry.byteSize "A" = .ok 2 ∧
      ∃ tree, compareLabeled arrayRegistry ⟨some [0x61, 0x62, 0x21], some [0x61, 0x62, 0x3f]⟩
          .differences "A" "A" = .ok tree ∧ tree.root = .branch "A" [] := by
  have sized : arrayRegistry.byteSize "A" = .ok 2 := rfl
  obtain ⟨tree, compared⟩ : ∃ tree, compareLabeled arrayRegistry
      ⟨some [0x61, 0x62, 0x21], some [0x61, 0x62, 0x3f]⟩ .differences "A" "A" = .ok tree := ⟨_, rfl⟩
  obtain ⟨-, rows, -, -, -, underRoot, -, -, -, -, nothing⟩ :=
    compareLabeled_differences sized compared
  obtain rfl : rows = [] := nothing.2 rfl
  exact ⟨sized, tree, compared, underRoot⟩

end Comparisons

end RecordDiff.Comparison
