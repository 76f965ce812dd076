import RecordDiff.Proofs.Utf8
import RecordDiff.Proofs.Walking

/-!
When comparisons fail. A walk over a layout fails like a plain pass over its slots that decodes each
of them on every record, the left one first, and it moves on by their widths; a filter has no say in
either. Main statements:

- `decodeField_isOk_iff`: when a field can be decoded;
- `walkLayout_cursor`: the pass over the slots tells where a walk ends or how it fails;
- `readSlots_eq_error_iff`: a pass fails with the fault of the first slot that has one;
- `compareLabeled_outcome`: a comparison fails exactly where sizing does, or where a record is too
  short or a text is not UTF-8.
-/

namespace RecordDiff.Comparison

open RecordDiff.Schema RecordDiff.Text

/-- The records that are there, the left one first. -/
def Sides.records (sides : Sides) : List (List UInt8) :=
  sides.left.toList ++ sides.right.toList

/-- Every record reaches up to an offset. -/
def Sides.Covers (sides : Sides) (offset : Nat) : Prop :=
  ∀ record ∈ sides.records, offset ≤ record.length

/-- The fault of an outcome. -/
def faultOf? {α : Type} : Except Fault α → Option Fault
  | .ok _ => none
  | .error fault => some fault

/-- The fault of the first record in which a field at an offset cannot be decoded. -/
def Sides.fault? (sides : Sides) (offset : Nat) (field : Field) : Option Fault :=
  sides.records.findSome? fun record => faultOf? (Record.decodeField record offset field)

/-- Every text among slots from an offset on is UTF-8 in every record. -/
def Sides.TextsValid (sides : Sides) (start : Nat) (slots : List Slot) : Prop :=
  ∀ index slot, slots[index]? = some slot → slot.field.kind = .text →
    ∀ record ∈ sides.records, ∃ text,
      Utf8.encode text = (record.drop (start + offsetOf slots index)).take slot.width

/-- `sides.FirstFault start slots fault`: of slots that stand one behind the other from an offset
on, the first one with a fault has this fault. -/
def Sides.FirstFault (sides : Sides) (start : Nat) (slots : List Slot) (fault : Fault) : Prop :=
  ∃ index slot, slots[index]? = some slot ∧
    (∀ earlier before, earlier < index → slots[earlier]? = some before →
      sides.fault? (start + offsetOf slots earlier) before.field = none) ∧
    sides.fault? (start + offsetOf slots index) slot.field = some fault

/-- Decodes slots one behind the other and gives the cursor behind the last. -/
def readSlots (sides : Sides) : List Slot → Nat → Except Fault Nat
  | [], cursor => .ok cursor
  | slot :: rest, cursor =>
    match sides.fault? cursor slot.field with
    | some fault => .error fault
    | none => readSlots sides rest (cursor + slot.width)

/-! ### One field in one record -/

section Fields

variable {record octets : List UInt8} {offset : Nat} {field : Field}

theorem faultOf?_eq_none_iff {α : Type} {outcome : Except Fault α} :
    faultOf? outcome = none ↔ ∃ value, outcome = .ok value := by
  cases outcome with
  | error fault => simp [faultOf?]
  | ok value => simp [faultOf?]

theorem faultOf?_eq_some_iff {α : Type} {outcome : Except Fault α} {fault : Fault} :
    faultOf? outcome = some fault ↔ outcome = .error fault := by
  cases outcome with
  | error other => simp [faultOf?]
  | ok value => simp [faultOf?]

theorem showWindow_of_number (number : field.kind = .byte ∨ field.kind = .word) :
    ∃ value, Record.showWindow field offset octets = .ok value := by
  unfold Record.showWindow
  split
  · exact ⟨_, rfl⟩
  · exact ⟨_, rfl⟩
  · rename_i isText
    simp [isText] at number
  · rename_i isNested
    simp [isNested] at number
  · exact ⟨_, rfl⟩

theorem showWindow_of_text (isText : field.kind = .text) :
    (∃ value, Record.showWindow field offset octets = .ok value) ↔
      ∃ text, Utf8.encode text = octets := by
  simp only [Record.showWindow, isText, ← Utf8.decode_eq_ok_iff]
  cases Utf8.decode octets with
  | error cause => simp
  | ok text => simp

/-- When a field can be decoded: if it holds no struct, the record reaches to its end, and its octets
there are UTF-8 if it holds text. -/
theorem decodeField_isOk_iff :
    (∃ value, Record.decodeField record offset field = .ok value) ↔
      (∀ name, field.kind ≠ .nested name) ∧ offset + field.scalarWidth ≤ record.length ∧
        (field.kind = .text →
          ∃ text, Utf8.encode text = (record.drop offset).take field.scalarWidth) := by
  unfold Record.decodeField
  cases found : Record.window record offset field.scalarWidth with
  | none =>
    have short : ¬offset + field.scalarWidth ≤ record.length := by
      intro inside
      simp [Record.window, inside] at found
    simp [short]
  | some octets =>
    obtain ⟨inside, rfl⟩ := Record.window_eq_some_iff.1 found
    simp only [inside, true_and]
    cases kind : field.kind with
    | byte => simp [showWindow_of_number (.inl kind)]
    | word => simp [showWindow_of_number (.inr kind)]
    | text => simp [showWindow_of_text kind]
    | nested name => simp [Record.showWindow, kind]

theorem kind_of_decodeField {fault : Fault} (primitive : ∀ name, field.kind ≠ .nested name)
    (failed : Record.decodeField record offset field = .error fault) : fault.kind = .decode := by
  unfold Record.decodeField at failed
  split at failed
  · cases failed
    rfl
  · unfold Record.showWindow at failed
    split at failed
    · cases failed
    · cases failed
    · split at failed
      · cases failed
      · cases failed
        rfl
    · rename_i isNested _
      exact absurd isNested (primitive _)
    · cases failed

end Fields

/-! ### Passes over slots -/

section Slots

variable {sides : Sides} {field : Field} {slots front back : List Slot} {cursor last offset : Nat}
  {fault : Fault}

theorem Sides.fault?_eq_none_iff :
    sides.fault? offset field = none ↔
      ∀ record ∈ sides.records, ∃ value, Record.decodeField record offset field = .ok value := by
  simp only [Sides.fault?, List.findSome?_eq_none_iff, faultOf?_eq_none_iff]

theorem kind_of_fault? (primitive : ∀ name, field.kind ≠ .nested name)
    (failed : sides.fault? offset field = some fault) : fault.kind = .decode := by
  obtain ⟨record, -, found⟩ := List.exists_of_findSome?_eq_some failed
  exact kind_of_decodeField primitive (faultOf?_eq_some_iff.1 found)

theorem readSlots_append :
    readSlots sides (front ++ back) cursor =
      (readSlots sides front cursor).bind (readSlots sides back) := by
  induction front generalizing cursor with
  | nil => rfl
  | cons slot rest ih =>
    rw [List.cons_append, readSlots, readSlots]
    cases sides.fault? cursor slot.field with
    | some fault => rfl
    | none => exact ih

/-- The sections around slots have no part in reading them. -/
theorem readSlots_map_within (label : String) :
    readSlots sides (slots.map (Slot.within label)) cursor = readSlots sides slots cursor := by
  induction slots generalizing cursor with
  | nil => rfl
  | cons slot rest ih =>
    rw [List.map_cons, readSlots, readSlots, Slot.within_field, Slot.within_width, ih]

/-- A pass moves on by the widths of its slots and never beyond the end of a record. -/
theorem readSlots_eq_ok (read : readSlots sides slots cursor = .ok last)
    (covers : sides.Covers cursor) : last = cursor + slotsWidth slots ∧ sides.Covers last := by
  induction slots generalizing cursor with
  | nil =>
    obtain rfl : cursor = last := Except.ok.inj read
    exact ⟨rfl, covers⟩
  | cons slot rest ih =>
    rw [readSlots] at read
    cases found : sides.fault? cursor slot.field with
    | some fault => rw [found] at read; cases read
    | none =>
      rw [found] at read
      have coversNext : sides.Covers (cursor + slot.width) := by
        intro record member
        have decoded := Sides.fault?_eq_none_iff.1 found record member
        exact (decodeField_isOk_iff.1 decoded).2.1
      obtain ⟨rfl, coversLast⟩ := ih read coversNext
      exact ⟨by rw [slotsWidth_cons, Nat.add_assoc], coversLast⟩

/-- Slots of no width are read wherever no record has ended yet. -/
theorem readSlots_of_narrow (primitive : ∀ slot ∈ slots, ∀ name, slot.field.kind ≠ .nested name)
    (narrow : slotsWidth slots = 0) (covers : sides.Covers cursor) :
    readSlots sides slots cursor = .ok cursor := by
  induction slots with
  | nil => rfl
  | cons slot rest ih =>
    obtain ⟨primitiveFront, primitiveRest⟩ := List.forall_mem_cons.1 primitive
    rw [slotsWidth_cons] at narrow
    have widthZero : slot.width = 0 := by omega
    have noFault : sides.fault? cursor slot.field = none := by
      refine Sides.fault?_eq_none_iff.2 fun record member =>
        decodeField_isOk_iff.2 ⟨primitiveFront, ?_, ?_⟩
      · have := covers record member
        rw [show slot.field.scalarWidth = 0 from widthZero]
        omega
      · intro _
        rw [show slot.field.scalarWidth = 0 from widthZero]
        exact ⟨[], rfl⟩
    rw [readSlots, noFault, widthZero]
    exact ih primitiveRest (by omega)

theorem Sides.firstFault_nil (start : Nat) : ¬sides.FirstFault start [] fault := by
  rintro ⟨index, slot, found, -⟩
  simp at found

/-- The first fault is that of the front slot, or there is none there and it is the first fault of
what comes behind. -/
theorem Sides.firstFault_cons_iff {slot : Slot} {rest : List Slot} {start : Nat} :
    sides.FirstFault start (slot :: rest) fault ↔
      sides.fault? start slot.field = some fault ∨
        sides.fault? start slot.field = none ∧
          sides.FirstFault (start + slot.width) rest fault := by
  constructor
  · rintro ⟨index, later, at?, before, failed⟩
    cases index with
    | zero =>
      obtain rfl : slot = later := Option.some.inj at?
      exact .inl (by simpa using failed)
    | succ index =>
      refine .inr ⟨by simpa using before 0 slot (Nat.succ_pos index) rfl, index, later, at?, ?_, ?_⟩
      · intro earlier first less found
        have none := before (earlier + 1) first (Nat.succ_lt_succ less) found
        rwa [offsetOf_cons_succ, ← Nat.add_assoc] at none
      · rwa [offsetOf_cons_succ, ← Nat.add_assoc] at failed
  · rintro (failed | ⟨front, index, later, at?, before, failed⟩)
    · exact ⟨0, slot, rfl, by intros; omega, by simpa using failed⟩
    · refine ⟨index + 1, later, at?, ?_, by rwa [offsetOf_cons_succ, ← Nat.add_assoc]⟩
      intro earlier first less found
      cases earlier with
      | zero =>
        obtain rfl : slot = first := Option.some.inj found
        simpa using front
      | succ earlier =>
        have none := before earlier first (Nat.lt_of_succ_lt_succ less) found
        rwa [offsetOf_cons_succ, ← Nat.add_assoc]

/-- A pass fails with the fault of the first slot that has one. -/
theorem readSlots_eq_error_iff :
    readSlots sides slots cursor = .error fault ↔ sides.FirstFault cursor slots fault := by
  induction slots generalizing cursor with
  | nil => simp [readSlots, Sides.firstFault_nil]
  | cons slot rest ih =>
    rw [Sides.firstFault_cons_iff, readSlots]
    cases found : sides.fault? cursor slot.field with
    | some other => simp
    | none => simp [ih]

theorem Sides.Covers.mono {less : Nat} (covers : sides.Covers offset) (below : less ≤ offset) :
    sides.Covers less :=
  fun record member => Nat.le_trans below (covers record member)

theorem Sides.textsValid_cons_iff {slot : Slot} {rest : List Slot} {start : Nat} :
    sides.TextsValid start (slot :: rest) ↔
      (slot.field.kind = .text → ∀ record ∈ sides.records, ∃ text,
        Utf8.encode text = (record.drop start).take slot.width) ∧
      sides.TextsValid (start + slot.width) rest := by
  unfold Sides.TextsValid
  rw [forall_slot_cons fun offset slot => slot.field.kind = .text → ∀ record ∈ sides.records,
    ∃ text, Utf8.encode text = (record.drop (start + offset)).take slot.width]
  simp only [Nat.add_zero, Nat.add_assoc]

/-- A pass succeeds exactly if no record ends before the slots do and every text is UTF-8. -/
theorem readSlots_isOk_iff (primitive : ∀ slot ∈ slots, ∀ name, slot.field.kind ≠ .nested name)
    (covers : sides.Covers cursor) :
    (∃ last, readSlots sides slots cursor = .ok last) ↔
      sides.Covers (cursor + slotsWidth slots) ∧ sides.TextsValid cursor slots := by
  induction slots generalizing cursor with
  | nil => simp [readSlots, covers, Sides.TextsValid]
  | cons slot rest ih =>
    obtain ⟨primitiveFront, primitiveRest⟩ := List.forall_mem_cons.1 primitive
    rw [Sides.textsValid_cons_iff, slotsWidth_cons, ← Nat.add_assoc, readSlots]
    constructor
    · rintro ⟨last, read⟩
      cases found : sides.fault? cursor slot.field with
      | some fault => rw [found] at read; cases read
      | none =>
        rw [found] at read
        have decoded := Sides.fault?_eq_none_iff.1 found
        have coversNext : sides.Covers (cursor + slot.width) :=
          fun record member => (decodeField_isOk_iff.1 (decoded record member)).2.1
        obtain ⟨coversAll, valid⟩ := (ih primitiveRest coversNext).1 ⟨last, read⟩
        refine ⟨coversAll, fun isText record member => ?_, valid⟩
        exact (decodeField_isOk_iff.1 (decoded record member)).2.2 isText
    · rintro ⟨coversAll, validFront, valid⟩
      have coversNext : sides.Covers (cursor + slot.width) :=
        coversAll.mono (Nat.le_add_right _ _)
      have found : sides.fault? cursor slot.field = none := by
        refine Sides.fault?_eq_none_iff.2 fun record member =>
          decodeField_isOk_iff.2 ⟨primitiveFront, ?_, ?_⟩
        · exact coversNext record member
        · exact fun isText => validFront isText record member
      rw [found]
      exact (ih primitiveRest coversNext).2 ⟨coversAll, valid⟩

end Slots

/-! ### Walks over layouts as passes over slots -/

section Walks

variable {sides : Sides} {filter : Filter} {field : Field} {cursor : Nat}

theorem faultOf?_decodeSide (record : Option (List UInt8)) (offset : Nat) (field : Field) :
    faultOf? (decodeSide record offset field) =
      record.toList.findSome? fun octets => faultOf? (Record.decodeField octets offset field) := by
  cases record with
  | none => rfl
  | some octets =>
    simp only [decodeSide, Option.toList_some, List.findSome?_cons, List.findSome?_nil]
    cases Record.decodeField octets offset field with
    | error fault => rfl
    | ok value => rfl

theorem Sides.fault?_eq_or (sides : Sides) (offset : Nat) (field : Field) :
    sides.fault? offset field =
      (faultOf? (decodeSide sides.left offset field)).or
        (faultOf? (decodeSide sides.right offset field)) := by
  rw [Sides.fault?, Sides.records, List.findSome?_append, faultOf?_decodeSide, faultOf?_decodeSide]

theorem walkScalar_cursor (supported : field.checkSupported = .ok ()) :
    (walkScalar sides filter field cursor).map Prod.snd =
      readSlots sides [⟨[], field⟩] cursor := by
  rw [readSlots, Sides.fault?_eq_or, walkScalar, supported]
  cases decodeSide sides.left cursor field with
  | error fault => rfl
  | ok left =>
    cases decodeSide sides.right cursor field with
    | error fault => rfl
    | ok right => rfl

theorem followedBy_cursor {first : Except Fault Walked} {next : Nat → Except Fault Walked}
    {front back : List Slot} (firstCursor : first.map Prod.snd = readSlots sides front cursor)
    (nextCursor : ∀ behind, readSlots sides front cursor = .ok behind →
      (next behind).map Prod.snd = readSlots sides back behind) :
    (followedBy first next).map Prod.snd = readSlots sides (front ++ back) cursor := by
  rw [readSlots_append, ← firstCursor]
  cases first with
  | error fault => rfl
  | ok walked =>
    obtain ⟨rows, behind⟩ := walked
    rw [followedBy]
    simp only [Except.map, Except.bind] at firstCursor ⊢
    rw [← nextCursor behind firstCursor.symm]
    cases next behind with
    | error fault => rfl
    | ok walked => rfl

theorem changeRows_cursor (change : List Row → List Row) (outcome : Except Fault Walked) :
    (changeRows change outcome).map Prod.snd = outcome.map Prod.snd := by
  cases outcome <;> rfl

/-- The pass over the slots of a layout tells where a walk ends, or how it fails. -/
theorem walkLayout_cursor {layout : Layout} (primitive : layout.Primitive)
    (supported : layout.Supported) (covers : sides.Covers cursor) :
    (walkLayout sides filter layout cursor).map Prod.snd = readSlots sides layout.slots cursor := by
  induction layout generalizing cursor with
  | done => rfl
  | value field rest ih =>
    obtain ⟨-, primitiveRest⟩ := Layout.every_value.1 primitive
    obtain ⟨supportedField, supportedRest⟩ := Layout.every_value.1 supported
    have front : (walkScalar sides filter field cursor).map Prod.snd =
        readSlots sides [⟨[], field⟩] cursor := walkScalar_cursor supportedField
    refine followedBy_cursor front fun behind read => ?_
    exact ih primitiveRest supportedRest (readSlots_eq_ok read covers).2
  | element field index inside rest ihInside ihRest =>
    obtain ⟨primitiveInside, primitiveRest⟩ := Layout.every_element.1 primitive
    obtain ⟨supportedInside, supportedRest⟩ := Layout.every_element.1 supported
    have insideRead : readSlots sides (inside.slots.map (Slot.within (field.elementLabel index)))
        cursor = readSlots sides inside.slots cursor := readSlots_map_within _
    rw [walkLayout, Layout.slots]
    by_cases narrow : inside.width = 0
    · -- the walk leaves the element out, and the pass reads nothing in it
      rw [if_pos narrow, ihRest primitiveRest supportedRest covers, readSlots_append, insideRead,
        readSlots_of_narrow primitiveInside (inside.slotsWidth_slots.trans narrow) covers]
      rfl
    · rw [if_neg narrow]
      refine followedBy_cursor ?_ fun behind read => ?_
      · rw [changeRows_cursor, ihInside primitiveInside supportedInside covers, insideRead]
      · exact ihRest primitiveRest supportedRest (readSlots_eq_ok read covers).2

end Walks

/-! ### Comparisons -/

section Comparisons

variable {registry : Registry} {sides : Sides} {filter : Filter} {root label : String}
  {layout : Layout} {size : Nat}

theorem rootTree_consumed (outcome : Except Fault Walked) :
    (rootTree label outcome).map Tree.consumed = outcome.map Prod.snd := by
  cases outcome <;> rfl

/-- What a comparison reads is told by the pass over the slots of its root. -/
theorem compareLabeled_consumed (present : sides.Present)
    (sized : registry.byteSize root = .ok size) (laid : registry.HasLayout root layout) :
    (compareLabeled registry sides filter root label).map Tree.consumed =
      readSlots sides layout.slots 0 := by
  have coversStart : sides.Covers 0 := fun record _ => Nat.zero_le record.length
  rw [compareLabeled_of_sized present sized laid, rootTree_consumed,
    walkLayout_cursor laid.primitive (laid.supported sized) coversStart]

theorem exists_ok_map {α β : Type} (change : α → β) {outcome : Except Fault α} :
    (∃ value, outcome = .ok value) ↔ ∃ changed, outcome.map change = .ok changed := by
  cases outcome <;> simp [Except.map]

theorem eq_error_map {α β : Type} (change : α → β) {outcome : Except Fault α} {fault : Fault} :
    outcome = .error fault ↔ outcome.map change = .error fault := by
  cases outcome <;> simp [Except.map]

/-- Whether a comparison succeeds, and how it fails. A root without a size fails with the fault of
sizing. Else the comparison succeeds exactly if every record is as long as the size says and every
text is UTF-8, and otherwise the fault is that of the first slot of the layout that has one, which
is never a fault of the schema. -/
theorem compareLabeled_outcome (present : sides.Present) (registry : Registry) (filter : Filter)
    (root label : String) :
    (∀ fault, registry.byteSize root = .error fault →
        compareLabeled registry sides filter root label = .error fault) ∧
      ∀ size, registry.byteSize root = .ok size → ∃ layout, registry.HasLayout root layout ∧
        ((∃ tree, compareLabeled registry sides filter root label = .ok tree) ↔
          sides.Covers size ∧ sides.TextsValid 0 layout.slots) ∧
        (∀ fault, compareLabeled registry sides filter root label = .error fault ↔
          sides.FirstFault 0 layout.slots fault) ∧
        ∀ fault, compareLabeled registry sides filter root label = .error fault →
          fault.kind = .decode := by
  refine ⟨fun fault unsized => compare_of_unsized present unsized, fun size sized => ?_⟩
  obtain ⟨layout, laid, width, -⟩ := Registry.layout_of_sizeWithin sized
  have consumed : (compareLabeled registry sides filter root label).map Tree.consumed =
      readSlots sides layout.slots 0 := compareLabeled_consumed present sized laid
  have coversStart : sides.Covers 0 := fun record _ => Nat.zero_le record.length
  have failure : ∀ fault, compareLabeled registry sides filter root label = .error fault ↔
      sides.FirstFault 0 layout.slots fault := by
    intro fault
    rw [eq_error_map Tree.consumed, consumed, readSlots_eq_error_iff]
  refine ⟨layout, laid, ?_, failure, ?_⟩
  · rw [exists_ok_map Tree.consumed, consumed,
      readSlots_isOk_iff laid.primitive coversStart, layout.slotsWidth_slots, width, Nat.zero_add]
  · intro fault failed
    obtain ⟨index, slot, at?, -, found⟩ := (failure fault).1 failed
    exact kind_of_fault? (laid.primitive slot (List.mem_of_getElem? at?)) found

/-- A number and a text, four octets in all. -/
def tagRegistry : Registry :=
  Registry.empty.insert ⟨"Tag", [⟨"id", .word, 1, ""⟩, ⟨"name", .text, 2, ""⟩]⟩

theorem compareLabeled_outcome_of_short :
    Sides.Present ⟨some [7, 0, 0x41], none⟩ ∧ tagRegistry.byteSize "Tag" = .ok 4 ∧
      ¬∃ tree, compareLabeled tagRegistry ⟨some [7, 0, 0x41], none⟩ .showAll "Tag" "Tag" =
        .ok tree := by
  have present : Sides.Present ⟨some [7, 0, 0x41], none⟩ := .inl rfl
  have sized : tagRegistry.byteSize "Tag" = .ok 4 := rfl
  refine ⟨present, sized, fun compared => ?_⟩
  obtain ⟨layout, -, outcome, -⟩ :=
    (compareLabeled_outcome present tagRegistry .showAll "Tag" "Tag").2 4 sized
  have covers : Sides.Covers ⟨some [7, 0, 0x41], none⟩ 4 := (outcome.1 compared).1
  exact absurd (covers [7, 0, 0x41] List.mem_cons_self) (by decide)

end Comparisons

end RecordDiff.Comparison
