import RecordDiff.Schema.Size

/-!
Layouts spelled out. The layout of a name follows the fields of its struct in order; a field that
holds structs is expanded element by element, and the name of its struct is looked up afresh at
every level. No element is left out, however narrow it is. Main statements:

- `Layout.slotsWidth_slots`: the slots of a layout are as wide as the layout;
- `LaidOut.unique`, `Registry.HasLayout.unique`: fields and names have one layout at most;
- `Layout.slots_eq_nil`: a layout of no width holds no value, if all its values have elements;
- `Registry.HasLayout.primitive`: the values of a layout are of primitive kinds;
- `Registry.HasLayout.every`: what holds for all fields of a schema holds for the values of every
  layout.
-/

namespace RecordDiff.Schema

/-- A place of a layout where a value stands: a field of a primitive kind, and the labels of the
sections around it from the outside in. -/
structure Slot where
  sections : List String
  field : Field
  deriving DecidableEq, Repr

namespace Slot

/-- The slot with one more section around it. -/
def within (label : String) (slot : Slot) : Slot :=
  { slot with sections := label :: slot.sections }

/-- The octets of a slot. -/
def width (slot : Slot) : Nat :=
  slot.field.scalarWidth

@[simp] theorem within_field (label : String) (slot : Slot) :
    (slot.within label).field = slot.field := rfl

@[simp] theorem within_width (label : String) (slot : Slot) :
    (slot.within label).width = slot.width := rfl

end Slot

/-- The octets of slots. -/
def slotsWidth : List Slot → Nat
  | [] => 0
  | slot :: rest => slot.width + slotsWidth rest

/-- Where the slot of an index starts: behind all slots before it. -/
def offsetOf (slots : List Slot) (index : Nat) : Nat :=
  slotsWidth (slots.take index)

/-- A layout: its parts, one after the other. -/
inductive Layout where
  /-- Nothing more. -/
  | done
  /-- The value of a field, and what comes behind it. -/
  | value (field : Field) (rest : Layout)
  /-- The element of an index of a field that holds structs, and what comes behind it. -/
  | element (field : Field) (index : Nat) (inside rest : Layout)
  deriving DecidableEq, Repr

namespace Layout

/-- So many elements of a field from an index on, all alike inside, and what comes behind. -/
def elements (field : Field) (inside rest : Layout) : (count index : Nat) → Layout
  | 0, _ => rest
  | count + 1, index => .element field index inside (elements field inside rest count (index + 1))

/-- The slots of a layout in order. -/
def slots : Layout → List Slot
  | done => []
  | value field rest => ⟨[], field⟩ :: rest.slots
  | element field index inside rest =>
    inside.slots.map (Slot.within (field.elementLabel index)) ++ rest.slots

/-- The octets of a layout. -/
def width : Layout → Nat
  | done => 0
  | value field rest => field.scalarWidth + rest.width
  | element _ _ inside rest => inside.width + rest.width

/-- Whether the fields of all values of a layout have a property. -/
def Every (property : Field → Prop) (layout : Layout) : Prop :=
  ∀ slot ∈ layout.slots, property slot.field

/-- Whether every value of a layout can be decoded. -/
def Supported (layout : Layout) : Prop :=
  layout.Every fun field => field.checkSupported = .ok ()

/-- Whether every value of a layout is of a primitive kind. -/
def Primitive (layout : Layout) : Prop :=
  layout.Every fun field => ∀ name, field.kind ≠ .nested name

end Layout

/-- `LaidOut registry fields layout`: the fields, one after the other, have this layout. -/
inductive LaidOut (registry : Registry) : List Field → Layout → Prop where
  | nil : LaidOut registry [] .done
  | value {field : Field} {rest : List Field} {layout : Layout}
      (primitive : ∀ name, field.kind ≠ .nested name) (behind : LaidOut registry rest layout) :
      LaidOut registry (field :: rest) (.value field layout)
  | nested {field : Field} {rest : List Field} {name : String} {struct : Struct}
      {inside layout : Layout} (kind : field.kind = .nested name)
      (found : registry.resolve name = .ok struct)
      (within : LaidOut registry struct.fields inside) (behind : LaidOut registry rest layout) :
      LaidOut registry (field :: rest) (.elements field inside layout field.count 0)

/-- `registry.HasLayout name layout`: the struct that the name finds has this layout. -/
def Registry.HasLayout (registry : Registry) (name : String) (layout : Layout) : Prop :=
  ∃ struct, registry.resolve name = .ok struct ∧ LaidOut registry struct.fields layout

/-! ### Slots and widths -/

@[simp] theorem slotsWidth_nil : slotsWidth [] = 0 := rfl

@[simp] theorem slotsWidth_cons (slot : Slot) (rest : List Slot) :
    slotsWidth (slot :: rest) = slot.width + slotsWidth rest := rfl

@[simp] theorem slotsWidth_append (front back : List Slot) :
    slotsWidth (front ++ back) = slotsWidth front + slotsWidth back := by
  induction front with
  | nil => simp
  | cons slot rest ih => rw [List.cons_append, slotsWidth_cons, slotsWidth_cons, ih, Nat.add_assoc]

@[simp] theorem slotsWidth_map_within (label : String) (slots : List Slot) :
    slotsWidth (slots.map (Slot.within label)) = slotsWidth slots := by
  induction slots with
  | nil => rfl
  | cons slot rest ih => rw [List.map_cons, slotsWidth_cons, slotsWidth_cons, ih, Slot.within_width]

@[simp] theorem offsetOf_zero (slots : List Slot) : offsetOf slots 0 = 0 := by
  simp [offsetOf]

@[simp] theorem offsetOf_cons_succ (slot : Slot) (rest : List Slot) (index : Nat) :
    offsetOf (slot :: rest) (index + 1) = slot.width + offsetOf rest index := by
  simp [offsetOf]

/-- A statement about every slot and where it starts, for the front slot and for those behind. -/
theorem forall_slot_cons (holds : Nat → Slot → Prop) {slot : Slot} {rest : List Slot} :
    (∀ (index : Nat) (at? : Slot), (slot :: rest)[index]? = some at? →
        holds (offsetOf (slot :: rest) index) at?) ↔
      holds 0 slot ∧ ∀ (index : Nat) (at? : Slot), rest[index]? = some at? →
        holds (slot.width + offsetOf rest index) at? := by
  constructor
  · intro all
    refine ⟨by simpa using all 0 slot rfl, fun index at? found => ?_⟩
    simpa using all (index + 1) at? found
  · rintro ⟨front, behind⟩ index at? found
    cases index with
    | zero =>
      obtain rfl : slot = at? := Option.some.inj found
      simpa using front
    | succ index => simpa using behind index at? found

/-- The slots of a layout are as wide as the layout. -/
theorem Layout.slotsWidth_slots (layout : Layout) : slotsWidth layout.slots = layout.width := by
  induction layout with
  | done => rfl
  | value field rest ih => simp [slots, width, Slot.width, ih]
  | element field index inside rest ihInside ihRest => simp [slots, width, ihInside, ihRest]

theorem Layout.width_elements (field : Field) (inside rest : Layout) (count index : Nat) :
    (elements field inside rest count index).width = inside.width * count + rest.width := by
  induction count generalizing index with
  | zero => simp [elements]
  | succ count ih =>
    rw [elements, width, ih, Nat.mul_succ]
    omega

/-! ### One layout for each name -/

theorem LaidOut.nil_inv {registry : Registry} {layout : Layout}
    (laid : LaidOut registry [] layout) : layout = .done := by
  cases laid
  rfl

/-- Fields have one layout at most. -/
theorem LaidOut.unique {registry : Registry} {fields : List Field} {layout other : Layout}
    (laid : LaidOut registry fields layout) (laidToo : LaidOut registry fields other) :
    layout = other := by
  induction laid generalizing other with
  | nil => exact laidToo.nil_inv.symm
  | value primitive behind ih =>
    cases laidToo with
    | value _ behindToo => rw [ih behindToo]
    | nested kind _ _ _ => exact absurd kind (primitive _)
  | nested kind found within behind ihWithin ihBehind =>
    cases laidToo with
    | value primitive _ => exact absurd kind (primitive _)
    | nested kindToo foundToo withinToo behindToo =>
      obtain rfl : _ = _ := Kind.nested.inj (kind.symm.trans kindToo)
      obtain rfl : _ = _ := Except.ok.inj (found.symm.trans foundToo)
      rw [ihWithin withinToo, ihBehind behindToo]

theorem Registry.HasLayout.unique {registry : Registry} {name : String} {layout other : Layout}
    (laid : registry.HasLayout name layout) (laidToo : registry.HasLayout name other) :
    layout = other := by
  obtain ⟨struct, found, fields⟩ := laid
  obtain ⟨structToo, foundToo, fieldsToo⟩ := laidToo
  obtain rfl : struct = structToo := Except.ok.inj (found.symm.trans foundToo)
  exact fields.unique fieldsToo

/-! ### Properties of all values -/

section Properties

variable {property : Field → Prop} {field : Field} {inside rest layout : Layout} {index : Nat}

theorem Layout.every_done : done.Every property := by
  intro slot member
  cases member

theorem Layout.every_value :
    (value field rest).Every property ↔ property field ∧ rest.Every property := by
  simp [Every, slots]

theorem Layout.every_element :
    (element field index inside rest).Every property ↔
      inside.Every property ∧ rest.Every property := by
  simp [Every, slots, or_imp, forall_and, Slot.within]

theorem Layout.Every.elements (insideEvery : inside.Every property)
    (restEvery : rest.Every property) (count index : Nat) :
    (Layout.elements field inside rest count index).Every property := by
  induction count generalizing index with
  | zero => exact restEvery
  | succ count ih => exact every_element.2 ⟨insideEvery, ih (index + 1)⟩

/-- A value that has elements takes up octets, so a layout of no width cannot hold one. -/
theorem Layout.slots_eq_nil (populated : layout.Every fun field => 0 < field.count)
    (narrow : layout.width = 0) : layout.slots = [] := by
  cases found : layout.slots with
  | nil => rfl
  | cons slot behind =>
    have positive : 0 < slot.field.count := populated slot (found ▸ List.mem_cons_self)
    have wide : 0 < slot.width := by
      unfold Slot.width Field.scalarWidth
      split
      · exact Nat.two_pos
      · exact positive
    have total := layout.slotsWidth_slots
    rw [found, slotsWidth_cons, narrow] at total
    omega

end Properties

/-! ### Properties of all fields of a schema -/

section Schemas

variable {registry : Registry} {property : Field → Prop} {layout : Layout} {name : String}

theorem Registry.mem_structs_of_resolve {struct : Struct}
    (found : registry.resolve name = .ok struct) : struct ∈ registry.structs := by
  unfold Registry.resolve at found
  split at found
  · rename_i answer hit
    obtain rfl := Except.ok.inj found
    simp only [Registry.find?, Registry.getUnqualified?, Option.or_eq_some_iff] at hit
    rcases hit with direct | ⟨-, bare | ⟨-, search⟩⟩
    · exact List.mem_of_find?_eq_some direct
    · exact List.mem_of_find?_eq_some bare
    · exact List.mem_of_find?_eq_some search
  · cases found

theorem LaidOut.every {fields : List Field}
    (all : ∀ struct ∈ registry.structs, ∀ field ∈ struct.fields, property field)
    (declared : ∀ field ∈ fields, property field) (laid : LaidOut registry fields layout) :
    layout.Every property := by
  induction laid with
  | nil => exact Layout.every_done
  | value primitive behind ih =>
    obtain ⟨front, rest⟩ := List.forall_mem_cons.1 declared
    exact Layout.every_value.2 ⟨front, ih rest⟩
  | nested kind found within behind ihWithin ihBehind =>
    obtain ⟨-, rest⟩ := List.forall_mem_cons.1 declared
    have inside := ihWithin (all _ (Registry.mem_structs_of_resolve found))
    exact inside.elements (ihBehind rest) _ 0

/-- A field that holds structs is expanded, so the values of a layout are of primitive kinds. -/
theorem LaidOut.primitive {fields : List Field} (laid : LaidOut registry fields layout) :
    layout.Primitive := by
  induction laid with
  | nil => exact Layout.every_done
  | value primitive behind ih => exact Layout.every_value.2 ⟨primitive, ih⟩
  | nested kind found within behind ihWithin ihBehind => exact ihWithin.elements ihBehind _ 0

theorem Registry.HasLayout.primitive (laid : registry.HasLayout name layout) :
    layout.Primitive := by
  obtain ⟨struct, -, laidFields⟩ := laid
  exact laidFields.primitive

/-- What holds for every field of a schema holds for the values of every layout. -/
theorem Registry.HasLayout.every (laid : registry.HasLayout name layout)
    (all : ∀ struct ∈ registry.structs, ∀ field ∈ struct.fields, property field) :
    layout.Every property := by
  obtain ⟨struct, found, laidFields⟩ := laid
  exact laidFields.every all (all struct (Registry.mem_structs_of_resolve found))

end Schemas

end RecordDiff.Schema
