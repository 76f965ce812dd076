import Mathlib.Data.List.Basic
import RecordDiff.Proofs.FullView
import RecordDiff.Proofs.Outcome

/-!
Comparisons of parts. An element of a record is itself a record, that of its own octets; comparing
it alone shows just what the comparison of the whole shows of it. Main statements:

- `decodeField_cut`: a field that ends within a cut is decoded there as in the whole record;
- `walkLayout_cut`: a walk over a layout shows the same, and moves on as far, in a cut that holds
  the layout;
- `walkLayout_parts`: the rows of a walk over fields are those of their elements, one after the
  other, each where the walk comes to it;
- `ElementWalk.rows_eq`: the rows of an element are told from its own octets;
- `compareLabeled_pieces`: so are the rows of a comparison, and each element that holds a struct can
  be compared on its own;
- `compareLabeled_pieces_missing`: without records there is no part to compare.
-/

namespace RecordDiff.Comparison

open RecordDiff.Schema

/-- The sides cut down to so many octets from an offset on. -/
def Sides.cut (sides : Sides) (offset size : Nat) : Sides :=
  ⟨sides.left.map fun octets => (octets.drop offset).take size,
    sides.right.map fun octets => (octets.drop offset).take size⟩

/-! ### Elements of fields -/

/-- The number of elements of a field: the structs it holds, or its one value. -/
def elementCount (field : Field) : Nat :=
  match field.kind with
  | .nested _ => field.count
  | _ => 1

/-- The octets of one element of a field. -/
def elementSize (registry : Registry) (field : Field) : Nat :=
  match field.kind with
  | .nested name => (registry.byteSize name).toOption.getD 0
  | _ => field.scalarWidth

/-- Where an element of the field at a place starts: behind all fields before it and behind the
elements of the field before it. -/
def elementOffset (registry : Registry) (fields : List Field) (place index : Nat)
    (field : Field) : Nat :=
  match fields, place with
  | before :: rest, place + 1 =>
    elementCount before * elementSize registry before +
      elementOffset registry rest place index field
  | _, _ => index * elementSize registry field

/-- What a comparison shows of the element of a field that holds a struct, given the root row of the
comparison of the element alone: nothing if no row is below or if the field is computed from others
and such fields are not asked for. -/
def shownSection (filter : Filter) (field : Field) (row : Row) : List Row :=
  if row.children = [] ∨ (Filter.isPrecomputed field.name ∧ filter.showPrecomputed = false) then []
  else [row]

/-- The rows of an element of a field, told from the octets of the element alone. -/
def elementRows (registry : Registry) (filter : Filter) (field : Field) (index : Nat)
    (own : Sides) : List Row :=
  match field.kind with
  | .nested name =>
    if elementSize registry field = 0 then []
    else
      match compareLabeled registry own filter name (field.elementLabel index) with
      | .error _ => []
      | .ok tree => shownSection filter field tree.root
  | _ =>
    match walkScalar own (filter.against own.right.isSome) field 0 with
    | .error _ => []
    | .ok (rows, _) => rows

/-- The rows of fields: those of their elements in order, each from its own octets. -/
def pieceRows (registry : Registry) (sides : Sides) (filter : Filter) (fields : List Field) :
    List Row :=
  fields.zipIdx.flatMap fun (field, place) =>
    (List.range (elementCount field)).flatMap fun index =>
      elementRows registry filter field index
        (sides.cut (elementOffset registry fields place index field) (elementSize registry field))

/-! ### Cuts -/

section Cuts

variable {sides : Sides} {filter : Filter} {field : Field} {rows : List Row}
  {start offset size behind cursor : Nat}

theorem Sides.cut_present (present : sides.Present) : (sides.cut offset size).Present := by
  unfold Sides.Present Sides.cut at *
  simpa using present

theorem Sides.cut_right_isSome : (sides.cut offset size).right.isSome = sides.right.isSome := by
  simp [Sides.cut]

/-- What octets show does not depend on where they stand, unless they show nothing at all. -/
theorem showWindow_offset {octets : List UInt8} {value : String}
    (shown : Record.showWindow field offset octets = .ok value) (other : Nat) :
    Record.showWindow field other octets = .ok value := by
  unfold Record.showWindow at shown ⊢
  split at shown
  · exact shown
  · exact shown
  · split at shown
    · exact shown
    · cases shown
  · cases shown
  · exact shown

/-- A field that ends within a cut is decoded there as in the whole record. -/
theorem decodeField_cut {record : List UInt8} {value : String}
    (inside : offset + field.scalarWidth ≤ size)
    (decoded : Record.decodeField record (start + offset) field = .ok value) :
    Record.decodeField ((record.drop start).take size) offset field = .ok value := by
  unfold Record.decodeField at decoded ⊢
  cases found : Record.window record (start + offset) field.scalarWidth with
  | none => rw [found] at decoded; cases decoded
  | some octets =>
    obtain ⟨reaches, rfl⟩ := Record.window_eq_some_iff.1 found
    have own : Record.window ((record.drop start).take size) offset field.scalarWidth =
        some ((record.drop (start + offset)).take field.scalarWidth) := by
      refine Record.window_eq_some_iff.2 ⟨?_, ?_⟩
      · simp only [List.length_take, List.length_drop]
        omega
      · rw [List.drop_take, List.drop_drop, List.take_take, Nat.min_eq_left (by omega)]
    rw [found] at decoded
    rw [own]
    exact showWindow_offset decoded offset

theorem decodeSide_cut {record : Option (List UInt8)} {value : Option String}
    (inside : offset + field.scalarWidth ≤ size)
    (decoded : decodeSide record (start + offset) field = .ok value) :
    decodeSide (record.map fun octets => (octets.drop start).take size) offset field =
      .ok value := by
  cases record with
  | none => exact decoded
  | some octets =>
    simp only [decodeSide, Option.map_some] at decoded ⊢
    cases shown : Record.decodeField octets (start + offset) field with
    | error fault => rw [shown] at decoded; cases decoded
    | ok text =>
      rw [shown] at decoded
      rw [decodeField_cut inside shown]
      exact decoded

theorem walkScalar_eq_ok (walked : walkScalar sides filter field cursor = .ok (rows, behind)) :
    field.checkSupported = .ok () ∧ ∃ left right, decodeSide sides.left cursor field = .ok left ∧
      decodeSide sides.right cursor field = .ok right ∧
      rows = leafRows filter field left right ∧ behind = cursor + field.scalarWidth := by
  unfold walkScalar at walked
  cases supported : field.checkSupported with
  | error fault => rw [supported] at walked; cases walked
  | ok =>
    cases decodedLeft : decodeSide sides.left cursor field with
    | error fault => rw [supported, decodedLeft] at walked; cases walked
    | ok left =>
      cases decodedRight : decodeSide sides.right cursor field with
      | error fault => rw [supported, decodedLeft, decodedRight] at walked; cases walked
      | ok right =>
        rw [supported, decodedLeft, decodedRight] at walked
        obtain ⟨rfl, rfl⟩ := Prod.mk.inj (Except.ok.inj walked)
        exact ⟨rfl, left, right, rfl, rfl, rfl, rfl⟩

theorem walkScalar_cut (inside : offset + field.scalarWidth ≤ size)
    (walked : walkScalar sides filter field (start + offset) = .ok (rows, behind)) :
    walkScalar (sides.cut start size) filter field offset =
        .ok (rows, offset + field.scalarWidth) ∧
      behind = start + (offset + field.scalarWidth) := by
  obtain ⟨supported, left, right, decodedLeft, decodedRight, rfl, rfl⟩ := walkScalar_eq_ok walked
  refine ⟨?_, Nat.add_assoc ..⟩
  rw [walkScalar, supported, Sides.cut]
  simp only [decodeSide_cut inside decodedLeft, decodeSide_cut inside decodedRight]

/-- A walk over a layout shows the same, and moves on as far, in a cut that holds the layout. -/
theorem walkLayout_cut {layout : Layout} (inside : offset + layout.width ≤ size)
    (walked : walkLayout sides filter layout (start + offset) = .ok (rows, behind)) :
    walkLayout (sides.cut start size) filter layout offset = .ok (rows, offset + layout.width) ∧
      behind = start + (offset + layout.width) := by
  -- the cursor in the record is always ahead of that in the cut by the start of the cut
  induction layout generalizing offset rows behind with
  | done =>
    obtain ⟨rfl, rfl⟩ := Prod.mk.inj (Except.ok.inj walked)
    exact ⟨rfl, rfl⟩
  | value field rest ih =>
    rw [Layout.width] at inside ⊢
    have roomFront : offset + field.scalarWidth ≤ size := by omega
    have room : offset + field.scalarWidth + rest.width ≤ size := by omega
    obtain ⟨front, middle, back, walkedFront, walkedBack, rfl⟩ := followedBy_eq_ok walked
    obtain ⟨cutFront, rfl⟩ := walkScalar_cut roomFront walkedFront
    obtain ⟨cutBack, rfl⟩ := ih room walkedBack
    rw [walkLayout, cutFront, followedBy, cutBack, Nat.add_assoc]
    exact ⟨rfl, rfl⟩
  | element field index part rest ihPart ihRest =>
    rw [Layout.width] at inside ⊢
    rw [walkLayout] at walked ⊢
    by_cases narrow : part.width = 0
    · rw [if_pos narrow] at walked ⊢
      rw [narrow, Nat.zero_add] at inside ⊢
      exact ihRest inside walked
    · rw [if_neg narrow] at walked ⊢
      obtain ⟨front, middle, back, walkedFront, walkedBack, rfl⟩ := followedBy_eq_ok walked
      obtain ⟨children, walkedPart, rfl⟩ := changeRows_eq_ok walkedFront
      have roomPart : offset + part.width ≤ size := by omega
      have room : offset + part.width + rest.width ≤ size := by omega
      obtain ⟨cutPart, rfl⟩ := ihPart roomPart walkedPart
      obtain ⟨cutRest, rfl⟩ := ihRest room walkedBack
      rw [cutPart, changeRows, Except.map, followedBy]
      simp only [cutRest, Nat.add_assoc]
      exact ⟨trivial, trivial⟩

theorem walkLayout_moves {layout : Layout}
    (walked : walkLayout sides filter layout cursor = .ok (rows, behind)) :
    behind = cursor + layout.width := by
  have walkedThere : walkLayout sides filter layout (0 + cursor) = .ok (rows, behind) := by
    rwa [Nat.zero_add]
  rw [(walkLayout_cut (Nat.le_refl _) walkedThere).2, Nat.zero_add]

end Cuts

/-! ### Walks element by element -/

section Elements

variable {registry : Registry} {sides : Sides} {filter : Filter} {field : Field} {name : String}
  {rows : List Row} {cursor behind size index offset : Nat}

theorem elementCount_of_nested (kind : field.kind = .nested name) :
    elementCount field = field.count := by
  rw [elementCount, kind]

theorem elementCount_of_primitive (primitive : ∀ name, field.kind ≠ .nested name) :
    elementCount field = 1 := by
  unfold elementCount
  split
  · exact absurd ‹_› (primitive _)
  · rfl

theorem elementSize_of_nested (kind : field.kind = .nested name)
    (sized : registry.byteSize name = .ok size) : elementSize registry field = size := by
  rw [elementSize, kind]
  simp only [sized]
  rfl

theorem elementSize_of_primitive (primitive : ∀ name, field.kind ≠ .nested name) :
    elementSize registry field = field.scalarWidth := by
  unfold elementSize
  split
  · exact absurd ‹_› (primitive _)
  · rfl

theorem elementOffset_zero (fields : List Field) :
    elementOffset registry fields 0 index field = index * elementSize registry field := by
  cases fields <;> rfl

theorem elementOffset_succ (first : Field) (rest : List Field) (place : Nat) :
    elementOffset registry (first :: rest) (place + 1) index field =
      elementCount first * elementSize registry first +
        elementOffset registry rest place index field := rfl

/-- What a walk makes of the elements of a field that are wide enough to be looked at: it walks over
each of them in its place, and then over what comes behind. -/
theorem walkLayout_elements_eq_ok {inside rest : Layout} {count : Nat} (wide : inside.width ≠ 0)
    (walked : walkLayout sides filter (.elements field inside rest count index) cursor =
      .ok (rows, behind)) :
    ∃ (parts : Nat → List Row) (back : List Row),
      (∀ step < count, walkLayout sides filter inside (cursor + step * inside.width) =
        .ok (parts step, cursor + step * inside.width + inside.width)) ∧
      walkLayout sides filter rest (cursor + count * inside.width) = .ok (back, behind) ∧
      rows = ((List.range count).flatMap fun step =>
        sectionRows filter field (index + step) (parts step)) ++ back := by
  induction count generalizing index cursor rows with
  | zero =>
    refine ⟨fun _ => [], rows, fun step less => absurd less (Nat.not_lt_zero step), ?_, rfl⟩
    rwa [Nat.zero_mul, Nat.add_zero]
  | succ count ih =>
    rw [Layout.elements, walkLayout, if_neg wide] at walked
    obtain ⟨front, middle, back, walkedFront, walkedBack, rfl⟩ := followedBy_eq_ok walked
    obtain ⟨children, walkedInside, rfl⟩ := changeRows_eq_ok walkedFront
    obtain rfl := walkLayout_moves walkedInside
    obtain ⟨parts, last, each, walkedRest, rfl⟩ := ih walkedBack
    have next : ∀ step, cursor + (step + 1) * inside.width =
        cursor + inside.width + step * inside.width := fun step => by
      rw [Nat.succ_mul]
      omega
    refine ⟨fun step => if step = 0 then children else parts (step - 1), last, ?_, ?_, ?_⟩
    · intro step less
      cases step with
      | zero => simpa using walkedInside
      | succ step =>
        rw [next]
        simpa using each step (Nat.lt_of_succ_lt_succ less)
    · rwa [next]
    · rw [List.range_succ_eq_map, List.flatMap_cons, List.flatMap_map, List.append_assoc]
      simp [Nat.add_assoc, Nat.add_comm 1]

/-- `ElementWalk registry sides filter field index offset rows`: these are the rows of an element,
where a walk over the whole record comes to it. -/
inductive ElementWalk (registry : Registry) (sides : Sides) (filter : Filter) (field : Field)
    (index offset : Nat) : List Row → Prop where
  | value {rows : List Row} {behind : Nat} (primitive : ∀ name, field.kind ≠ .nested name)
      (walked : walkScalar sides filter field offset = .ok (rows, behind)) :
      ElementWalk registry sides filter field index offset rows
  | narrow {name : String} (kind : field.kind = .nested name)
      (sized : registry.byteSize name = .ok 0) :
      ElementWalk registry sides filter field index offset []
  | wide {name : String} {size : Nat} {inside : Layout} {children : List Row}
      (kind : field.kind = .nested name) (sized : registry.byteSize name = .ok size)
      (positive : size ≠ 0) (laid : registry.HasLayout name inside)
      (walked : walkLayout sides filter inside offset = .ok (children, offset + size)) :
      ElementWalk registry sides filter field index offset (sectionRows filter field index children)

/-- `PartsWalk registry sides filter fields cursor rows`: these are the rows of the elements of the
fields, one after the other, each where the walk comes to it. -/
def PartsWalk (registry : Registry) (sides : Sides) (filter : Filter) (fields : List Field)
    (cursor : Nat) (rows : List Row) : Prop :=
  ∃ parts : Nat → Nat → List Row,
    rows = (fields.zipIdx.flatMap fun (field, place) =>
      (List.range (elementCount field)).flatMap (parts place)) ∧
    ∀ place field, fields[place]? = some field → ∀ index < elementCount field,
      ElementWalk registry sides filter field index
        (cursor + elementOffset registry fields place index field) (parts place index)

theorem PartsWalk.nil : PartsWalk registry sides filter [] cursor [] :=
  ⟨fun _ _ => [], rfl, fun place field found => by simp at found⟩

/-- The elements of the first field come before those of the fields behind it. -/
theorem PartsWalk.cons {first : Field} {rest : List Field} {next : Nat}
    (moves : next = cursor + elementCount first * elementSize registry first)
    (front : Nat → List Row)
    (each : ∀ index < elementCount first, ElementWalk registry sides filter first index
      (cursor + index * elementSize registry first) (front index))
    (walk : PartsWalk registry sides filter rest next rows) :
    PartsWalk registry sides filter (first :: rest) cursor
      ((List.range (elementCount first)).flatMap front ++ rows) := by
  obtain ⟨parts, rfl, eachBehind⟩ := walk
  refine ⟨fun place => if place = 0 then front else parts (place - 1), ?_, ?_⟩
  · rw [List.zipIdx_cons, List.flatMap_cons, List.zipIdx_succ, List.flatMap_map]
    simp
  · intro place field found index less
    cases place with
    | zero =>
      obtain rfl : first = field := Option.some.inj found
      rw [elementOffset_zero]
      exact each index less
    | succ place =>
      rw [elementOffset_succ, ← Nat.add_assoc, ← moves]
      exact eachBehind place field found index less

/-- The rows of a walk over fields are those of their elements, each in its place. -/
theorem walkLayout_parts {fields : List Field} {layout : Layout}
    (laid : LaidOut registry fields layout)
    (sized : ∀ field ∈ fields, ∀ name, field.kind = .nested name →
      ∃ size, registry.byteSize name = .ok size)
    (walked : walkLayout sides filter layout cursor = .ok (rows, behind)) :
    PartsWalk registry sides filter fields cursor rows := by
  induction laid generalizing cursor rows with
  | nil =>
    obtain ⟨rfl, rfl⟩ := Prod.mk.inj (Except.ok.inj walked)
    exact .nil
  | @value first rest layout primitive behindLaid ih =>
    obtain ⟨front, middle, back, walkedFront, walkedBack, rfl⟩ := followedBy_eq_ok walked
    obtain ⟨-, left, right, -, -, -, rfl⟩ := walkScalar_eq_ok walkedFront
    have walk := ih (fun field member => sized field (.tail _ member)) walkedBack
    have single : elementCount first = 1 := elementCount_of_primitive primitive
    have moves : cursor + first.scalarWidth =
        cursor + elementCount first * elementSize registry first := by
      rw [single, Nat.one_mul, elementSize_of_primitive primitive]
    have parts := walk.cons moves (fun _ => front) fun index less => by
      obtain rfl : index = 0 := by omega
      rw [Nat.zero_mul, Nat.add_zero]
      exact .value primitive walkedFront
    simpa [single] using parts
  | @nested first rest name struct inside layout kind found within behindLaid ihWithin ihBehind =>
    obtain ⟨size, sizedFirst⟩ := sized first (.head _) name kind
    have laidInside : registry.HasLayout name inside := ⟨struct, found, within⟩
    obtain rfl : inside.width = size := laidInside.width_eq sizedFirst
    have restSized := fun field member => sized field (List.Mem.tail first member)
    have moves : cursor + first.count * inside.width =
        cursor + elementCount first * elementSize registry first := by
      rw [elementCount_of_nested kind, elementSize_of_nested kind sizedFirst]
    by_cases narrow : inside.width = 0
    · rw [walkLayout_elements_of_narrow narrow] at walked
      rw [narrow, Nat.mul_zero, Nat.add_zero] at moves
      have parts := (ihBehind restSized walked).cons moves (fun _ => []) fun index less =>
        .narrow kind (narrow ▸ sizedFirst)
      have none : (List.range (elementCount first)).flatMap (fun _ => ([] : List Row)) = [] := by
        simp
      rwa [none, List.nil_append] at parts
    · obtain ⟨elements, back, walkedEach, walkedRest, rfl⟩ :=
        walkLayout_elements_eq_ok narrow walked
      have parts := (ihBehind restSized walkedRest).cons moves
        (fun index => sectionRows filter first index (elements index)) fun index less => by
          rw [elementCount_of_nested kind] at less
          rw [elementSize_of_nested kind sizedFirst]
          exact .wide kind sizedFirst narrow laidInside (walkedEach index less)
      simpa [elementCount_of_nested kind] using parts

end Elements

/-! ### Comparisons -/

section Comparisons

variable {registry : Registry} {sides : Sides} {filter : Filter} {field : Field}
  {root name label : String} {struct : Struct} {inside : Layout} {children : List Row} {tree : Tree}
  {size index offset : Nat}

theorem sectionRows_eq_shownSection (hasRight : Bool) :
    sectionRows (filter.against hasRight) field index children =
      shownSection filter field (.branch (field.elementLabel index) children) := by
  have same : (filter.against hasRight).showPrecomputed = filter.showPrecomputed := rfl
  unfold sectionRows shownSection Filter.keepsSection
  rw [same]
  cases children <;> cases filter.showPrecomputed <;>
    cases Filter.isPrecomputed field.name <;> simp [Row.branch]

theorem Sides.covers_of_cut (positive : 0 < size) (covers : (sides.cut offset size).Covers size) :
    sides.Covers (offset + size) := by
  intro record member
  have own : (record.drop offset).take size ∈ (sides.cut offset size).records := by
    obtain ⟨left, right⟩ := sides
    cases left <;> cases right <;> simp_all [Sides.records, Sides.cut]
    rcases member with rfl | rfl
    · exact .inl rfl
    · exact .inr rfl
  have long := covers _ own
  -- a cut that is not empty reaches its full length only inside the record
  rw [List.length_take, List.length_drop] at long
  omega

/-- A comparison of records that succeeds has read as much of every record as the size says. -/
theorem covers_of_compareLabeled (present : sides.Present)
    (sized : registry.byteSize name = .ok size)
    (compared : compareLabeled registry sides filter name label = .ok tree) :
    sides.Covers size := by
  obtain ⟨layout, -, outcome, -⟩ :=
    (compareLabeled_outcome present registry filter name label).2 size sized
  exact (outcome.1 ⟨tree, compared⟩).1

/-- An element that a walk comes through can be compared alone, with what the walk shows below. -/
theorem compareLabeled_cut (present : sides.Present) (sized : registry.byteSize name = .ok size)
    (laid : registry.HasLayout name inside)
    (walked : walkLayout sides (filter.against sides.right.isSome) inside offset =
      .ok (children, offset + size)) (label : String) :
    compareLabeled registry (sides.cut offset size) filter name label =
      .ok ⟨.branch label children, size⟩ := by
  have width : inside.width = size := laid.width_eq sized
  have fits : 0 + inside.width ≤ size := by omega
  obtain ⟨walkedCut, -⟩ := walkLayout_cut fits walked
  rw [compareLabeled_of_sized (Sides.cut_present present) sized laid, Sides.cut_right_isSome,
    walkedCut, rootTree, Except.map, width, Nat.zero_add]

/-- What a walk shows of an element is told from the octets of the element alone. -/
theorem ElementWalk.rows_eq {rows : List Row} (present : sides.Present)
    (walk : ElementWalk registry sides (filter.against sides.right.isSome) field index offset
      rows) :
    elementRows registry filter field index
      (sides.cut offset (elementSize registry field)) = rows := by
  unfold elementRows
  cases walk with
  | value primitive walked =>
    obtain ⟨-, left, right, -, -, -, rfl⟩ := walkScalar_eq_ok walked
    have fits : 0 + field.scalarWidth ≤ field.scalarWidth := by omega
    obtain ⟨walkedCut, -⟩ := walkScalar_cut fits walked
    split
    · exact absurd ‹_› (primitive _)
    · rw [Sides.cut_right_isSome, elementSize_of_primitive primitive, walkedCut]
  | narrow kind sized =>
    rw [kind]
    exact if_pos (elementSize_of_nested kind sized)
  | wide kind sized positive laid walked =>
    rw [kind]
    simp only
    rw [elementSize_of_nested kind sized, if_neg positive,
      compareLabeled_cut present sized laid walked, sectionRows_eq_shownSection]

/-- Of a field that has a size, every nested struct has one. -/
theorem byteSize_of_sizeFields {sizeOf : String → Except Fault Nat} {owner : String}
    {fields : List Field} {total sum : Nat}
    (inner : ∀ name size, sizeOf name = .ok size → registry.byteSize name = .ok size)
    (sized : sizeFields sizeOf owner total fields = .ok sum) :
    ∀ field ∈ fields, ∀ name, field.kind = .nested name →
      ∃ size, registry.byteSize name = .ok size := by
  induction fields generalizing total with
  | nil => simp
  | cons first rest ih =>
    obtain ⟨size, sizedFirst, sizedRest⟩ := sizeFields_cons_eq_ok sized
    rintro field (_ | ⟨_, member⟩) name kind
    · obtain ⟨each, sizedEach, -⟩ := Field.size_nested_eq_ok kind sizedFirst
      exact ⟨each, inner name each sizedEach⟩
    · exact ih sizedRest field member name kind

theorem byteSize_of_mem_fields (sized : registry.byteSize root = .ok size)
    (found : registry.resolve root = .ok struct) :
    ∀ field ∈ struct.fields, ∀ name, field.kind = .nested name →
      ∃ size, registry.byteSize name = .ok size := by
  rw [Registry.byteSize, Registry.levelLimit, Registry.sizeWithin, found] at sized
  exact byteSize_of_sizeFields
    (fun name size => Registry.byteSize_of_sizeWithin (Nat.le_succ Fault.maxDepth)) sized

/-- An element that holds a struct of some width lies within every record, and comparing it alone
gives the row that is shown of it. -/
theorem ElementWalk.alone {rows : List Row} (present : sides.Present)
    (walk : ElementWalk registry sides (filter.against sides.right.isSome) field index offset rows)
    (kind : field.kind = .nested name) (sized : registry.byteSize name = .ok size)
    (positive : 0 < size) :
    sides.Covers (offset + size) ∧
      ∃ row, compareLabeled registry (sides.cut offset size) filter name
          (field.elementLabel index) = .ok ⟨row, size⟩ ∧
        elementRows registry filter field index (sides.cut offset size) =
          shownSection filter field row := by
  have rowsEq := walk.rows_eq present
  rw [elementSize_of_nested kind sized] at rowsEq
  cases walk with
  | value primitive _ => exact absurd kind (primitive name)
  | narrow kindToo sizedToo =>
    obtain rfl : name = _ := Kind.nested.inj (kind.symm.trans kindToo)
    obtain rfl : size = 0 := Except.ok.inj (sized.symm.trans sizedToo)
    exact absurd positive (Nat.lt_irrefl 0)
  | wide kindToo sizedToo _ laid walked =>
    obtain rfl : name = _ := Kind.nested.inj (kind.symm.trans kindToo)
    obtain rfl : size = _ := Except.ok.inj (sized.symm.trans sizedToo)
    have alone := compareLabeled_cut present sized laid walked (field.elementLabel index)
    refine ⟨?_, _, alone, by rw [rowsEq, sectionRows_eq_shownSection]⟩
    exact Sides.covers_of_cut positive
      (covers_of_compareLabeled (Sides.cut_present present) sized alone)

/-- A comparison of records that succeeded is a walk over the fields of its root. -/
theorem walked_of_compareLabeled (present : sides.Present)
    (compared : compareLabeled registry sides filter root label = .ok tree)
    (found : registry.resolve root = .ok struct) :
    ∃ size layout rows, registry.byteSize root = .ok size ∧
      LaidOut registry struct.fields layout ∧
      walkLayout sides (filter.against sides.right.isSome) layout 0 = .ok (rows, tree.consumed) ∧
      tree.root = .branch label rows := by
  cases sized : registry.byteSize root with
  | error fault => rw [compare_of_unsized present sized] at compared; cases compared
  | ok size =>
    obtain ⟨layout, laid, -⟩ := Registry.layout_of_sizeWithin sized
    rw [compareLabeled_of_sized present sized laid] at compared
    obtain ⟨owner, foundOwner, laidOwner⟩ := laid
    obtain rfl : struct = owner := Except.ok.inj (found.symm.trans foundOwner)
    cases walked : walkLayout sides (filter.against sides.right.isSome) layout 0 with
    | error fault => rw [walked] at compared; cases compared
    | ok outcome =>
      rw [walked] at compared
      obtain rfl := Except.ok.inj compared
      exact ⟨size, layout, outcome.1, rfl, laidOwner, walked, rfl⟩

/-- The parts of a comparison of records that succeeded. The rows below the root are those of the
elements of its fields, in order, and the rows of each element are told from its own octets alone.
An element that holds a struct of some width lies within every record; comparing its octets as that
struct, under its label, succeeds and reads just these, and the root row of this comparison is the
row of the element in the whole, unless nothing is below it or the field is computed from others and
such fields are not asked for. -/
theorem compareLabeled_pieces (present : sides.Present)
    (compared : compareLabeled registry sides filter root label = .ok tree)
    (found : registry.resolve root = .ok struct) :
    tree.root = .branch label (pieceRows registry sides filter struct.fields) ∧
      ∀ place field name size index, struct.fields[place]? = some field →
        field.kind = .nested name → registry.byteSize name = .ok size → 0 < size →
        index < field.count →
          let offset := elementOffset registry struct.fields place index field
          sides.Covers (offset + size) ∧
            ∃ row, compareLabeled registry (sides.cut offset size) filter name
                (field.elementLabel index) = .ok ⟨row, size⟩ ∧
              elementRows registry filter field index (sides.cut offset size) =
                shownSection filter field row := by
  obtain ⟨size, layout, rows, sized, laid, walked, shown⟩ :=
    walked_of_compareLabeled present compared found
  obtain ⟨parts, rfl, each⟩ := walkLayout_parts laid (byteSize_of_mem_fields sized found) walked
  simp only [Nat.zero_add] at each
  refine ⟨shown.trans (congrArg (Row.branch label) ?_), ?_⟩
  · refine List.flatMap_congr fun entry member => List.flatMap_congr fun index inRange => ?_
    have place : struct.fields[entry.2]? = some entry.1 :=
      List.mk_mem_zipIdx_iff_getElem?.1 member
    exact ((each _ _ place index (List.mem_range.1 inRange)).rows_eq present).symm
  · intro place field name size index at? kind sizedField positive less
    have walk := each place field at? index (by rwa [elementCount_of_nested kind])
    exact walk.alone present kind sizedField positive

/-- Of two elements only the second differs. It is the only one shown, and it can be compared
alone. -/
theorem compareLabeled_pieces_of_array :
    ∃ tree row, compareLabeled arrayRegistry ⟨some [0x61, 0x62], some [0x61, 0x63]⟩
        { diffOnly := true } "A" "A" = .ok tree ∧
      compareLabeled arrayRegistry ⟨some [0x62], some [0x63]⟩ { diffOnly := true } "A::E" "e[1]" =
        .ok ⟨row, 1⟩ ∧
      tree.root.children = [row] := by
  obtain ⟨tree, compared, children⟩ : ∃ tree, compareLabeled arrayRegistry
      ⟨some [0x61, 0x62], some [0x61, 0x63]⟩ { diffOnly := true } "A" "A" = .ok tree ∧
        tree.root.children = [.branch "e[1]" [.leaf "b" "" "'b'" "'c'"]] := ⟨_, rfl, rfl⟩
  have present : Sides.Present ⟨some [0x61, 0x62], some [0x61, 0x63]⟩ := .inl rfl
  obtain ⟨-, each⟩ := compareLabeled_pieces present compared rfl
  obtain ⟨-, row, alone, -⟩ := each 0 ⟨"e", .nested "A::E", 2, ""⟩ "A::E" 1 1 rfl rfl rfl
    (by decide) (by decide)
  have second : compareLabeled arrayRegistry ⟨some [0x62], some [0x63]⟩ { diffOnly := true }
      "A::E" "e[1]" = .ok ⟨.branch "e[1]" [.leaf "b" "" "'b'" "'c'"], 1⟩ := rfl
  obtain ⟨rfl, -⟩ := Tree.mk.inj (Except.ok.inj (alone.symm.trans second))
  exact ⟨tree, _, compared, second, children⟩

/-- Without records nothing is read, of the whole as of its elements: both comparisons succeed with
nothing to show, though the element has a width. -/
theorem compareLabeled_pieces_missing :
    ∃ struct, arrayRegistry.resolve "A" = .ok struct ∧
      struct.fields[0]? = some ⟨"e", .nested "A::E", 2, ""⟩ ∧
      arrayRegistry.byteSize "A::E" = .ok 1 ∧
      compareLabeled arrayRegistry ⟨none, none⟩ {} "A" "A" = .ok nothingToShow ∧
      ¬∃ row, compareLabeled arrayRegistry (Sides.cut ⟨none, none⟩ 0 1) {} "A::E" "e[0]" =
        .ok ⟨row, 1⟩ := by
  refine ⟨_, rfl, rfl, rfl, rfl, ?_⟩
  rintro ⟨row, alone⟩
  have nothing : compareLabeled arrayRegistry (Sides.cut ⟨none, none⟩ 0 1) {} "A::E" "e[0]" =
      .ok nothingToShow := rfl
  have consumed : nothingToShow.consumed = 1 :=
    congrArg Tree.consumed (Except.ok.inj (nothing.symm.trans alone))
  exact absurd consumed (by decide)

end Comparisons

end RecordDiff.Comparison
