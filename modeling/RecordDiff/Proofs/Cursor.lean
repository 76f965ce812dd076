import RecordDiff.Proofs.Outcome

/-!
Where the cursor of a comparison goes. The walk is written a second time with the checks that the
running one does without: the cursor is moved on only if no record ends before its new place and
that place fits into 64 bits, and single octets are read from a window only at indices inside it.
Both walks give the same for everything that has a size, so that none of the checks can ever fail,
not even in a comparison that fails later for another reason. Main statements:

- `checkedShow_eq`: the octets that are read on their own are there;
- `Steady.scalar`: one step of the walk stays inside the records and moves on by the field's width;
- `steady_walkWithin`: so does a whole walk, and it moves on by the size of the struct;
- `compareLabeled_steady`: a comparison consumes the size of its root and no check stops it.
-/

namespace RecordDiff.Comparison

open RecordDiff.Schema RecordDiff.Record

/-- Why a walk with checks stops. -/
inductive Stop where
  /-- The walk without checks fails here, too. -/
  | fault (fault : Fault)
  /-- The cursor would leave a record, or 64 bits. -/
  | cursorLost (cursor width : Nat)
  /-- A window ends before the octet that is asked for. -/
  | indexLost (index length : Nat)

/-- The outcome of a walk without checks as that of one with checks. -/
def unchecked {α : Type} (outcome : Except Fault α) : Except Stop α :=
  outcome.mapError .fault

theorem unchecked_ok {α : Type} (value : α) : unchecked (.ok value) = .ok value := rfl

/-! ### The walk with checks -/

/-- The octet at an index of a window. -/
def octetAt (window : List UInt8) (index : Nat) : Except Stop UInt8 :=
  match window[index]? with
  | none => .error (.indexLost index window.length)
  | some octet => .ok octet

/-- Moves the cursor on. -/
def advance (sides : Sides) (cursor width : Nat) : Except Stop Nat :=
  if (∀ record ∈ sides.records, cursor + width ≤ record.length) ∧
      cursor + width < Text.wordLimit then
    .ok (cursor + width)
  else .error (.cursorLost cursor width)

/-- The value that the window of a field holds. Numbers are read octet by octet. -/
def checkedShow (field : Field) (offset : Nat) (octets : List UInt8) : Except Stop String :=
  match field.kind with
  | .byte =>
    if field.count = 1 then
      (octetAt octets 0).map fun octet => String.ofList (Text.decimal octet.toNat)
    else .ok (String.ofList (hexDump octets))
  | .word =>
    (octetAt octets 0).bind fun low =>
      (octetAt octets 1).map fun high => String.ofList (Text.decimal (wordValue low high))
  | _ => unchecked (showWindow field offset octets)

/-- The value of a field on one side, if that side is present. -/
def checkedSide (record : Option (List UInt8)) (offset : Nat) (field : Field) :
    Except Stop (Option String) :=
  match record with
  | none => .ok none
  | some octets =>
    match window octets offset field.scalarWidth with
    | none => .error (.fault (.truncated octets.length field.name field.scalarWidth offset))
    | some found => (checkedShow field offset found).map some

/-- Walks over a field of a primitive kind. -/
def checkedScalar (sides : Sides) (filter : Filter) (field : Field) (cursor : Nat) :
    Except Stop Walked :=
  match field.checkSupported with
  | .error fault => .error (.fault fault)
  | .ok () =>
    match checkedSide sides.left cursor field with
    | .error stop => .error stop
    | .ok left =>
      match checkedSide sides.right cursor field with
      | .error stop => .error stop
      | .ok right =>
        (advance sides cursor field.scalarWidth).map fun behind =>
          (leafRows filter field left right, behind)

/-- Walks over so many elements of a field from an index on, given how to walk over one. -/
def checkedElements (filter : Filter) (field : Field) (walk : Nat → Except Stop Walked) :
    (remaining index cursor : Nat) → Except Stop Walked
  | 0, _, cursor => .ok ([], cursor)
  | remaining + 1, index, cursor =>
    followedBy (changeRows (sectionRows filter field index) (walk cursor))
      (checkedElements filter field walk remaining (index + 1))

/-- Walks over a field, given how to walk over the fields of a struct. -/
def checkedField (registry : Registry) (sides : Sides) (filter : Filter)
    (walk : String → Nat → Except Stop Walked) (field : Field) (cursor : Nat) :
    Except Stop Walked :=
  match field.kind with
  | .nested name =>
    match registry.byteSize name with
    | .error fault => .error (.fault fault)
    | .ok 0 => .ok ([], cursor)
    | .ok _ => checkedElements filter field (walk name) field.count 0 cursor
  | _ => checkedScalar sides filter field cursor

/-- Walks over fields in order, given how to walk over one. -/
def checkedFields (walk : Field → Nat → Except Stop Walked) :
    List Field → Nat → Except Stop Walked
  | [], cursor => .ok ([], cursor)
  | field :: rest, cursor => followedBy (walk field cursor) (checkedFields walk rest)

/-- Walks over the fields of the struct that a name finds, with so many levels left to follow. -/
def checkedWithin (registry : Registry) (sides : Sides) (filter : Filter) :
    (levels : Nat) → String → Nat → Except Stop Walked
  | 0, name, _ => .error (.fault (.tooDeep name))
  | levels + 1, name, cursor =>
    match registry.resolve name with
    | .error fault => .error (.fault fault)
    | .ok struct =>
      checkedFields
        (checkedField registry sides filter (checkedWithin registry sides filter levels))
        struct.fields cursor

/-- Compares the records that are present, with every step checked. -/
def checkedCompare (registry : Registry) (sides : Sides) (filter : Filter) (root label : String) :
    Except Stop Tree :=
  if sides.left.isNone && sides.right.isNone then .ok nothingToShow
  else
    match registry.byteSize root with
    | .error fault => .error (.fault fault)
    | .ok _ =>
      (checkedWithin registry sides (filter.against sides.right.isSome) Registry.levelLimit
        root 0).map fun walked => ⟨.branch label walked.1, walked.2⟩

/-! ### One step -/

section Steps

variable {sides : Sides} {filter : Filter} {field : Field} {cursor : Nat}

/-- The octets that make up a number are inside the window of its field. -/
theorem checkedShow_eq {octets : List UInt8} (offset : Nat)
    (width : octets.length = field.scalarWidth) :
    checkedShow field offset octets = unchecked (showWindow field offset octets) := by
  unfold Field.scalarWidth at width
  unfold checkedShow showWindow
  cases kind : field.kind with
  | nested name => rfl
  | text => rfl
  | word =>
    rw [kind] at width
    match octets, width with
    | [low, high], _ => rfl
  | byte =>
    rw [kind] at width
    simp only at width ⊢
    by_cases single : field.count = 1
    · obtain ⟨octet, rfl⟩ := List.length_eq_one_iff.1 (width.trans single)
      rw [if_pos single]
      rfl
    · rw [if_neg single]
      match octets, width with
      | [], _ => rfl
      | [octet], width => exact absurd width.symm single
      | _ :: _ :: _, _ => rfl

theorem checkedSide_eq (record : Option (List UInt8)) (offset : Nat) (field : Field) :
    checkedSide record offset field = unchecked (decodeSide record offset field) := by
  cases record with
  | none => rfl
  | some octets =>
    simp only [checkedSide, decodeSide, decodeField]
    cases found : window octets offset field.scalarWidth with
    | none => rfl
    | some octets =>
      simp only
      rw [checkedShow_eq offset (length_of_window found)]
      cases showWindow field offset octets with
      | error fault => rfl
      | ok value => rfl

theorem advance_of_covers {width : Nat} (covers : sides.Covers (cursor + width))
    (fits : cursor + width < Text.wordLimit) : advance sides cursor width = .ok (cursor + width) :=
  if_pos ⟨covers, fits⟩

/-- A step moves on by the width of its field and stays inside the records. -/
theorem walkScalar_moves {rows : List Row} {behind : Nat}
    (supported : field.checkSupported = .ok ()) (covers : sides.Covers cursor)
    (walked : walkScalar sides filter field cursor = .ok (rows, behind)) :
    behind = cursor + field.scalarWidth ∧ sides.Covers behind := by
  have read : readSlots sides [⟨[], field⟩] cursor = .ok behind := by
    have passed : (walkScalar sides filter field cursor).map Prod.snd =
        readSlots sides [⟨[], field⟩] cursor := walkScalar_cursor supported
    rw [← passed, walked]
    rfl
  simpa [Slot.width] using readSlots_eq_ok read covers

end Steps

/-! ### Whole walks -/

/-- A walk that no check stops, as long as it starts inside the records and its size still fits into
64 bits, and that moves on by its size without leaving the records. -/
structure Steady (sides : Sides) (size : Nat) (checked : Nat → Except Stop Walked)
    (walk : Nat → Except Fault Walked) : Prop where
  agrees : ∀ cursor, sides.Covers cursor → cursor + size < Text.wordLimit →
    checked cursor = unchecked (walk cursor)
  moves : ∀ cursor rows behind, sides.Covers cursor → walk cursor = .ok (rows, behind) →
    behind = cursor + size ∧ sides.Covers behind

section Walks

variable {registry : Registry} {sides : Sides} {filter : Filter} {field : Field}
  {checked : Nat → Except Stop Walked} {walk : Nat → Except Fault Walked}
  {checkedInner : String → Nat → Except Stop Walked} {inner : String → Nat → Except Fault Walked}
  {sizeOf : String → Except Fault Nat} {size levels : Nat} {name : String}

theorem Steady.still :
    Steady sides 0 (fun cursor => .ok ([], cursor)) fun cursor => .ok ([], cursor) where
  agrees _ _ _ := rfl
  moves cursor rows behind covers walked := by
    obtain ⟨-, rfl⟩ := Prod.mk.inj (Except.ok.inj walked)
    exact ⟨rfl, covers⟩

/-- One step stays inside the records and moves on by the width of its field. -/
theorem Steady.scalar (supported : field.checkSupported = .ok ()) :
    Steady sides field.scalarWidth (checkedScalar sides filter field)
      (walkScalar sides filter field) where
  moves _ _ _ covers walked := walkScalar_moves supported covers walked
  agrees cursor covers fits := by
    have moved : ∀ rows behind, walkScalar sides filter field cursor = .ok (rows, behind) →
        sides.Covers behind := by
      intro rows behind walked
      exact (walkScalar_moves supported covers walked).2
    unfold walkScalar at moved ⊢
    unfold checkedScalar
    rw [supported] at moved ⊢
    rw [checkedSide_eq, checkedSide_eq]
    cases left : decodeSide sides.left cursor field with
    | error fault => rfl
    | ok shownLeft =>
      cases right : decodeSide sides.right cursor field with
      | error fault => rfl
      | ok shownRight =>
        -- both sides were decoded, so their windows end where the cursor goes
        rw [left, right] at moved
        simp only [unchecked_ok]
        rw [advance_of_covers (moved _ _ rfl) fits]
        rfl

theorem Steady.changeRows (change : List Row → List Row) (steady : Steady sides size checked walk) :
    Steady sides size (fun cursor => changeRows change (checked cursor))
      fun cursor => changeRows change (walk cursor) where
  agrees cursor covers fits := by
    rw [steady.agrees cursor covers fits]
    cases walk cursor <;> rfl
  moves cursor rows behind covers walked := by
    obtain ⟨inside, found, -⟩ := changeRows_eq_ok walked
    exact steady.moves cursor inside behind covers found

/-- Two walks one behind the other move on by both their sizes. -/
theorem Steady.followedBy {more : Nat} {checkedNext : Nat → Except Stop Walked}
    {next : Nat → Except Fault Walked} (first : Steady sides size checked walk)
    (second : Steady sides more checkedNext next) :
    Steady sides (size + more) (fun cursor => followedBy (checked cursor) checkedNext)
      fun cursor => followedBy (walk cursor) next where
  agrees cursor covers fits := by
    rw [first.agrees cursor covers (by omega)]
    cases walked : walk cursor with
    | error fault => rfl
    | ok found =>
      obtain ⟨rows, behind⟩ := found
      obtain ⟨rfl, coversBehind⟩ := first.moves cursor rows behind covers walked
      simp only [unchecked_ok, Comparison.followedBy]
      rw [second.agrees (cursor + size) coversBehind (by omega)]
      cases next (cursor + size) with
      | error fault => rfl
      | ok rest => rfl
  moves cursor rows last covers walked := by
    obtain ⟨front, behind, back, walkedFirst, walkedSecond, -⟩ := followedBy_eq_ok walked
    obtain ⟨rfl, coversBehind⟩ := first.moves cursor front behind covers walkedFirst
    obtain ⟨rfl, coversLast⟩ := second.moves (cursor + size) back last coversBehind walkedSecond
    exact ⟨Nat.add_assoc cursor size more, coversLast⟩

theorem Steady.elements (steady : Steady sides size checked walk) (count index : Nat) :
    Steady sides (size * count) (checkedElements filter field checked count index)
      (walkElements filter field walk count index) := by
  induction count generalizing index with
  | zero => exact .still
  | succ count ih =>
    have front := steady.changeRows (sectionRows filter field index)
    rw [Nat.mul_succ, Nat.add_comm, funext (walkElements_succ filter field walk count index)]
    exact front.followedBy (ih (index + 1))

/-- A field moves on by its size, also where its elements are passed over at once. -/
theorem Steady.ofField
    (sizes : ∀ name size, sizeOf name = .ok size → registry.byteSize name = .ok size)
    (steady : ∀ name size, sizeOf name = .ok size →
      Steady sides size (checkedInner name) (inner name))
    (sized : field.size sizeOf = .ok size) :
    Steady sides size (checkedField registry sides filter checkedInner field)
      (walkField registry sides filter inner field) := by
  rcases field.nested_or_primitive with ⟨name, kind⟩ | primitive
  · obtain ⟨each, sizedEach, rfl⟩ := Field.size_nested_eq_ok kind sized
    have checkedKind : checkedField registry sides filter checkedInner field = fun cursor =>
        if each = 0 then .ok ([], cursor)
        else checkedElements filter field (checkedInner name) field.count 0 cursor := by
      funext cursor
      simp only [checkedField, kind, sizes name each sizedEach]
      cases each <;> rfl
    have walkKind : walkField registry sides filter inner field = fun cursor =>
        if each = 0 then .ok ([], cursor)
        else walkElements filter field (inner name) field.count 0 cursor :=
      funext (walkField_of_nested kind (sizes name each sizedEach))
    rw [checkedKind, walkKind]
    by_cases narrow : each = 0
    · simp only [narrow, if_true, Nat.zero_mul]
      exact .still
    · simp only [narrow, if_false]
      exact (steady name each sizedEach).elements field.count 0
  · obtain ⟨supported, rfl⟩ := Field.size_primitive_eq_ok primitive sized
    have checkedKind : checkedField registry sides filter checkedInner field =
        checkedScalar sides filter field := by
      funext cursor
      unfold checkedField
      cases kind : field.kind with
      | nested name => exact absurd kind (primitive name)
      | byte => rfl
      | word => rfl
      | text => rfl
    rw [checkedKind, funext (walkField_of_primitive primitive)]
    exact .scalar supported

theorem Steady.ofFields {struct : String} {fields : List Field} {total sum : Nat}
    (sizes : ∀ name size, sizeOf name = .ok size → registry.byteSize name = .ok size)
    (steady : ∀ name size, sizeOf name = .ok size →
      Steady sides size (checkedInner name) (inner name))
    (sized : sizeFields sizeOf struct total fields = .ok sum) :
    ∃ size, sum = total + size ∧
      Steady sides size (checkedFields (checkedField registry sides filter checkedInner) fields)
        (walkFields (walkField registry sides filter inner) fields) := by
  induction fields generalizing total with
  | nil => exact ⟨0, (Except.ok.inj sized).symm, .still⟩
  | cons field rest ih =>
    obtain ⟨size, sizedField, sizedRest⟩ := sizeFields_cons_eq_ok sized
    obtain ⟨behind, rfl, steadyRest⟩ := ih sizedRest
    have steadyField : Steady sides size (checkedField registry sides filter checkedInner field)
        (walkField registry sides filter inner field) := .ofField sizes steady sizedField
    refine ⟨size + behind, Nat.add_assoc total size behind, ?_⟩
    rw [funext (walkFields_cons _ field rest)]
    exact steadyField.followedBy steadyRest

/-- A walk over a name moves on by the size of the name, with no check to stop it. -/
theorem steady_walkWithin (enough : levels ≤ Registry.levelLimit)
    (sized : registry.sizeWithin levels name = .ok size) :
    Steady sides size (checkedWithin registry sides filter levels name)
      (walkWithin registry sides filter levels name) := by
  induction levels generalizing name size with
  | zero => cases sized
  | succ levels ih =>
    have fewer : levels ≤ Registry.levelLimit := Nat.le_of_succ_le enough
    rw [Registry.sizeWithin] at sized
    cases found : registry.resolve name with
    | error fault => rw [found] at sized; cases sized
    | ok struct =>
      rw [found] at sized
      have steadyFields : ∃ inside, size = 0 + inside ∧
          Steady sides inside
            (checkedFields (checkedField registry sides filter
              (checkedWithin registry sides filter levels)) struct.fields)
            (walkFields (walkField registry sides filter (walkWithin registry sides filter levels))
              struct.fields) :=
        Steady.ofFields (fun name size inner => Registry.byteSize_of_sizeWithin fewer inner)
          (fun name size inner => ih fewer inner) sized
      obtain ⟨inside, rfl, steady⟩ := steadyFields
      rw [Nat.zero_add]
      have checkedFound : checkedWithin registry sides filter (levels + 1) name =
          checkedFields (checkedField registry sides filter
            (checkedWithin registry sides filter levels)) struct.fields := by
        funext cursor
        rw [checkedWithin, found]
      have walkFound : walkWithin registry sides filter (levels + 1) name =
          walkFields (walkField registry sides filter (walkWithin registry sides filter levels))
            struct.fields := by
        funext cursor
        rw [walkWithin, found]
      rw [checkedFound, walkFound]
      exact steady

end Walks

/-! ### Comparisons -/

/-- Sizing and walking agree. What a comparison consumes is the size of its root, whatever the
filter leaves out and whichever record is absent; and the comparison with every step checked comes
to just the same, so that no cursor leaves a record or 64 bits and no octet is read behind the end
of its window, also where the comparison fails. -/
theorem compareLabeled_steady (present : sides.Present) (registry : Registry) (filter : Filter)
    (root label : String) :
    (∀ tree, compareLabeled registry sides filter root label = .ok tree →
        registry.byteSize root = .ok tree.consumed) ∧
      checkedCompare registry sides filter root label =
        unchecked (compareLabeled registry sides filter root label) := by
  cases sized : registry.byteSize root with
  | error fault =>
    have failed : compareLabeled registry sides filter root label = .error fault :=
      compare_of_unsized present sized
    rw [failed]
    refine ⟨fun tree compared => (by cases compared), ?_⟩
    simp only [checkedCompare, present.not_absent, sized]
    rfl
  | ok size =>
    have steady : Steady sides size
        (checkedWithin registry sides (filter.against sides.right.isSome) Registry.levelLimit root)
        (walkWithin registry sides (filter.against sides.right.isSome) Registry.levelLimit root) :=
      steady_walkWithin (Nat.le_refl _) sized
    have coversStart : sides.Covers 0 := fun record _ => Nat.zero_le record.length
    have fits : 0 + size < Text.wordLimit := by
      rw [Nat.zero_add]
      exact Registry.sizeWithin_lt sized
    simp only [checkedCompare, compareLabeled, present.not_absent, sized,
      steady.agrees 0 coversStart fits]
    cases walked : walkWithin registry sides (filter.against sides.right.isSome)
        Registry.levelLimit root 0 with
    | error fault => exact ⟨fun tree compared => (by cases compared), rfl⟩
    | ok outcome =>
      obtain ⟨rows, cursor⟩ := outcome
      obtain ⟨rfl, -⟩ := steady.moves 0 rows cursor coversStart walked
      refine ⟨fun tree compared => ?_, rfl⟩
      cases compared
      rw [Nat.zero_add]

theorem compareLabeled_steady_of_tag :
    Sides.Present ⟨none, some [7, 0, 0x41, 0x42]⟩ ∧
      ∃ tree, compareLabeled tagRegistry ⟨none, some [7, 0, 0x41, 0x42]⟩ {} "Tag" "Tag" =
          .ok tree ∧
        tagRegistry.byteSize "Tag" = .ok tree.consumed ∧
        checkedCompare tagRegistry ⟨none, some [7, 0, 0x41, 0x42]⟩ {} "Tag" "Tag" = .ok tree := by
  have present : Sides.Present ⟨none, some [7, 0, 0x41, 0x42]⟩ := .inr rfl
  obtain ⟨consumed, checked⟩ := compareLabeled_steady present tagRegistry {} "Tag" "Tag"
  exact ⟨present, _, rfl, consumed _ rfl, checked⟩

end RecordDiff.Comparison
