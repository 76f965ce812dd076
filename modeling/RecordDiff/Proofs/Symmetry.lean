import RecordDiff.Proofs.Outcome

/-!
The two sides of a comparison are treated alike. Two walks over one layout go together if their
steps do, whatever it is that relates their rows and their faults; with the right relation this says
what a comparison makes of one record, and of two records that change places. Main statements:

- `walkLayout_corresponds`: walks over a layout correspond if they do so on each field;
- `compareLabeled_single`: it does not matter on which side a single record stands, nor whether it
  stands on both;
- `compareLabeled_mirror`: exchanging the records mirrors the tree, and no fault but one of decoding
  can become another.
-/

namespace RecordDiff.Comparison

open RecordDiff.Schema

/-! ### Walks side by side -/

/-- How two walks can go together: which rows go with which, and which faults. -/
structure Correspondence where
  rows : List Row → List Row → Prop
  faults : Fault → Fault → Prop

namespace Correspondence

/-- Two walks end at one cursor with rows that go together, or both fail with faults that do. -/
inductive Outcomes (related : Correspondence) :
    Except Fault Walked → Except Fault Walked → Prop where
  | walked {front back : List Row} {cursor : Nat} (shown : related.rows front back) :
      Outcomes related (.ok (front, cursor)) (.ok (back, cursor))
  | failed {fault other : Fault} (reported : related.faults fault other) :
      Outcomes related (.error fault) (.error other)

/-- Rows that are put together from rows that go together do so as well, under these filters. -/
structure Keeps (related : Correspondence) (filter other : Filter) : Prop where
  nothing : related.rows [] []
  append {front back more moreBack : List Row} : related.rows front back →
    related.rows more moreBack → related.rows (front ++ more) (back ++ moreBack)
  sections {front back : List Row} (field : Field) (index : Nat) : related.rows front back →
    related.rows (sectionRows filter field index front) (sectionRows other field index back)

section Walks

variable {related : Correspondence} {filter otherFilter : Filter} {sides otherSides : Sides}
  {first other : Except Fault Walked} {next otherNext : Nat → Except Fault Walked}

theorem Outcomes.followedBy (keeps : related.Keeps filter otherFilter)
    (firsts : related.Outcomes first other)
    (nexts : ∀ behind, related.Outcomes (next behind) (otherNext behind)) :
    related.Outcomes (followedBy first next) (followedBy other otherNext) := by
  cases firsts with
  | failed reported => exact .failed reported
  | @walked front back behind shown =>
    have later := nexts behind
    simp only [Comparison.followedBy]
    generalize next behind = outcome at later ⊢
    generalize otherNext behind = otherOutcome at later ⊢
    cases later with
    | failed reported => exact .failed reported
    | walked more => exact .walked (keeps.append shown more)

theorem Outcomes.changeRows {change otherChange : List Row → List Row}
    (outcomes : related.Outcomes first other)
    (changes : ∀ front back, related.rows front back →
      related.rows (change front) (otherChange back)) :
    related.Outcomes (changeRows change first) (changeRows otherChange other) := by
  cases outcomes with
  | failed reported => exact .failed reported
  | walked shown => exact .walked (changes _ _ shown)

/-- Walks over a layout correspond if they do so on each field of a primitive kind, and if sections
keep that up. -/
theorem walkLayout_corresponds (keeps : related.Keeps filter otherFilter)
    (values : ∀ field cursor, (∀ name, field.kind ≠ .nested name) → related.Outcomes
      (walkScalar sides filter field cursor) (walkScalar otherSides otherFilter field cursor))
    {layout : Layout} (primitive : layout.Primitive) (cursor : Nat) :
    related.Outcomes (walkLayout sides filter layout cursor)
      (walkLayout otherSides otherFilter layout cursor) := by
  induction layout generalizing cursor with
  | done => exact .walked keeps.nothing
  | value field rest ih =>
    obtain ⟨primitiveField, primitiveRest⟩ := Layout.every_value.1 primitive
    exact (values field cursor primitiveField).followedBy keeps (ih primitiveRest)
  | element field index inside rest ihInside ihRest =>
    obtain ⟨primitiveInside, primitiveRest⟩ := Layout.every_element.1 primitive
    rw [walkLayout, walkLayout]
    by_cases narrow : inside.width = 0
    · rw [if_pos narrow, if_pos narrow]
      exact ihRest primitiveRest cursor
    · rw [if_neg narrow, if_neg narrow]
      have inner := (ihInside primitiveInside cursor).changeRows fun _ _ =>
        keeps.sections field index
      exact inner.followedBy keeps (ihRest primitiveRest)

/-- Comparisons under one root are made of walks that correspond, if walks do so on each field of a
primitive kind. -/
theorem compareLabeled_corresponds (present : sides.Present) (otherPresent : otherSides.Present)
    (keeps : related.Keeps (filter.against sides.right.isSome)
      (otherFilter.against otherSides.right.isSome))
    (same : ∀ fault, related.faults fault fault)
    (values : ∀ field cursor, (∀ name, field.kind ≠ .nested name) → related.Outcomes
      (walkScalar sides (filter.against sides.right.isSome) field cursor)
      (walkScalar otherSides (otherFilter.against otherSides.right.isSome) field cursor))
    (registry : Registry) (root label : String) :
    ∃ outcome otherOutcome, related.Outcomes outcome otherOutcome ∧
      compareLabeled registry sides filter root label = rootTree label outcome ∧
      compareLabeled registry otherSides otherFilter root label = rootTree label otherOutcome := by
  cases sized : registry.byteSize root with
  | error fault =>
    exact ⟨.error fault, .error fault, .failed (same fault), compare_of_unsized present sized,
      compare_of_unsized otherPresent sized⟩
  | ok size =>
    obtain ⟨layout, laid, -⟩ := Registry.layout_of_sizeWithin sized
    exact ⟨_, _, walkLayout_corresponds keeps values laid.primitive 0,
      compareLabeled_of_sized present sized laid label,
      compareLabeled_of_sized otherPresent sized laid label⟩

end Walks

end Correspondence

/-! ### One record -/

/-- `Single record filter sides used`: the sides hold no record but one. The filter that is used can
ask for differences only where a side is absent. -/
inductive Single (record : List UInt8) (filter : Filter) : Sides → Filter → Prop where
  | left (diffOnly : Bool) :
      Single record filter ⟨some record, none⟩ { filter with diffOnly := diffOnly }
  | right (diffOnly : Bool) :
      Single record filter ⟨none, some record⟩ { filter with diffOnly := diffOnly }
  | both : Single record filter ⟨some record, some record⟩ { filter with diffOnly := false }

/-- Walks over a field of a primitive kind in one record, and shows each value on both sides. -/
def walkSingle (record : List UInt8) (filter : Filter) (field : Field) (cursor : Nat) :
    Except Fault Walked :=
  match field.checkSupported with
  | .error fault => .error fault
  | .ok () =>
    match Record.decodeField record cursor field with
    | .error fault => .error fault
    | .ok value =>
      let rows :=
        if filter.showUnknown || !Filter.isUnknown field.name then
          [.leaf field.name field.comment value value]
        else []
      .ok (rows, cursor + field.scalarWidth)

/-- Rows go with themselves, as long as both sides of every leaf are equal. -/
def Correspondence.balanced : Correspondence where
  rows front back := back = front ∧ ∀ leaf ∈ Row.leavesOf front, leaf.left = leaf.right
  faults fault other := other = fault

section OneRecord

variable {record : List UInt8} {filter used otherUsed : Filter} {sides otherSides : Sides}

theorem Single.present (single : Single record filter sides used) : sides.Present := by
  cases single with
  | left => exact .inl rfl
  | right => exact .inr rfl
  | both => exact .inl rfl

/-- With one record, every field is walked over alike, wherever the record stands. -/
theorem Single.walkScalar_eq (single : Single record filter sides used) (field : Field)
    (cursor : Nat) :
    walkScalar sides (used.against sides.right.isSome) field cursor =
      walkSingle record filter field cursor := by
  unfold walkScalar walkSingle
  cases field.checkSupported with
  | error fault => rfl
  | ok =>
    cases single <;> cases decoded : Record.decodeField record cursor field <;>
      simp [decodeSide, decoded, Except.map, leafRows, Filter.keepsLeaf, Filter.against]

theorem Single.sectionRows_eq (single : Single record filter sides used) (field : Field)
    (index : Nat) (children : List Row) :
    sectionRows (used.against sides.right.isSome) field index children =
      sectionRows filter field index children := by
  cases single <;> rfl

theorem leavesOf_sectionRows_subset {filter : Filter} {field : Field} {index : Nat}
    {children : List Row} {leaf : Row}
    (member : leaf ∈ Row.leavesOf (sectionRows filter field index children)) :
    leaf ∈ Row.leavesOf children := by
  unfold sectionRows at member
  split at member
  · simpa [Row.leavesOf, Row.leaves_branch] using member
  · simp [Row.leavesOf] at member

theorem walkSingle_balanced (record : List UInt8) (filter : Filter) (field : Field)
    (cursor : Nat) :
    Correspondence.balanced.Outcomes (walkSingle record filter field cursor)
      (walkSingle record filter field cursor) := by
  unfold walkSingle
  cases field.checkSupported with
  | error fault => exact .failed rfl
  | ok =>
    cases Record.decodeField record cursor field with
    | error fault => exact .failed rfl
    | ok value =>
      refine .walked ⟨rfl, fun leaf member => ?_⟩
      split at member
      · rw [Row.leavesOf, Row.leaves_leaf] at member
        obtain rfl : leaf = .leaf field.name field.comment value value := by
          simpa [Row.leavesOf] using member
        rfl
      · simp [Row.leavesOf] at member

theorem Single.keeps (single : Single record filter sides used)
    (other : Single record filter otherSides otherUsed) :
    Correspondence.balanced.Keeps (used.against sides.right.isSome)
      (otherUsed.against otherSides.right.isSome) where
  nothing := ⟨rfl, fun leaf member => by simp [Row.leavesOf] at member⟩
  append := by
    rintro front _ more _ ⟨rfl, balanced⟩ ⟨rfl, balancedMore⟩
    refine ⟨rfl, fun leaf member => ?_⟩
    rw [Row.leavesOf_append, List.mem_append] at member
    exact member.elim (balanced leaf) (balancedMore leaf)
  sections := by
    rintro front _ field index ⟨rfl, balanced⟩
    rw [single.sectionRows_eq, other.sectionRows_eq]
    exact ⟨rfl, fun leaf member => balanced leaf (leavesOf_sectionRows_subset member)⟩

/-- All comparisons of one record come to the same, and both sides of every leaf are equal. -/
theorem Single.compareLabeled_eq (single : Single record filter sides used)
    (other : Single record filter otherSides otherUsed) (registry : Registry)
    (root label : String) :
    compareLabeled registry otherSides otherUsed root label =
        compareLabeled registry sides used root label ∧
      ∀ tree, compareLabeled registry sides used root label = .ok tree →
        ∀ leaf ∈ tree.root.leaves, leaf.left = leaf.right := by
  have values : ∀ field cursor, (∀ name, field.kind ≠ .nested name) →
      Correspondence.balanced.Outcomes
        (walkScalar sides (used.against sides.right.isSome) field cursor)
        (walkScalar otherSides (otherUsed.against otherSides.right.isSome) field cursor) := by
    intro field cursor _
    rw [single.walkScalar_eq, other.walkScalar_eq]
    exact walkSingle_balanced record filter field cursor
  obtain ⟨outcome, otherOutcome, outcomes, compared, otherCompared⟩ :=
    Correspondence.compareLabeled_corresponds single.present other.present (single.keeps other)
      (fun _ => rfl) values registry root label
  rw [compared, otherCompared]
  cases outcomes with
  | failed reported =>
    cases reported
    exact ⟨rfl, fun tree failed => by cases failed⟩
  | walked shown =>
    obtain ⟨rfl, balanced⟩ := shown
    refine ⟨rfl, fun tree found => ?_⟩
    cases found
    rw [Row.leaves_branch]
    exact balanced

end OneRecord

/-- One record is compared alike on either side, and just as with itself when all leaves are asked
for: with the same tree, octets read and fault. Both sides of every leaf are equal then, and leaving
out what is equal has no effect where a side is absent. -/
theorem compareLabeled_single (registry : Registry) (record : List UInt8) (filter : Filter)
    (root label : String) :
    compareLabeled registry ⟨none, some record⟩ filter root label =
        compareLabeled registry ⟨some record, none⟩ filter root label ∧
      compareLabeled registry ⟨some record, some record⟩ { filter with diffOnly := false } root
          label =
        compareLabeled registry ⟨some record, none⟩ filter root label ∧
      (∀ diffOnly,
        compareLabeled registry ⟨some record, none⟩ { filter with diffOnly := diffOnly } root
              label =
            compareLabeled registry ⟨some record, none⟩ filter root label ∧
          compareLabeled registry ⟨none, some record⟩ { filter with diffOnly := diffOnly } root
              label =
            compareLabeled registry ⟨none, some record⟩ filter root label) ∧
      ∀ tree, compareLabeled registry ⟨some record, none⟩ filter root label = .ok tree →
        ∀ leaf ∈ tree.root.leaves, leaf.left = leaf.right := by
  have left : Single record filter ⟨some record, none⟩ filter := .left filter.diffOnly
  have right : Single record filter ⟨none, some record⟩ filter := .right filter.diffOnly
  refine ⟨(left.compareLabeled_eq right registry root label).1,
    (left.compareLabeled_eq .both registry root label).1, fun diffOnly => ⟨?_, ?_⟩,
    (left.compareLabeled_eq left registry root label).2⟩
  · exact (left.compareLabeled_eq (.left diffOnly) registry root label).1
  · exact (right.compareLabeled_eq (.right diffOnly) registry root label).1

/-- Where only differences are asked for, a record alone on the right still shows everything. -/
theorem compareLabeled_single_of_tag :
    ∃ tree, compareLabeled tagRegistry ⟨none, some [7, 0, 0x41, 0x42]⟩ { diffOnly := true }
        "Tag" "Tag" = .ok tree ∧
      tree.root.leaves.length = 2 ∧ ∀ leaf ∈ tree.root.leaves, leaf.left = leaf.right := by
  obtain ⟨onRight, -, -, balanced⟩ :=
    compareLabeled_single tagRegistry [7, 0, 0x41, 0x42] { diffOnly := true } "Tag" "Tag"
  obtain ⟨tree, compared, length⟩ : ∃ tree, compareLabeled tagRegistry
      ⟨some [7, 0, 0x41, 0x42], none⟩ { diffOnly := true } "Tag" "Tag" = .ok tree ∧
        tree.root.leaves.length = 2 := ⟨_, rfl, rfl⟩
  exact ⟨tree, onRight.trans compared, length, balanced tree compared⟩

/-! ### Sides exchanged -/

namespace Row

mutual

/-- The row with left and right exchanged in it and in all rows below. -/
def mirror : Row → Row
  | ⟨label, comment, left, right, children⟩ => ⟨label, comment, right, left, mirrorRows children⟩

/-- Rows with left and right exchanged in all of them and below, in the same order. -/
def mirrorRows : List Row → List Row
  | [] => []
  | row :: rest => row.mirror :: mirrorRows rest

end

mutual

theorem mirror_mirror (row : Row) : row.mirror.mirror = row := by
  obtain ⟨label, comment, left, right, children⟩ := row
  rw [mirror, mirror, mirrorRows_mirrorRows children]

theorem mirrorRows_mirrorRows (rows : List Row) : mirrorRows (mirrorRows rows) = rows := by
  cases rows with
  | nil => simp [mirrorRows]
  | cons row rest =>
    rw [mirrorRows, mirrorRows, mirror_mirror row, mirrorRows_mirrorRows rest]

end

theorem mirrorRows_append (front back : List Row) :
    mirrorRows (front ++ back) = mirrorRows front ++ mirrorRows back := by
  induction front with
  | nil => simp [mirrorRows]
  | cons row rest ih => rw [List.cons_append, mirrorRows, mirrorRows, ih, List.cons_append]

theorem isEmpty_mirrorRows (rows : List Row) : (mirrorRows rows).isEmpty = rows.isEmpty := by
  cases rows <;> simp [mirrorRows]

theorem mirror_leaf (label comment left right : String) :
    (leaf label comment left right).mirror = leaf label comment right left := by
  simp [leaf, mirror, mirrorRows]

theorem mirror_branch (label : String) (children : List Row) :
    (branch label children).mirror = branch label (mirrorRows children) := by
  simp [branch, mirror]

end Row

/-- The tree with left and right exchanged in every row. -/
def Tree.mirror (tree : Tree) : Tree :=
  { tree with root := tree.root.mirror }

theorem Tree.mirror_mirror (tree : Tree) : tree.mirror.mirror = tree := by
  simp [Tree.mirror, Row.mirror_mirror]

/-- Faults of one kind, which are the same unless they are faults of decoding. -/
def AlikeUnlessDecoding (fault other : Fault) : Prop :=
  other.kind = fault.kind ∧ (fault.kind ≠ .decode → other = fault)

/-- Rows go with their mirror images. -/
def Correspondence.mirrored : Correspondence where
  rows front back := back = Row.mirrorRows front
  faults := AlikeUnlessDecoding

section Exchange

variable {filter : Filter} {left right : List UInt8}

theorem AlikeUnlessDecoding.refl (fault : Fault) : AlikeUnlessDecoding fault fault :=
  ⟨rfl, fun _ => rfl⟩

theorem alikeUnlessDecoding_of_decode {fault other : Fault} (decoding : fault.kind = .decode)
    (otherDecoding : other.kind = .decode) : AlikeUnlessDecoding fault other :=
  ⟨otherDecoding.trans decoding.symm, fun not => absurd decoding not⟩

theorem leafRows_mirror (filter : Filter) (field : Field) (left right : String) :
    leafRows filter field (some right) (some left) =
      Row.mirrorRows (leafRows filter field (some left) (some right)) := by
  have agree : filter.keepsLeaf field.name (some right) (some left) =
      filter.keepsLeaf field.name (some left) (some right) := by
    simp only [Filter.keepsLeaf, Bool.beq_comm]
  simp only [leafRows, agree]
  split <;> simp [Row.mirrorRows, Row.mirror_leaf]

theorem sectionRows_mirror (filter : Filter) (field : Field) (index : Nat) (children : List Row) :
    sectionRows filter field index (Row.mirrorRows children) =
      Row.mirrorRows (sectionRows filter field index children) := by
  have agree : filter.keepsSection field.name (Row.mirrorRows children) =
      filter.keepsSection field.name children := by
    rw [Filter.keepsSection, Filter.keepsSection, Row.isEmpty_mirrorRows]
  simp only [sectionRows, agree]
  split <;> simp [Row.mirrorRows, Row.mirror_branch]

/-- A field is shown mirrored. If it cannot be decoded in either record, the fault is that of the
record that is decoded first. -/
theorem walkScalar_mirrored (left right : List UInt8) (filter : Filter) (field : Field)
    (cursor : Nat) (primitive : ∀ name, field.kind ≠ .nested name) :
    Correspondence.mirrored.Outcomes (walkScalar ⟨some left, some right⟩ filter field cursor)
      (walkScalar ⟨some right, some left⟩ filter field cursor) := by
  unfold walkScalar
  cases field.checkSupported with
  | error fault => exact .failed (.refl fault)
  | ok =>
    simp only [decodeSide]
    cases inLeft : Record.decodeField left cursor field with
    | error fault =>
      cases inRight : Record.decodeField right cursor field with
      | error other =>
        exact .failed (alikeUnlessDecoding_of_decode (kind_of_decodeField primitive inLeft)
          (kind_of_decodeField primitive inRight))
      | ok value => exact .failed (.refl fault)
    | ok value =>
      cases inRight : Record.decodeField right cursor field with
      | error other => exact .failed (.refl other)
      | ok other => exact .walked (leafRows_mirror filter field value other)

theorem keeps_mirrored (filter : Filter) : Correspondence.mirrored.Keeps filter filter where
  nothing := by simp [Correspondence.mirrored, Row.mirrorRows]
  append := by
    rintro front _ more _ rfl rfl
    exact (Row.mirrorRows_append front more).symm
  sections := by
    rintro front _ field index rfl
    exact sectionRows_mirror filter field index front

/-- Two comparisons with exchanged records are made of mirrored walks. -/
theorem compareLabeled_mirrored (registry : Registry) (filter : Filter) (root label : String)
    (left right : List UInt8) :
    ∃ outcome other, Correspondence.mirrored.Outcomes outcome other ∧
      compareLabeled registry ⟨some left, some right⟩ filter root label = rootTree label outcome ∧
      compareLabeled registry ⟨some right, some left⟩ filter root label = rootTree label other := by
  have forth : Sides.Present ⟨some left, some right⟩ := .inl rfl
  have back : Sides.Present ⟨some right, some left⟩ := .inl rfl
  exact Correspondence.compareLabeled_corresponds forth back (keeps_mirrored _)
    AlikeUnlessDecoding.refl (walkScalar_mirrored left right (filter.against true)) registry root
    label

theorem compareLabeled_eq_ok_mirror {registry : Registry} {root label : String} {tree : Tree}
    (compared : compareLabeled registry ⟨some left, some right⟩ filter root label = .ok tree) :
    compareLabeled registry ⟨some right, some left⟩ filter root label = .ok tree.mirror := by
  obtain ⟨outcome, other, outcomes, forth, back⟩ :=
    compareLabeled_mirrored registry filter root label left right
  rw [forth] at compared
  rw [back]
  cases outcomes with
  | failed reported => cases compared
  | walked shown =>
    cases compared
    cases shown
    simp [rootTree, Except.map, Tree.mirror, Row.mirror_branch]

end Exchange

/-- Exchanging two records mirrors their comparison. It succeeds with a tree exactly if the other
one succeeds with the mirrored tree and as many octets read; and if it fails, so does the other one,
with a fault of the same kind, and with the same fault unless that is one of decoding. -/
theorem compareLabeled_mirror (registry : Registry) (filter : Filter) (root label : String)
    (left right : List UInt8) :
    (∀ tree, compareLabeled registry ⟨some left, some right⟩ filter root label = .ok tree ↔
        compareLabeled registry ⟨some right, some left⟩ filter root label = .ok tree.mirror) ∧
      ∀ fault, compareLabeled registry ⟨some left, some right⟩ filter root label = .error fault →
        ∃ other, compareLabeled registry ⟨some right, some left⟩ filter root label = .error other ∧
          other.kind = fault.kind ∧ (fault.kind ≠ .decode → other = fault) := by
  refine ⟨fun tree => ⟨compareLabeled_eq_ok_mirror, fun compared => ?_⟩, fun fault failed => ?_⟩
  · rw [← tree.mirror_mirror]
    exact compareLabeled_eq_ok_mirror compared
  · obtain ⟨outcome, other, outcomes, forth, back⟩ :=
      compareLabeled_mirrored registry filter root label left right
    rw [forth] at failed
    rw [back]
    cases outcomes with
    | walked shown => cases failed
    | @failed fault other reported =>
      cases failed
      exact ⟨other, rfl, reported⟩

/-- A difference in a number is shown mirrored. Where one record is too short for a text and the
text of the other is not UTF-8, it depends on the order of the records which of this is reported. -/
theorem compareLabeled_mirror_of_tag :
    (∃ tree, compareLabeled tagRegistry ⟨some [7, 0, 0x41, 0x42], some [8, 0, 0x41, 0x42]⟩
          { diffOnly := true } "Tag" "Tag" = .ok tree ∧
        compareLabeled tagRegistry ⟨some [8, 0, 0x41, 0x42], some [7, 0, 0x41, 0x42]⟩
          { diffOnly := true } "Tag" "Tag" = .ok tree.mirror) ∧
      ∃ fault other, compareLabeled tagRegistry ⟨some [7, 0, 0x41], some [7, 0, 0xff, 0xff]⟩
          { diffOnly := true } "Tag" "Tag" = .error fault ∧
        compareLabeled tagRegistry ⟨some [7, 0, 0xff, 0xff], some [7, 0, 0x41]⟩
          { diffOnly := true } "Tag" "Tag" = .error other ∧
        other.kind = fault.kind ∧ other ≠ fault := by
  have mirror := compareLabeled_mirror tagRegistry { diffOnly := true } "Tag" "Tag"
  constructor
  · obtain ⟨tree, compared⟩ : ∃ tree, compareLabeled tagRegistry
        ⟨some [7, 0, 0x41, 0x42], some [8, 0, 0x41, 0x42]⟩ { diffOnly := true } "Tag" "Tag" =
          .ok tree := ⟨_, rfl⟩
    exact ⟨tree, compared, ((mirror _ _).1 tree).1 compared⟩
  · have short : compareLabeled tagRegistry ⟨some [7, 0, 0x41], some [7, 0, 0xff, 0xff]⟩
        { diffOnly := true } "Tag" "Tag" = .error (.truncated 3 "name" 2 2) := rfl
    obtain ⟨other, failed, kind, -⟩ := (mirror _ _).2 _ short
    refine ⟨_, other, short, failed, kind, ?_⟩
    rintro rfl
    cases failed

end RecordDiff.Comparison
