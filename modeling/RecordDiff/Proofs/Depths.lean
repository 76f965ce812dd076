import RecordDiff.Proofs.Chains
import RecordDiff.Proofs.Walking

/-!
Sizes at a depth. A nested struct is sized twice: on the way down from the root, where the levels
above it are spent already, and once more from depth zero when a walk comes to it. The second time
gives what the first one gave, since more levels change nothing but where the levels ran out.
Main statements:

- `Registry.sizeAtDepth_eq_sizeWithin`: sizing at a depth follows the levels that are left below it;
- `Registry.Chain.sizeAtDepth_eq_ok`: below a root that has a size, every name has a size at its own
  depth, and the same one from depth zero;
- `walkWithin_eq_walkCounted`: a walk that sizes nested structs afresh is the walk that takes their
  sizes from the root;
- `sizeAtDepth_antitone`: sizes and faults at a depth are those at every smaller depth.
-/

namespace RecordDiff.Schema.Registry

variable {registry : Registry} {root name : String} {shallow deep depth size : Nat} {fault : Fault}

/-- The size of the struct that a name finds so many levels below a root. Structs nested in it stand
one level further down. -/
def sizeAtDepth (registry : Registry) (depth : Nat) (name : String) : Except Fault Nat :=
  if depth ≤ Fault.maxDepth then
    match registry.resolve name with
    | .error fault => .error fault
    | .ok struct =>
      sizeFields (fun nested => registry.sizeAtDepth (depth + 1) nested) struct.name 0 struct.fields
  else .error (.tooDeep name)
termination_by levelLimit - depth
decreasing_by
  unfold levelLimit
  omega

/-- Sizing at a depth is sizing with the levels that are left below it. -/
theorem sizeAtDepth_eq_sizeWithin (registry : Registry) (depth : Nat) (name : String) :
    registry.sizeAtDepth depth name = registry.sizeWithin (levelLimit - depth) name := by
  have limit : levelLimit = Fault.maxDepth + 1 := rfl
  induction left : levelLimit - depth generalizing depth name with
  | zero =>
    have below : ¬depth ≤ Fault.maxDepth := by omega
    rw [sizeAtDepth, if_neg below, sizeWithin_zero]
  | succ levels ih =>
    have within : depth ≤ Fault.maxDepth := by omega
    have inner : (fun nested => registry.sizeAtDepth (depth + 1) nested) =
        registry.sizeWithin levels :=
      funext fun nested => ih (depth + 1) nested (by omega)
    rw [sizeAtDepth, if_pos within, inner]
    cases found : registry.resolve name with
    | error fault => simp only [sizeWithin, found]
    | ok struct => simp only [sizeWithin, found]

theorem sizeAtDepth_zero (registry : Registry) (name : String) :
    registry.sizeAtDepth 0 name = registry.byteSize name :=
  sizeAtDepth_eq_sizeWithin registry 0 name

/-- Where a name is not too deep, it comes to the same at every smaller depth. -/
theorem sizeAtDepth_of_settled (above : shallow ≤ deep)
    (settled : Settled (registry.sizeAtDepth deep name)) :
    registry.sizeAtDepth shallow name = registry.sizeAtDepth deep name := by
  rw [sizeAtDepth_eq_sizeWithin] at settled
  rw [sizeAtDepth_eq_sizeWithin, sizeAtDepth_eq_sizeWithin]
  exact sizeWithin_of_le (Nat.sub_le_sub_left above levelLimit) settled

/-- Below a root that has a size, every name that a chain of fields leads to has a size at its own
depth, and the same one from depth zero. -/
theorem Chain.sizeAtDepth_eq_ok (chain : registry.Chain root depth name)
    (sized : registry.byteSize root = .ok size) :
    ∃ inner, registry.sizeAtDepth depth name = .ok inner ∧ registry.byteSize name = .ok inner := by
  obtain ⟨left, inner, split, counted⟩ := chain.sizeWithin sized
  have spent : levelLimit - depth = left := by omega
  have below : registry.sizeAtDepth depth name = .ok inner := by
    rw [sizeAtDepth_eq_sizeWithin, spent, counted]
  have settled : Settled (registry.sizeAtDepth depth name) := below ▸ settled_ok inner
  refine ⟨inner, below, ?_⟩
  rw [← sizeAtDepth_zero, sizeAtDepth_of_settled (Nat.zero_le depth) settled, below]

end RecordDiff.Schema.Registry

namespace RecordDiff.Comparison

open RecordDiff.Schema

/-! ### Walks with sizes from the root -/

/-- Walks over a field, given how to size a nested struct and how to walk over the fields of one. -/
def walkSizedField (sizeOf : String → Except Fault Nat) (sides : Sides) (filter : Filter)
    (walk : String → Nat → Except Fault Walked) (field : Field) (cursor : Nat) :
    Except Fault Walked :=
  match field.kind with
  | .nested name =>
    match sizeOf name with
    | .error fault => .error fault
    | .ok 0 => .ok ([], cursor)
    | .ok _ => walkElements filter field (walk name) field.count 0 cursor
  | _ => walkScalar sides filter field cursor

/-- Walks over the fields of the struct that a name finds, with so many levels left to follow. The
size of a nested struct is the one that it has at its own depth. -/
def walkCounted (registry : Registry) (sides : Sides) (filter : Filter) :
    (levels : Nat) → String → Nat → Except Fault Walked
  | 0, name, _ => .error (.tooDeep name)
  | levels + 1, name, cursor =>
    match registry.resolve name with
    | .error fault => .error fault
    | .ok struct =>
      walkFields (walkSizedField (registry.sizeAtDepth (Registry.levelLimit - levels)) sides filter
        (walkCounted registry sides filter levels)) struct.fields cursor

section Walks

variable {registry : Registry} {sides : Sides} {filter : Filter} {field : Field} {name : String}
  {levels size : Nat} {sizeOf : String → Except Fault Nat}
  {walk counted : String → Nat → Except Fault Walked}

/-- Walks over fields agree if those over the single fields do. -/
theorem walkFields_congr {fields : List Field} {one other : Field → Nat → Except Fault Walked}
    (agree : ∀ field ∈ fields, one field = other field) :
    walkFields one fields = walkFields other fields := by
  induction fields with
  | nil => rfl
  | cons field rest ih =>
    obtain ⟨first, behind⟩ := List.forall_mem_cons.1 agree
    funext cursor
    rw [walkFields_cons, walkFields_cons, first, ih behind]

/-- A field that has a size is walked over the same, whether its struct is sized afresh or was sized
on the way, if that comes to the same and so do the walks over the struct. -/
theorem walkField_eq_walkSizedField
    (sizes : ∀ name size, sizeOf name = .ok size → registry.byteSize name = .ok size)
    (walks : ∀ name size, sizeOf name = .ok size → walk name = counted name)
    (sized : field.size sizeOf = .ok size) :
    walkField registry sides filter walk field =
      walkSizedField sizeOf sides filter counted field := by
  funext cursor
  rcases field.nested_or_primitive with ⟨name, kind⟩ | primitive
  · obtain ⟨inner, onTheWay, -⟩ := Field.size_nested_eq_ok kind sized
    have afresh : registry.byteSize name = .ok inner := sizes name inner onTheWay
    have inside : walk name = counted name := walks name inner onTheWay
    cases inner with
    | zero => simp only [walkField, walkSizedField, kind, afresh, onTheWay]
    | succ inner => simp only [walkField, walkSizedField, kind, afresh, onTheWay, inside]
  · rw [walkField_of_primitive primitive]
    unfold walkSizedField
    cases kind : field.kind with
    | nested name => exact absurd kind (primitive name)
    | byte => rfl
    | word => rfl
    | text => rfl

/-- A walk that sizes nested structs afresh is the walk that takes their sizes from the root. -/
theorem walkWithin_eq_walkCounted (enough : levels ≤ Registry.levelLimit)
    (sized : registry.sizeWithin levels name = .ok size) :
    walkWithin registry sides filter levels name =
      walkCounted registry sides filter levels name := by
  induction levels generalizing name size with
  | zero => cases sized
  | succ levels ih =>
    have fewer : levels ≤ Registry.levelLimit := Nat.le_of_succ_le enough
    obtain ⟨left, struct, split, found, fields⟩ := Registry.resolve_of_sizeWithin sized
    obtain rfl : levels = left := Nat.succ.inj split
    have counted : registry.sizeAtDepth (Registry.levelLimit - levels) =
        registry.sizeWithin levels := by
      funext nested
      rw [Registry.sizeAtDepth_eq_sizeWithin, Nat.sub_sub_self fewer]
    funext cursor
    rw [walkWithin, walkCounted, found, counted]
    refine congrFun (walkFields_congr ?_) cursor
    intro field member
    obtain ⟨width, sizedField⟩ := fields field member
    refine walkField_eq_walkSizedField ?_ ?_ sizedField
    · intro name size inner
      exact Registry.byteSize_of_sizeWithin fewer inner
    · intro name size inner
      exact ih fewer inner

end Walks

/-! ### Depths that make no difference -/

/-- Sizing does not depend on the depth that it starts from. A name that has a size at some depth
has that size at every smaller depth, and one that is refused there for anything but the depth is
refused for the same reason. So under a root that has a size, every name that a chain of fields
leads to has the same size from depth zero as at its own depth, and the walk, which sizes nested
structs from depth zero, goes as if it took their sizes from the root. -/
theorem sizeAtDepth_antitone (registry : Registry) :
    (∀ name shallow deep, shallow ≤ deep →
        (∀ size, registry.sizeAtDepth deep name = .ok size →
          registry.sizeAtDepth shallow name = .ok size) ∧
        ∀ fault, registry.sizeAtDepth deep name = .error fault →
          (∀ place, fault ≠ .tooDeep place) →
            registry.sizeAtDepth shallow name = .error fault) ∧
      ∀ root size, registry.byteSize root = .ok size →
        (∀ depth nested, registry.Chain root depth nested →
          ∃ inner, registry.sizeAtDepth depth nested = .ok inner ∧
            registry.byteSize nested = .ok inner) ∧
        ∀ sides filter, walkWithin registry sides filter Registry.levelLimit root =
          walkCounted registry sides filter Registry.levelLimit root := by
  constructor
  · intro name shallow deep above
    constructor
    · intro size sized
      have settled : Settled (registry.sizeAtDepth deep name) := sized ▸ settled_ok size
      rw [Registry.sizeAtDepth_of_settled above settled, sized]
    · intro fault refused notDeep
      have settled : Settled (registry.sizeAtDepth deep name) := by
        intro place deep
        rw [refused] at deep
        exact notDeep place (Except.error.inj deep)
      rw [Registry.sizeAtDepth_of_settled above settled, refused]
  · intro root size sized
    constructor
    · intro depth nested chain
      exact chain.sizeAtDepth_eq_ok sized
    · intro sides filter
      exact walkWithin_eq_walkCounted (Nat.le_refl _) sized

/-- Rows of three cells each, and a struct that names one which is not there and then itself. -/
def deepRegistry : Registry :=
  ((Registry.empty.insert ⟨"Cell", [⟨"octets", .byte, 4, ""⟩]⟩).insert
    ⟨"Row", [⟨"cells", .nested "Cell", 3, ""⟩, ⟨"mark", .word, 1, ""⟩]⟩).insert
      ⟨"Torn", [⟨"rest", .nested "Lost", 1, ""⟩, ⟨"self", .nested "Torn", 1, ""⟩]⟩

theorem sizeAtDepth_antitone_of_deepRegistry :
    (7 ≤ 63 ∧ deepRegistry.sizeAtDepth 63 "Row" = .ok 14 ∧
        deepRegistry.sizeAtDepth 7 "Row" = .ok 14) ∧
      deepRegistry.sizeAtDepth 64 "Row" = .error (.tooDeep "Cell") ∧
      (deepRegistry.sizeAtDepth 60 "Torn" = .error (.unknownStruct "Lost") ∧
        deepRegistry.sizeAtDepth 2 "Torn" = .error (.unknownStruct "Lost")) ∧
      (deepRegistry.byteSize "Row" = .ok 14 ∧ deepRegistry.Chain "Row" 1 "Cell" ∧
        ∃ inner, deepRegistry.sizeAtDepth 1 "Cell" = .ok inner ∧
          deepRegistry.byteSize "Cell" = .ok inner) ∧
      walkWithin deepRegistry ⟨some [], none⟩ .showAll Registry.levelLimit "Row" =
        walkCounted deepRegistry ⟨some [], none⟩ .showAll Registry.levelLimit "Row" := by
  have cell : deepRegistry.Chain "Row" 1 "Cell" :=
    .field rfl List.mem_cons_self rfl .here
  have low : deepRegistry.sizeAtDepth 63 "Row" = .ok 14 := by
    rw [Registry.sizeAtDepth_eq_sizeWithin]
    rfl
  have tooLow : deepRegistry.sizeAtDepth 64 "Row" = .error (.tooDeep "Cell") := by
    rw [Registry.sizeAtDepth_eq_sizeWithin]
    rfl
  have torn : deepRegistry.sizeAtDepth 60 "Torn" = .error (.unknownStruct "Lost") := by
    rw [Registry.sizeAtDepth_eq_sizeWithin]
    rfl
  have row : deepRegistry.byteSize "Row" = .ok 14 := rfl
  obtain ⟨depths, roots⟩ := sizeAtDepth_antitone deepRegistry
  obtain ⟨sizes, -⟩ := depths "Row" 7 63 (by decide)
  obtain ⟨-, faults⟩ := depths "Torn" 2 60 (by decide)
  obtain ⟨chains, walks⟩ := roots "Row" 14 row
  refine ⟨⟨by decide, low, sizes 14 low⟩, tooLow, ⟨torn, faults _ torn ?_⟩,
    ⟨row, cell, chains 1 "Cell" cell⟩, walks _ _⟩
  intro place
  exact Fault.noConfusion

end RecordDiff.Comparison
