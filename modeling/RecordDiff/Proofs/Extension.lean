import RecordDiff.Proofs.Resolution
import RecordDiff.Proofs.Walking

/-!
Registries that grow. A struct is fresh if its name ends in a part that no other name ends in. Putting
a fresh struct into a registry gives an answer to names that had none, and so nothing that was found,
sized or compared before comes out in another way; nor does any other fault. Main statements:

- `Registry.resolve_insert_of_fresh`: a fresh struct answers to the names that end like its own, and
  to no other;
- `Undisturbed.bind`: computations are undisturbed if their steps are;
- `Registry.sizeWithin_undisturbed`, `walkWithin_undisturbed`: so are sizes and walks, for any number
  of levels;
- `insert_undisturbed`: resolution, sizes and comparisons change only where a name with the part of
  the fresh struct was unknown.
-/

namespace RecordDiff.Schema

/-- No struct of the registry has a name that ends like this one. -/
def Registry.Fresh (registry : Registry) (name : String) : Prop :=
  ∀ other ∈ registry.structs, unqualified other.name ≠ unqualified name

/-- An outcome is what it was before, unless what it was before is that some name with this last part
is unknown. -/
def Undisturbed {α : Type} (part : String) (before after : Except Fault α) : Prop :=
  after = before ∨ ∃ name, unqualified name = part ∧ before = .error (.unknownStruct name)

/-! ### Computations in steps -/

section Steps

variable {α β : Type} {part : String} {before after : Except Fault α}
  {next later : α → Except Fault β}

theorem Undisturbed.refl (outcome : Except Fault α) : Undisturbed part outcome outcome :=
  .inl rfl

theorem Undisturbed.bind (first : Undisturbed part before after)
    (nexts : ∀ value, Undisturbed part (next value) (later value)) :
    Undisturbed part (before.bind next) (after.bind later) := by
  rcases first with same | ⟨name, ends, unknown⟩
  · rw [same]
    cases before with
    | error fault => exact .refl _
    | ok value => exact nexts value
  · exact .inr ⟨name, ends, by rw [unknown]; rfl⟩

theorem Undisturbed.map (first : Undisturbed part before after) (change : α → β) :
    Undisturbed part (before.map change) (after.map change) := by
  rcases first with same | ⟨name, ends, unknown⟩
  · exact .inl (by rw [same])
  · exact .inr ⟨name, ends, by rw [unknown]; rfl⟩

end Steps

/-! ### Resolution -/

namespace Registry

variable {registry : Registry} {struct : Struct}

/-- A struct that is put in does not show where it is not asked for, nor is one of its name. -/
theorem find?_insertByName_of_not {asked : Struct → Bool} {structs : List Struct}
    (hidden : ∀ other, other.name = struct.name → asked other = false) :
    (insertByName struct structs).find? asked = structs.find? asked := by
  have unasked : asked struct = false := hidden struct rfl
  induction structs with
  | nil => simp [insertByName, unasked]
  | cons first rest ih =>
    rw [insertByName]
    split
    · simp [unasked]
    · split
      · rename_i same
        simp [unasked, hidden first same.symm]
      · rw [List.find?_cons, List.find?_cons, ih]

theorem find?_insert_of_ne {name : String} (apart : unqualified name ≠ unqualified struct.name) :
    (registry.insert struct).find? name = registry.find? name := by
  have notName : struct.name ≠ name := by
    rintro rfl
    exact apart rfl
  have notPart : struct.name ≠ unqualified name := by
    intro same
    rw [same, unqualified_unqualified] at apart
    exact apart rfl
  have notEnd : (registry.insert struct).structs.find?
        (fun other => unqualified other.name == unqualified name) =
      registry.structs.find? fun other => unqualified other.name == unqualified name := by
    apply find?_insertByName_of_not
    intro other same
    rw [same]
    exact beq_false_of_ne (Ne.symm apart)
  rw [find?, find?, getUnqualified?, getUnqualified?, get?_insert_of_ne registry notName,
    get?_insert_of_ne registry notPart, notEnd]

/-- A fresh struct answers to the names that end like its own, which had no answer before, and all
other names are answered as before. -/
theorem resolve_insert_of_fresh (fresh : registry.Fresh struct.name) (name : String) :
    (unqualified name = unqualified struct.name →
      registry.resolve name = .error (.unknownStruct name) ∧
        (registry.insert struct).resolve name = .ok struct) ∧
    (unqualified name ≠ unqualified struct.name →
      (registry.insert struct).resolve name = registry.resolve name) := by
  constructor
  · intro alike
    constructor
    · rw [resolve]
      cases found : registry.find? name with
      | none => rfl
      | some other =>
        obtain ⟨answer, member, ends⟩ :=
          exists_resolve_iff.1 ⟨other, resolve_eq_ok_iff_find?.2 found⟩
        exact absurd (ends.trans alike) (fresh answer member)
    · have member : struct ∈ (registry.insert struct).structs :=
        (get?_eq_some_iff.1 (get?_insert_self registry struct)).1
      obtain ⟨answer, found⟩ := exists_resolve_iff.2 ⟨struct, member, alike.symm⟩
      have among := (resolve_eq_ok_iff_answers.1 found).mem
      rcases mem_insertByName among with rfl | before
      · exact found
      · exact absurd ((unqualified_of_resolve found).trans alike) (fresh answer before)
  · intro apart
    rw [resolve, resolve, find?_insert_of_ne apart]

theorem resolve_undisturbed (fresh : registry.Fresh struct.name) (name : String) :
    Undisturbed (unqualified struct.name) (registry.resolve name)
      ((registry.insert struct).resolve name) := by
  obtain ⟨unknown, known⟩ := resolve_insert_of_fresh fresh name
  by_cases alike : unqualified name = unqualified struct.name
  · exact .inr ⟨name, alike, (unknown alike).1⟩
  · exact .inl (known alike)

end Registry

/-! ### Sizes -/

section Sizes

variable {part : String} {sizeOf after : String → Except Fault Nat}

theorem Field.size_undisturbed (inner : ∀ name, Undisturbed part (sizeOf name) (after name))
    (field : Field) : Undisturbed part (field.size sizeOf) (field.size after) := by
  rcases field.nested_or_primitive with ⟨name, kind⟩ | primitive
  · rw [size_of_nested kind, size_of_nested kind]
    exact (inner name).bind fun size => .refl _
  · rw [size_of_primitive primitive, size_of_primitive primitive]
    exact .refl _

theorem sizeFields_undisturbed (inner : ∀ name, Undisturbed part (sizeOf name) (after name))
    (struct : String) (total : Nat) (fields : List Field) :
    Undisturbed part (sizeFields sizeOf struct total fields)
      (sizeFields after struct total fields) := by
  induction fields generalizing total with
  | nil => exact .refl _
  | cons field rest ih =>
    rw [sizeFields_cons, sizeFields_cons]
    apply (field.size_undisturbed inner).bind
    intro size
    apply (Undisturbed.refl _).bind
    intro sum
    exact ih sum

namespace Registry

variable {registry : Registry} {struct : Struct}

theorem sizeWithin_succ_eq_bind (registry : Registry) (levels : Nat) (name : String) :
    registry.sizeWithin (levels + 1) name = (registry.resolve name).bind fun struct =>
      sizeFields (registry.sizeWithin levels) struct.name 0 struct.fields := by
  rw [sizeWithin]
  cases registry.resolve name <;> rfl

theorem sizeWithin_undisturbed (fresh : registry.Fresh struct.name) (levels : Nat)
    (name : String) :
    Undisturbed (unqualified struct.name) (registry.sizeWithin levels name)
      ((registry.insert struct).sizeWithin levels name) := by
  induction levels generalizing name with
  | zero => exact .refl _
  | succ levels ih =>
    rw [sizeWithin_succ_eq_bind, sizeWithin_succ_eq_bind]
    apply (resolve_undisturbed fresh name).bind
    intro found
    exact sizeFields_undisturbed ih found.name 0 found.fields

theorem byteSize_undisturbed (fresh : registry.Fresh struct.name) (name : String) :
    Undisturbed (unqualified struct.name) (registry.byteSize name)
      ((registry.insert struct).byteSize name) :=
  sizeWithin_undisturbed fresh levelLimit name

end Registry

end Sizes

end RecordDiff.Schema

namespace RecordDiff.Comparison

open RecordDiff.Schema

/-! ### Walks -/

section Walks

variable {part name : String} {first firstAfter : Except Fault Walked}
  {next nextAfter : Nat → Except Fault Walked} {filter : Filter} {field : Field}
  {sides : Sides} {registry : Registry} {struct : Struct}

theorem followedBy_eq_bind (first : Except Fault Walked) (next : Nat → Except Fault Walked) :
    followedBy first next =
      first.bind fun front => (next front.2).map fun back => (front.1 ++ back.1, back.2) := by
  cases first with
  | error fault => rfl
  | ok walked =>
    obtain ⟨rows, behind⟩ := walked
    simp only [followedBy, Except.bind]
    cases next behind <;> rfl

theorem followedBy_undisturbed (firsts : Undisturbed part first firstAfter)
    (nexts : ∀ cursor, Undisturbed part (next cursor) (nextAfter cursor)) :
    Undisturbed part (followedBy first next) (followedBy firstAfter nextAfter) := by
  rw [followedBy_eq_bind, followedBy_eq_bind]
  apply firsts.bind
  intro front
  exact (nexts front.2).map _

theorem walkElements_undisturbed {walk walkAfter : Nat → Except Fault Walked}
    (walks : ∀ cursor, Undisturbed part (walk cursor) (walkAfter cursor))
    (remaining index cursor : Nat) :
    Undisturbed part (walkElements filter field walk remaining index cursor)
      (walkElements filter field walkAfter remaining index cursor) := by
  induction remaining generalizing index cursor with
  | zero => exact .refl _
  | succ remaining ih =>
    rw [walkElements_succ, walkElements_succ]
    exact followedBy_undisturbed ((walks cursor).map _) (ih (index + 1))

theorem walkFields_undisturbed {walk walkAfter : Field → Nat → Except Fault Walked}
    (walks : ∀ field cursor, Undisturbed part (walk field cursor) (walkAfter field cursor))
    (fields : List Field) (cursor : Nat) :
    Undisturbed part (walkFields walk fields cursor) (walkFields walkAfter fields cursor) := by
  induction fields generalizing cursor with
  | nil => exact .refl _
  | cons field rest ih =>
    rw [walkFields_cons, walkFields_cons]
    exact followedBy_undisturbed (walks field cursor) ih

theorem walkField_eq_bind {walk : String → Nat → Except Fault Walked}
    (kind : field.kind = .nested name) (cursor : Nat) :
    walkField registry sides filter walk field cursor =
      (registry.byteSize name).bind fun size =>
        if size = 0 then .ok ([], cursor)
        else walkElements filter field (walk name) field.count 0 cursor := by
  cases sized : registry.byteSize name with
  | error fault => simp only [walkField, kind, sized, Except.bind]
  | ok size => rw [walkField_of_nested kind sized, Except.bind]

theorem walkField_undisturbed (fresh : registry.Fresh struct.name)
    {walk walkAfter : String → Nat → Except Fault Walked}
    (walks : ∀ name cursor,
      Undisturbed (unqualified struct.name) (walk name cursor) (walkAfter name cursor))
    (field : Field) (cursor : Nat) :
    Undisturbed (unqualified struct.name) (walkField registry sides filter walk field cursor)
      (walkField (registry.insert struct) sides filter walkAfter field cursor) := by
  rcases field.nested_or_primitive with ⟨name, kind⟩ | primitive
  · rw [walkField_eq_bind kind, walkField_eq_bind kind]
    apply (Registry.byteSize_undisturbed fresh name).bind
    intro size
    split
    · exact .refl _
    · exact walkElements_undisturbed (walks name) field.count 0 cursor
  · rw [walkField_of_primitive primitive, walkField_of_primitive primitive]
    exact .refl _

theorem walkWithin_succ_eq_bind (registry : Registry) (levels : Nat) (name : String)
    (cursor : Nat) :
    walkWithin registry sides filter (levels + 1) name cursor =
      (registry.resolve name).bind fun struct =>
        walkFields (walkField registry sides filter (walkWithin registry sides filter levels))
          struct.fields cursor := by
  rw [walkWithin]
  cases registry.resolve name <;> rfl

theorem walkWithin_undisturbed (fresh : registry.Fresh struct.name) (levels : Nat)
    (name : String) (cursor : Nat) :
    Undisturbed (unqualified struct.name) (walkWithin registry sides filter levels name cursor)
      (walkWithin (registry.insert struct) sides filter levels name cursor) := by
  induction levels generalizing name cursor with
  | zero => exact .refl _
  | succ levels ih =>
    rw [walkWithin_succ_eq_bind, walkWithin_succ_eq_bind]
    apply (Registry.resolve_undisturbed fresh name).bind
    intro found
    exact walkFields_undisturbed (walkField_undisturbed fresh ih) found.fields cursor

theorem compareLabeled_eq_bind (registry : Registry) (sides : Sides) (filter : Filter)
    (root label : String) :
    compareLabeled registry sides filter root label =
      if sides.left.isNone && sides.right.isNone then .ok nothingToShow
      else (registry.byteSize root).bind fun _ =>
        rootTree label (walkWithin registry sides (filter.against sides.right.isSome)
          Registry.levelLimit root 0) := by
  unfold compareLabeled
  split
  · rfl
  · cases registry.byteSize root with
    | error fault => rfl
    | ok size =>
      simp only [Except.bind, rootTree]
      cases walkWithin registry sides (filter.against sides.right.isSome) Registry.levelLimit
        root 0 <;> rfl

theorem compareLabeled_undisturbed (fresh : registry.Fresh struct.name) (sides : Sides)
    (filter : Filter) (root label : String) :
    Undisturbed (unqualified struct.name) (compareLabeled registry sides filter root label)
      (compareLabeled (registry.insert struct) sides filter root label) := by
  rw [compareLabeled_eq_bind, compareLabeled_eq_bind]
  split
  · exact .refl _
  · apply (Registry.byteSize_undisturbed fresh root).bind
    intro size
    exact (walkWithin_undisturbed fresh _ root 0).map _

end Walks

/-! ### Growth -/

/-- Putting a struct with a fresh name into a registry changes no result that there was. Under every
name the struct that is found, the size and each comparison are what they were before, faults
included, unless what was reported before is that a name which ends like the fresh one is unknown. The
names that end like it were all unknown, and find the fresh struct now. -/
theorem insert_undisturbed (registry : Registry) (struct : Struct)
    (fresh : ∀ other ∈ registry.structs, unqualified other.name ≠ unqualified struct.name) :
    (∀ name, Undisturbed (unqualified struct.name) (registry.resolve name)
      ((registry.insert struct).resolve name)) ∧
    (∀ name, Undisturbed (unqualified struct.name) (registry.byteSize name)
      ((registry.insert struct).byteSize name)) ∧
    (∀ sides filter root label,
      Undisturbed (unqualified struct.name) (compareLabeled registry sides filter root label)
        (compareLabeled (registry.insert struct) sides filter root label)) ∧
    ∀ name, unqualified name = unqualified struct.name →
      registry.resolve name = .error (.unknownStruct name) ∧
        (registry.insert struct).resolve name = .ok struct := by
  refine ⟨?_, ?_, ?_, ?_⟩
  · intro name
    exact Registry.resolve_undisturbed fresh name
  · intro name
    exact Registry.byteSize_undisturbed fresh name
  · intro sides filter root label
    exact compareLabeled_undisturbed fresh sides filter root label
  · intro name alike
    exact (Registry.resolve_insert_of_fresh fresh name).1 alike

/-- A registry with a struct that has all it needs, and one that refers to an unknown struct. -/
def lackingRegistry : Registry :=
  (Registry.empty.insert ⟨"Whole", [⟨"level", .byte, 1, ""⟩]⟩).insert
    ⟨"Lacking", [⟨"tone", .nested "Lacking::Tone", 1, ""⟩]⟩

/-- A struct for the unknown name leaves comparisons under the other struct as they are, and gives a
size to the one that had none. -/
theorem insert_undisturbed_of_lacking :
    compareLabeled (lackingRegistry.insert ⟨"Tone", [⟨"pitch", .word, 1, ""⟩]⟩)
        ⟨some [5], some [7]⟩ ⟨false, false, false⟩ "Whole" "Patch" =
      .ok ⟨.branch "Patch" [.leaf "level" "" "5" "7"], 1⟩ ∧
    lackingRegistry.byteSize "Lacking" = .error (.unknownStruct "Lacking::Tone") ∧
    (lackingRegistry.insert ⟨"Tone", [⟨"pitch", .word, 1, ""⟩]⟩).byteSize "Lacking" = .ok 2 := by
  have before : compareLabeled lackingRegistry ⟨some [5], some [7]⟩ ⟨false, false, false⟩ "Whole"
      "Patch" = .ok ⟨.branch "Patch" [.leaf "level" "" "5" "7"], 1⟩ := rfl
  obtain ⟨-, -, comparisons, -⟩ :=
    insert_undisturbed lackingRegistry ⟨"Tone", [⟨"pitch", .word, 1, ""⟩]⟩ (by decide +kernel)
  refine ⟨?_, rfl, rfl⟩
  rcases comparisons ⟨some [5], some [7]⟩ ⟨false, false, false⟩ "Whole" "Patch" with
    same | ⟨name, -, unknown⟩
  · rw [same, before]
  · rw [before] at unknown
    cases unknown

end RecordDiff.Comparison
