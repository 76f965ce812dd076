import RecordDiff.Proofs.Declared
import RecordDiff.Proofs.Sizing

/-!
Chains of structs. A field that holds structs leads from the name of its own struct to the name it
holds, and a chain of such fields may come back to a struct it has passed, also where only the last
part of a name answers. Sizing follows every chain from the root, so that what has a size can be
told from the chains and the exact width of the layout. Main statements:

- `Registry.Chain.cut`, `Registry.ContainsItself.endless`: a struct that contains itself starts
  chains of every length;
- `Registry.Sound.hasLayout`: if all chains end in time and every name on them finds a struct, then
  there is a layout;
- `Registry.Sound.sizeWithin_eq`: and sizing gives its exact width, if that fits into a word;
- `Registry.sound_of_sizeWithin`: nothing else has a size;
- `byteSize_eq_ok_iff`: the three together, and that a struct which contains itself has no size.
-/

namespace RecordDiff.Schema

namespace Registry

/-- `registry.Chain name level other`: a chain of so many fields leads from one name to another.
Each field is one of the struct that the name in front of it finds. -/
inductive Chain (registry : Registry) : String → Nat → String → Prop where
  | here {name : String} : Chain registry name 0 name
  | field {name inner other : String} {level : Nat} {struct : Struct} {field : Field}
      (found : registry.resolve name = .ok struct) (member : field ∈ struct.fields)
      (kind : field.kind = .nested inner) (behind : Chain registry inner level other) :
      Chain registry name (level + 1) other

/-- Everything that chains from a name lead to can be laid out and decoded, and all of them end
before so many fields. -/
structure Sound (registry : Registry) (name : String) (levels : Nat) : Prop where
  /-- Every name on a chain finds a struct. -/
  resolves : ∀ level other, registry.Chain name level other →
    ∃ struct, registry.resolve other = .ok struct
  /-- No struct on a chain has an array of 16-bit words. -/
  decodable : ∀ level other struct, registry.Chain name level other →
    registry.resolve other = .ok struct → ∀ field ∈ struct.fields,
      ¬(field.kind = .word ∧ 1 < field.count)
  /-- No chain has so many fields. -/
  ends : ∀ other, ¬registry.Chain name levels other

/-- The struct that a name finds contains itself: a chain of at least one field leads back to a
name that finds the same struct. -/
def ContainsItself (registry : Registry) (name : String) : Prop :=
  ∃ struct level again, registry.resolve name = .ok struct ∧
    registry.Chain name (level + 1) again ∧ registry.resolve again = .ok struct

section Chains

variable {registry : Registry} {name other last : String} {level more levels : Nat}
  {struct : Struct}

/-! ### Chains -/

theorem Chain.trans (front : registry.Chain name level other)
    (back : registry.Chain other more last) : registry.Chain name (level + more) last := by
  induction front with
  | here => rwa [Nat.zero_add]
  | field found member kind behind ih =>
    rw [Nat.succ_add]
    exact .field found member kind (ih back)

/-- A chain has chains of every smaller length at its front. -/
theorem Chain.cut (chain : registry.Chain name level other) (shorter : more ≤ level) :
    ∃ middle, registry.Chain name more middle := by
  induction chain generalizing more with
  | @here name =>
    obtain rfl := Nat.le_zero.1 shorter
    exact ⟨name, .here⟩
  | @field name inner other level struct field found member kind behind ih =>
    cases more with
    | zero => exact ⟨name, .here⟩
    | succ more =>
      obtain ⟨middle, front⟩ := ih (Nat.le_of_succ_le_succ shorter)
      exact ⟨middle, .field found member kind front⟩

/-- Where a chain leads depends on the struct that it starts from only. -/
theorem Chain.congr (same : registry.resolve other = registry.resolve name)
    (chain : registry.Chain name (level + 1) last) : registry.Chain other (level + 1) last := by
  cases chain with
  | field found member kind behind => exact .field (same.trans found) member kind behind

/-- A struct that contains itself starts chains of every length. -/
theorem ContainsItself.endless (contains : registry.ContainsItself name) (level : Nat) :
    ∃ other, registry.Chain name level other := by
  obtain ⟨struct, more, again, found, round, foundAgain⟩ := contains
  -- going round once more makes a chain longer by at least one field
  have longer : ∀ length, ∃ enough other, length ≤ enough ∧ registry.Chain name enough other ∧
      registry.resolve other = .ok struct := by
    intro length
    induction length with
    | zero => exact ⟨0, name, Nat.le_refl 0, .here, found⟩
    | succ length ih =>
      obtain ⟨enough, other, long, chain, foundOther⟩ := ih
      have onward : registry.Chain other (more + 1) again :=
        round.congr (foundOther.trans found.symm)
      exact ⟨enough + (more + 1), again, by omega, chain.trans onward, foundAgain⟩
  obtain ⟨enough, other, long, chain, -⟩ := longer level
  exact chain.cut long

/-! ### From chains to layouts and sizes -/

theorem Sound.inner {inner : String} {field : Field} (sound : registry.Sound name (levels + 1))
    (found : registry.resolve name = .ok struct) (member : field ∈ struct.fields)
    (kind : field.kind = .nested inner) : registry.Sound inner levels where
  resolves level other chain := sound.resolves (level + 1) other (.field found member kind chain)
  decodable level other struct chain :=
    sound.decodable (level + 1) other struct (.field found member kind chain)
  ends other chain := sound.ends other (.field found member kind chain)

/-- Fields have a layout if every name that they hold has one. -/
theorem exists_laidOut {fields : List Field}
    (inner : ∀ field ∈ fields, ∀ name, field.kind = .nested name →
      ∃ layout, registry.HasLayout name layout) :
    ∃ layout, LaidOut registry fields layout := by
  induction fields with
  | nil => exact ⟨.done, .nil⟩
  | cons field rest ih =>
    obtain ⟨front, behind⟩ := List.forall_mem_cons.1 inner
    obtain ⟨layout, laid⟩ := ih behind
    rcases field.nested_or_primitive with ⟨name, kind⟩ | primitive
    · obtain ⟨inside, struct, found, laidInside⟩ := front name kind
      exact ⟨_, .nested kind found laidInside laid⟩
    · exact ⟨_, .value primitive laid⟩

/-- If all chains end in time and every name on them finds a struct, then there is a layout. -/
theorem Sound.hasLayout (sound : registry.Sound name levels) :
    ∃ layout, registry.HasLayout name layout := by
  induction levels generalizing name with
  | zero => exact absurd .here (sound.ends name)
  | succ levels ih =>
    obtain ⟨struct, found⟩ := sound.resolves 0 name .here
    obtain ⟨layout, laid⟩ := exists_laidOut fun field member inner kind =>
      ih (sound.inner found member kind)
    exact ⟨layout, struct, found, laid⟩

/-- Sums and products that stay below the limit in the end stay below it on the way, because every
field has an element. -/
theorem sizeFields_eq_width {sizeOf : String → Except Fault Nat} {fields : List Field}
    {layout : Layout} {owner : String} {total : Nat}
    (inner : ∀ field ∈ fields, ∀ name, field.kind = .nested name →
      ∀ inside, registry.HasLayout name inside → inside.width < Text.wordLimit →
        sizeOf name = .ok inside.width)
    (populated : ∀ field ∈ fields, 0 < field.count)
    (decodable : ∀ field ∈ fields, ¬(field.kind = .word ∧ 1 < field.count))
    (laid : LaidOut registry fields layout) (fits : total + layout.width < Text.wordLimit) :
    sizeFields sizeOf owner total fields = .ok (total + layout.width) := by
  induction laid generalizing total with
  | nil => rfl
  | @value field rest layout primitive behind ih =>
    obtain ⟨-, innerRest⟩ := List.forall_mem_cons.1 inner
    obtain ⟨-, populatedRest⟩ := List.forall_mem_cons.1 populated
    obtain ⟨decodableField, decodableRest⟩ := List.forall_mem_cons.1 decodable
    rw [Layout.width, ← Nat.add_assoc] at fits ⊢
    have sized : field.size sizeOf = .ok field.scalarWidth := by
      rw [Field.size_of_primitive primitive, Field.checkSupported_eq_ok_iff.2 decodableField]
      rfl
    have added : addSize owner total field.scalarWidth = .ok (total + field.scalarWidth) :=
      if_pos (by omega)
    rw [sizeFields_cons, sized, Except.bind, added]
    exact ih innerRest populatedRest decodableRest fits
  | @nested field rest name struct inside layout kind found within behind ihWithin ihBehind =>
    obtain ⟨innerField, innerRest⟩ := List.forall_mem_cons.1 inner
    obtain ⟨populatedField, populatedRest⟩ := List.forall_mem_cons.1 populated
    obtain ⟨-, decodableRest⟩ := List.forall_mem_cons.1 decodable
    rw [Layout.width_elements, ← Nat.add_assoc] at fits ⊢
    have once : inside.width ≤ inside.width * field.count :=
      Nat.le_mul_of_pos_right inside.width populatedField
    have sizedInside : sizeOf name = .ok inside.width :=
      innerField name kind inside ⟨struct, found, within⟩ (by omega)
    have repeated : repeatSize field.name inside.width field.count =
        .ok (inside.width * field.count) := if_pos (by omega)
    have added : addSize owner total (inside.width * field.count) =
        .ok (total + inside.width * field.count) := if_pos (by omega)
    rw [sizeFields_cons, Field.size_of_nested kind, sizedInside, Except.bind, repeated]
    simp only [Except.bind, added]
    exact ihBehind innerRest populatedRest decodableRest fits

/-- Sizing gives the exact width of a layout, if that fits into a word. -/
theorem Sound.sizeWithin_eq {layout : Layout} (sound : registry.Sound name levels)
    (populated : registry.Populated) (laid : registry.HasLayout name layout)
    (fits : layout.width < Text.wordLimit) :
    registry.sizeWithin levels name = .ok layout.width := by
  induction levels generalizing name layout with
  | zero => exact absurd .here (sound.ends name)
  | succ levels ih =>
    obtain ⟨struct, found, laidFields⟩ := laid
    rw [sizeWithin, found]
    refine (sizeFields_eq_width ?_ ?_ ?_ laidFields (by rwa [Nat.zero_add])).trans ?_
    · intro field member inner kind inside laidInside
      exact ih (sound.inner found member kind) laidInside
    · exact populated struct (mem_structs_of_resolve found)
    · exact sound.decodable 0 name struct .here found
    · rw [Nat.zero_add]

/-! ### From sizes to chains -/

theorem size_of_mem {sizeOf : String → Except Fault Nat} {fields : List Field} {field : Field}
    {owner : String} {total sum : Nat} (sized : sizeFields sizeOf owner total fields = .ok sum)
    (member : field ∈ fields) : ∃ size, field.size sizeOf = .ok size := by
  induction fields generalizing total with
  | nil => cases member
  | cons first rest ih =>
    obtain ⟨size, sizedFirst, sizedRest⟩ := sizeFields_cons_eq_ok sized
    rcases List.mem_cons.1 member with rfl | later
    · exact ⟨size, sizedFirst⟩
    · exact ih sizedRest later

/-- What a name with a size finds, and that each of its fields has a size too. -/
theorem resolve_of_sizeWithin {size : Nat} (sized : registry.sizeWithin levels name = .ok size) :
    ∃ fewer struct, levels = fewer + 1 ∧ registry.resolve name = .ok struct ∧
      ∀ field ∈ struct.fields, ∃ size, field.size (registry.sizeWithin fewer) = .ok size := by
  cases levels with
  | zero => cases sized
  | succ fewer =>
    rw [sizeWithin] at sized
    cases found : registry.resolve name with
    | error fault => rw [found] at sized; cases sized
    | ok struct =>
      rw [found] at sized
      exact ⟨fewer, struct, rfl, rfl, fun field member => size_of_mem sized member⟩

/-- Sizing reaches every name on a chain before its levels run out. -/
theorem Chain.sizeWithin {size : Nat} (chain : registry.Chain name level other)
    (sized : registry.sizeWithin levels name = .ok size) :
    ∃ left inner, levels = level + left ∧ registry.sizeWithin left other = .ok inner := by
  induction chain generalizing levels size with
  | here => exact ⟨levels, size, (Nat.zero_add levels).symm, sized⟩
  | @field name inner other level struct field found member kind behind ih =>
    obtain ⟨fewer, struct', rfl, foundToo, fields⟩ := resolve_of_sizeWithin sized
    obtain rfl : struct = struct' := Except.ok.inj (found.symm.trans foundToo)
    obtain ⟨width, sizedField⟩ := fields field member
    obtain ⟨each, sizedInner, -⟩ := Field.size_nested_eq_ok kind sizedField
    obtain ⟨left, innermost, rfl, sizedOther⟩ := ih sizedInner
    exact ⟨left, innermost, by omega, sizedOther⟩

/-- What has a size can be laid out and decoded, and all chains from it end in time. -/
theorem sound_of_sizeWithin {size : Nat} (sized : registry.sizeWithin levels name = .ok size) :
    registry.Sound name levels where
  resolves level other chain := by
    obtain ⟨left, inner, -, sizedOther⟩ := chain.sizeWithin sized
    obtain ⟨-, struct, -, found, -⟩ := resolve_of_sizeWithin sizedOther
    exact ⟨struct, found⟩
  decodable level other struct chain found field member := by
    obtain ⟨left, inner, -, sizedOther⟩ := chain.sizeWithin sized
    obtain ⟨fewer, struct', -, foundToo, fields⟩ := resolve_of_sizeWithin sizedOther
    obtain rfl : struct = struct' := Except.ok.inj (found.symm.trans foundToo)
    obtain ⟨width, sizedField⟩ := fields field member
    rintro ⟨isWord, isArray⟩
    have primitive : ∀ name, field.kind ≠ .nested name := by simp [isWord]
    obtain ⟨supported, -⟩ := Field.size_primitive_eq_ok primitive sizedField
    exact Field.checkSupported_eq_ok_iff.1 supported ⟨isWord, isArray⟩
  ends other chain := by
    obtain ⟨left, inner, enough, sizedOther⟩ := chain.sizeWithin sized
    obtain rfl : left = 0 := by omega
    cases sizedOther

end Chains

end Registry

/-! ### Which names have a size -/

/-- Which names have a size in a schema without fields of no elements, and which size. A name has
one exactly if everything that chains of fields lead to can be laid out and decoded, no chain gets
as far as the level limit, and the width of the layout fits into a word; the size is that width,
exactly. Where all chains end in time there is just one layout. A name from which a struct is
reached that contains itself has no size. -/
theorem byteSize_eq_ok_iff {registry : Registry} (populated : registry.Populated) (name : String) :
    (∀ size, registry.byteSize name = .ok size ↔
        registry.Sound name Registry.levelLimit ∧
          ∃ layout, registry.HasLayout name layout ∧ layout.width = size ∧
            size < Text.wordLimit) ∧
      (registry.Sound name Registry.levelLimit →
        ∃ layout, registry.HasLayout name layout ∧
          ∀ other, registry.HasLayout name other → other = layout) ∧
      ((∃ level other, registry.Chain name level other ∧ registry.ContainsItself other) →
        ∃ fault, registry.byteSize name = .error fault) := by
  refine ⟨?_, ?_, ?_⟩
  · intro size
    constructor
    · intro sized
      obtain ⟨layout, laid, width, -⟩ := Registry.layout_of_sizeWithin sized
      exact ⟨Registry.sound_of_sizeWithin sized, layout, laid, width,
        Registry.sizeWithin_lt sized⟩
    · rintro ⟨sound, layout, laid, rfl, fits⟩
      exact sound.sizeWithin_eq populated laid fits
  · intro sound
    obtain ⟨layout, laid⟩ := sound.hasLayout
    exact ⟨layout, laid, fun other laidToo => laidToo.unique laid⟩
  · rintro ⟨level, other, chain, contains⟩
    cases sized : registry.byteSize name with
    | error fault => exact ⟨fault, rfl⟩
    | ok size =>
      -- the chain to the struct, followed round it for long enough, gets to the limit
      obtain ⟨last, onward⟩ := contains.endless Registry.levelLimit
      obtain ⟨far, long⟩ := (chain.trans onward).cut (Nat.le_add_left _ level)
      exact absurd long ((Registry.sound_of_sizeWithin sized).ends far)

example : Registry.levelLimit = 65 := rfl

/-- A struct whose field comes back to it by the last part of its name only, and one of a single
number. -/
def knotRegistry : Registry :=
  (Registry.empty.insert ⟨"A::B", [⟨"next", .nested "C::B", 1, ""⟩]⟩).insert
    ⟨"Leaf", [⟨"value", .word, 1, ""⟩]⟩

theorem byteSize_eq_ok_iff_of_knot :
    knotRegistry.Populated ∧
      (∃ layout, knotRegistry.HasLayout "Leaf" layout ∧ layout.width = 2) ∧
      ∃ fault, knotRegistry.byteSize "B" = .error fault := by
  have populated : knotRegistry.Populated := by
    unfold Registry.Populated
    decide +kernel
  have closes : knotRegistry.ContainsItself "B" := by
    refine ⟨⟨"A::B", [⟨"next", .nested "C::B", 1, ""⟩]⟩, 0, "C::B", rfl, ?_, rfl⟩
    exact .field rfl List.mem_cons_self rfl .here
  refine ⟨populated, ?_, (byteSize_eq_ok_iff populated "B").2.2 ⟨0, "B", .here, closes⟩⟩
  obtain ⟨-, layout, laid, width, -⟩ := ((byteSize_eq_ok_iff populated "Leaf").1 2).1 rfl
  exact ⟨layout, laid, width⟩

end RecordDiff.Schema
