import RecordDiff.Proofs.Layout

/-!
Sizes and layouts. Sizing follows the same fields as a layout does, for a bounded number of levels;
running out of levels is a fault of its own. Main statements:

- `Registry.sizeWithin_of_le`: with more levels to follow, the outcome of sizing changes only where
  the levels ran out;
- `Registry.layout_of_sizeWithin`: a name that has a size has a layout of just that width, all of
  whose values can be decoded;
- `Registry.HasLayout.width_eq`: whatever the number of levels, a size is the width of the layout.
-/

namespace RecordDiff.Schema

/-- An outcome of sizing that does not come from running out of levels. -/
def Settled (outcome : Except Fault Nat) : Prop :=
  ∀ name, outcome ≠ .error (.tooDeep name)

theorem settled_ok (size : Nat) : Settled (.ok size) := by
  intro name
  simp

section Fields

variable {sizeOf deeper : String → Except Fault Nat} {field : Field} {struct name : String}
  {rest fields : List Field} {total sum size : Nat}

/-! ### One field and the fields behind it -/

theorem Field.nested_or_primitive (field : Field) :
    (∃ name, field.kind = .nested name) ∨ ∀ name, field.kind ≠ .nested name := by
  cases kind : field.kind with
  | nested name => exact .inl ⟨name, rfl⟩
  | byte => exact .inr fun name => Kind.noConfusion
  | word => exact .inr fun name => Kind.noConfusion
  | text => exact .inr fun name => Kind.noConfusion

theorem Field.checkSupported_of_nested (kind : field.kind = .nested name) :
    field.checkSupported = .ok () := by
  rw [checkSupported_eq_ok_iff, kind]
  simp

theorem Field.size_of_primitive (primitive : ∀ name, field.kind ≠ .nested name) :
    field.size sizeOf = field.checkSupported.map fun _ => field.scalarWidth := by
  unfold Field.size
  cases field.checkSupported with
  | error fault => rfl
  | ok =>
    cases kind : field.kind with
    | nested name => exact absurd kind (primitive name)
    | byte => rfl
    | word => rfl
    | text => rfl

theorem Field.size_of_nested (kind : field.kind = .nested name) :
    field.size sizeOf = (sizeOf name).bind fun size => repeatSize field.name size field.count := by
  simp only [Field.size, checkSupported_of_nested kind, kind]
  cases sizeOf name with
  | error fault => rfl
  | ok size => rfl

theorem sizeFields_cons :
    sizeFields sizeOf struct total (field :: rest) =
      (field.size sizeOf).bind fun size =>
        (addSize struct total size).bind fun sum => sizeFields sizeOf struct sum rest := by
  rw [sizeFields]
  cases field.size sizeOf with
  | error fault => rfl
  | ok size =>
    simp only [Except.bind]
    cases addSize struct total size with
    | error fault => rfl
    | ok sum => rfl

theorem repeatSize_eq_ok {count product : Nat} (sized : repeatSize name size count = .ok product) :
    product = size * count := by
  unfold repeatSize at sized
  split at sized
  · exact (Except.ok.inj sized).symm
  · cases sized

theorem addSize_eq_ok (sized : addSize name total size = .ok sum) : sum = total + size := by
  unfold addSize at sized
  split at sized
  · exact (Except.ok.inj sized).symm
  · cases sized

/-- Fields have a size only if the first of them has one and so have those behind it. -/
theorem sizeFields_cons_eq_ok (sized : sizeFields sizeOf struct total (field :: rest) = .ok sum) :
    ∃ size, field.size sizeOf = .ok size ∧
      sizeFields sizeOf struct (total + size) rest = .ok sum := by
  rw [sizeFields_cons] at sized
  cases first : field.size sizeOf with
  | error fault => rw [first] at sized; cases sized
  | ok size =>
    cases added : addSize struct total size with
    | error fault => rw [first, Except.bind, added] at sized; cases sized
    | ok more =>
      rw [first, Except.bind, added, addSize_eq_ok added] at sized
      exact ⟨size, rfl, sized⟩

theorem Field.size_primitive_eq_ok (primitive : ∀ name, field.kind ≠ .nested name)
    (sized : field.size sizeOf = .ok size) :
    field.checkSupported = .ok () ∧ size = field.scalarWidth := by
  rw [size_of_primitive primitive] at sized
  cases supported : field.checkSupported with
  | error fault => rw [supported] at sized; cases sized
  | ok =>
    rw [supported] at sized
    exact ⟨rfl, (Except.ok.inj sized).symm⟩

theorem Field.size_nested_eq_ok (kind : field.kind = .nested name)
    (sized : field.size sizeOf = .ok size) :
    ∃ inner, sizeOf name = .ok inner ∧ size = inner * field.count := by
  rw [size_of_nested kind] at sized
  cases nested : sizeOf name with
  | error fault => rw [nested] at sized; cases sized
  | ok inner =>
    rw [nested] at sized
    exact ⟨inner, rfl, repeatSize_eq_ok sized⟩

/-! ### More levels -/

theorem Field.size_congr (agree : ∀ name, Settled (sizeOf name) → deeper name = sizeOf name)
    (settled : Settled (field.size sizeOf)) : field.size deeper = field.size sizeOf := by
  rcases field.nested_or_primitive with ⟨name, kind⟩ | primitive
  · rw [size_of_nested kind] at settled ⊢
    have inner : Settled (sizeOf name) := by
      intro other deep
      rw [deep] at settled
      exact settled other rfl
    rw [size_of_nested kind, agree name inner]
  · rw [size_of_primitive primitive, size_of_primitive primitive]

theorem sizeFields_congr (agree : ∀ name, Settled (sizeOf name) → deeper name = sizeOf name)
    (settled : Settled (sizeFields sizeOf struct total fields)) :
    sizeFields deeper struct total fields = sizeFields sizeOf struct total fields := by
  induction fields generalizing total with
  | nil => rfl
  | cons field rest ih =>
    rw [sizeFields_cons] at settled ⊢
    have first : Settled (field.size sizeOf) := by
      intro name deep
      rw [deep] at settled
      exact settled name rfl
    rw [sizeFields_cons, Field.size_congr agree first]
    cases sized : field.size sizeOf with
    | error fault => rfl
    | ok size =>
      rw [sized] at settled
      simp only [Except.bind] at settled ⊢
      cases added : addSize struct total size with
      | error fault => rfl
      | ok sum =>
        rw [added] at settled
        exact ih settled

end Fields

namespace Registry

variable {registry : Registry} {name : String} {levels more size : Nat} {layout : Layout}

/-- One level more changes nothing where the levels were enough. -/
theorem sizeWithin_succ (settled : Settled (registry.sizeWithin levels name)) :
    registry.sizeWithin (levels + 1) name = registry.sizeWithin levels name := by
  induction levels generalizing name with
  | zero => exact absurd rfl (settled name)
  | succ levels ih =>
    rw [sizeWithin] at settled ⊢
    cases found : registry.resolve name with
    | error fault => simp only [sizeWithin, found]
    | ok struct =>
      rw [found] at settled
      rw [sizeWithin, found]
      exact sizeFields_congr (fun name inner => ih inner) settled

/-- More levels change nothing where the levels were enough. -/
theorem sizeWithin_of_le (enough : levels ≤ more)
    (settled : Settled (registry.sizeWithin levels name)) :
    registry.sizeWithin more name = registry.sizeWithin levels name := by
  induction enough with
  | refl => rfl
  | step _ ih => rw [sizeWithin_succ (ih ▸ settled), ih]

theorem byteSize_of_sizeWithin (enough : levels ≤ levelLimit)
    (sized : registry.sizeWithin levels name = .ok size) : registry.byteSize name = .ok size := by
  rw [byteSize, sizeWithin_of_le enough (sized ▸ settled_ok size), sized]

/-! ### The layout behind a size -/

/-- The name has a layout of this width, and all of its values can be decoded. -/
def Measures (registry : Registry) (name : String) (size : Nat) : Prop :=
  ∃ layout, registry.HasLayout name layout ∧ layout.width = size ∧ layout.Supported

/-- If every struct that sizing follows has the layout it should, then so have fields that have a
size. -/
theorem layout_of_sizeFields {sizeOf : String → Except Fault Nat} {struct : String}
    {fields : List Field} {total sum : Nat}
    (inner : ∀ name size, sizeOf name = .ok size → registry.Measures name size)
    (sized : sizeFields sizeOf struct total fields = .ok sum) :
    ∃ layout, LaidOut registry fields layout ∧ total + layout.width = sum ∧ layout.Supported := by
  induction fields generalizing total with
  | nil => exact ⟨.done, .nil, Except.ok.inj sized, Layout.every_done⟩
  | cons field rest ih =>
    obtain ⟨size, first, behind⟩ := sizeFields_cons_eq_ok sized
    obtain ⟨layout, laid, width, supported⟩ := ih behind
    rcases field.nested_or_primitive with ⟨name, kind⟩ | primitive
    · obtain ⟨each, sizedEach, rfl⟩ := Field.size_nested_eq_ok kind first
      obtain ⟨inside, ⟨found, resolved, laidInside⟩, rfl, supportedInside⟩ :=
        inner name each sizedEach
      refine ⟨_, .nested kind resolved laidInside laid, ?_, supportedInside.elements supported _ _⟩
      rw [Layout.width_elements]
      omega
    · obtain ⟨decodable, rfl⟩ := Field.size_primitive_eq_ok primitive first
      refine ⟨_, .value primitive laid, ?_, Layout.every_value.2 ⟨decodable, supported⟩⟩
      rw [Layout.width]
      omega

/-- A name that has a size has a layout of just that width, all of whose values can be decoded. -/
theorem layout_of_sizeWithin (sized : registry.sizeWithin levels name = .ok size) :
    registry.Measures name size := by
  induction levels generalizing name size with
  | zero => cases sized
  | succ levels ih =>
    rw [sizeWithin] at sized
    cases found : registry.resolve name with
    | error fault => rw [found] at sized; cases sized
    | ok struct =>
      rw [found] at sized
      obtain ⟨layout, laid, width, supported⟩ :=
        layout_of_sizeFields (fun name size inner => ih inner) sized
      exact ⟨layout, ⟨struct, found, laid⟩, by omega, supported⟩

theorem HasLayout.width_eq (laid : registry.HasLayout name layout)
    (sized : registry.sizeWithin levels name = .ok size) : layout.width = size := by
  obtain ⟨other, laidToo, width, -⟩ := layout_of_sizeWithin sized
  rw [laid.unique laidToo, width]

theorem HasLayout.supported (laid : registry.HasLayout name layout)
    (sized : registry.sizeWithin levels name = .ok size) : layout.Supported := by
  obtain ⟨other, laidToo, -, supported⟩ := layout_of_sizeWithin sized
  exact laid.unique laidToo ▸ supported

end Registry

end RecordDiff.Schema
