import RecordDiff.Schema.Reader

/-!
Where the fields of a schema come from. Whatever is read, each field that ends up in a registry was
declared on one of the logical lines, as that line is read by itself. Facts about single
declarations, such as that a count is never zero, hold for registries in this way. Main statements:

- `readBody_declared`: reading a body adds only fields that its lines declare;
- `Registry.declared_of_ofString`: every field of a schema is declared on one of its lines;
- `Registry.populated_of_ofString`: no field of a schema has no elements.
-/

namespace RecordDiff.Schema

/-- The field is declared on one of the lines. -/
def Field.DeclaredOn (lines : List LogicalLine) (field : Field) : Prop :=
  ∃ line ∈ lines, ∃ text token bare, line.piece = .declaration text field.comment ∧
    structName? text = none ∧
    readDeclaration line.number text = .ok (token, field.name, field.count) ∧
    field.kind = qualify bare token

/-- Every field of the registry is declared on one of the lines. -/
def Registry.DeclaredOn (lines : List LogicalLine) (registry : Registry) : Prop :=
  ∀ struct ∈ registry.structs, ∀ field ∈ struct.fields, field.DeclaredOn lines

/-- Every field of the registry has elements. -/
def Registry.Populated (registry : Registry) : Prop :=
  ∀ struct ∈ registry.structs, ∀ field ∈ struct.fields, 0 < field.count

/-! ### Registries as they are read -/

section Reading

variable {all lines : List LogicalLine} {registry result : Registry} {struct : Struct}
  {bare : String}

theorem Registry.declaredOn_empty : Registry.empty.DeclaredOn all := by
  intro struct member
  simp [Registry.empty] at member

theorem Registry.DeclaredOn.insert (declared : registry.DeclaredOn all)
    (fields : ∀ field ∈ struct.fields, field.DeclaredOn all) :
    (registry.insert struct).DeclaredOn all := by
  intro other member
  rcases mem_insertByName member with rfl | earlier
  · exact fields
  · exact declared other earlier

theorem Reading.map_behind_eq_ok {line : LogicalLine} {outcome : Except Fault (Reading lines)}
    {reading : Reading (line :: lines)} (read : outcome.map (Reading.behind line) = .ok reading) :
    ∃ inner, outcome = .ok inner ∧ reading = inner.behind line := by
  cases outcome with
  | error fault => cases read
  | ok inner => exact ⟨inner, rfl, (Except.ok.inj read).symm⟩

/-- Reading a body adds only fields that its lines declare. -/
theorem readBody_declared {reading : Reading lines} (inside : lines ⊆ all)
    (declared : registry.DeclaredOn all) (fields : ∀ field ∈ struct.fields, field.DeclaredOn all)
    (read : readBody bare struct registry lines = .ok reading) :
    reading.rest ⊆ lines ∧ reading.registry.DeclaredOn all := by
  fun_induction readBody bare struct registry lines with
  | case1 bare struct registry =>
    cases read
    exact ⟨List.Subset.refl _, declared.insert fields⟩
  | case2 bare struct registry line rest opening ih =>
    obtain ⟨inner, found, rfl⟩ := Reading.map_behind_eq_ok read
    obtain ⟨fewer, declaredInner⟩ := ih (List.subset_of_cons_subset inside) declared fields found
    exact ⟨List.subset_cons_of_subset line fewer, declaredInner⟩
  | case3 bare struct registry line rest closing =>
    cases read
    exact ⟨List.subset_cons_self line rest, declared.insert fields⟩
  | case4 => cases read
  | case5 => cases read
  | case6 bare struct registry line rest text comment piece nested opens inner foundInner outer
      foundOuter ihInner ihOuter =>
    cases read
    have insideRest : rest ⊆ all := List.subset_of_cons_subset inside
    obtain ⟨fewerInner, declaredInner⟩ :=
      ihInner insideRest declared (by simp [openNested]) foundInner
    obtain ⟨fewerOuter, declaredOuter⟩ :=
      ihOuter (List.Subset.trans fewerInner insideRest) declaredInner fields foundOuter
    exact ⟨List.subset_cons_of_subset line (List.Subset.trans fewerOuter fewerInner), declaredOuter⟩
  | case7 => cases read
  | case8 bare struct registry line rest text comment piece opensNone token name count declaration
      ih =>
    -- the one place where a field comes in
    have declaredField : Field.DeclaredOn all ⟨name, qualify bare token, count, comment⟩ :=
      ⟨line, inside List.mem_cons_self, text, token, bare, piece, opensNone, declaration, rfl⟩
    have fieldsNow : ∀ field ∈ (struct.push ⟨name, qualify bare token, count, comment⟩).fields,
        field.DeclaredOn all := by
      intro field member
      rcases List.mem_append.1 member with earlier | new
      · exact fields field earlier
      · obtain rfl := List.mem_singleton.1 new
        exact declaredField
    obtain ⟨inner, found, rfl⟩ := Reading.map_behind_eq_ok read
    obtain ⟨fewer, declaredInner⟩ := ih (List.subset_of_cons_subset inside) declared fieldsNow found
    exact ⟨List.subset_cons_of_subset line fewer, declaredInner⟩

theorem readLines_declared (inside : lines ⊆ all) (declared : registry.DeclaredOn all)
    (read : readLines registry lines = .ok result) : result.DeclaredOn all := by
  fun_induction readLines registry lines with
  | case1 registry =>
    cases read
    exact declared
  | case2 => cases read
  | case3 registry line rest text comment piece nested opens reading found ih =>
    obtain ⟨fewer, declaredBody⟩ :=
      readBody_declared (List.subset_of_cons_subset inside) declared (by simp) found
    exact ih (List.Subset.trans fewer (List.subset_of_cons_subset inside)) declaredBody read
  | case4 registry line rest text comment piece opensNone ih =>
    exact ih (List.subset_of_cons_subset inside) declared read
  | case5 registry line rest brace ih =>
    exact ih (List.subset_of_cons_subset inside) declared read

end Reading

/-! ### Schemas -/

section Schemas

variable {source : String} {registry : Registry}

theorem readLines_of_ofString (read : Registry.ofString source = .ok registry) :
    readLines .empty (LogicalLine.ofText source.toList) = .ok registry := by
  unfold Registry.ofString readText at read
  split at read
  · cases read
  · split at read
    · cases read
    · rename_i found
      unfold nonEmptyRegistry at read
      split at read
      · cases read
      · cases read
        exact found

/-- Every field of a schema is declared on one of its lines. -/
theorem Registry.declared_of_ofString (read : Registry.ofString source = .ok registry) :
    registry.DeclaredOn (LogicalLine.ofText source.toList) :=
  readLines_declared (List.Subset.refl _) declaredOn_empty (readLines_of_ofString read)

theorem readCount_eq_ok_iff {count : Nat} {digits : List Char} (line : Nat) :
    readCount line digits = .ok count ↔ Text.readNumeral 10 digits = .ok count ∧ 0 < count := by
  unfold readCount
  cases Text.readNumeral 10 digits with
  | error cause => simp
  | ok value =>
    cases value with
    | zero =>
      simp only [Except.ok.injEq, reduceCtorEq, false_iff]
      rintro ⟨rfl, positive⟩
      exact Nat.lt_irrefl 0 positive
    | succ value =>
      simp only [Except.ok.injEq]
      exact ⟨fun same => ⟨same, same ▸ Nat.succ_pos value⟩, And.left⟩

/-- A count that is not read is refused, and shown with its line. -/
theorem readCount_of_refused {line : Nat} {text : List Char}
    (refused : ∀ value, readCount line text ≠ .ok value) :
    readCount line text = .error (.badCount line (String.ofList text)) := by
  unfold readCount at refused ⊢
  split
  · rename_i value read
    rw [read] at refused
    exact absurd rfl (refused (value + 1))
  · rfl

/-- `draft.Counts count`: that many elements are declared, one where no number of them is given. -/
def Draft.Counts (draft : Draft) (count : Nat) : Prop :=
  match draft.count with
  | none => count = 1
  | some digits => Text.readNumeral 10 digits = .ok count ∧ 0 < count

/-- A declaration that can be read has one of the forms, and a count if its form gives one. -/
theorem readDeclaration_eq_ok_iff {line count : Nat} {text : List Char} {token name : String} :
    readDeclaration line text = .ok (token, name, count) ↔
      ∃ draft, Draft.ofText? text = some draft ∧ draft.Counts count ∧
        token = String.ofList draft.token ∧ name = String.ofList draft.name := by
  unfold readDeclaration Draft.Counts
  cases Draft.ofText? text with
  | none => simp
  | some draft =>
    simp only [Option.some.injEq, exists_eq_left']
    cases draft.count with
    | none =>
      simp only [Except.ok.injEq, Prod.mk.injEq]
      constructor <;> rintro ⟨rfl, rfl, rfl⟩ <;> exact ⟨rfl, rfl, rfl⟩
    | some digits =>
      simp only [← readCount_eq_ok_iff line]
      cases readCount line digits with
      | error fault => simp
      | ok value =>
        simp only [Except.ok.injEq, Prod.mk.injEq]
        constructor <;> rintro ⟨rfl, rfl, rfl⟩ <;> exact ⟨rfl, rfl, rfl⟩

theorem count_of_readDeclaration {line count : Nat} {text : List Char} {token name : String}
    (read : readDeclaration line text = .ok (token, name, count)) : 0 < count := by
  obtain ⟨draft, -, counts, -⟩ := readDeclaration_eq_ok_iff.1 read
  unfold Draft.Counts at counts
  split at counts
  · rw [counts]
    exact Nat.one_pos
  · exact counts.2

/-- No field of a schema has no elements. -/
theorem Registry.populated_of_ofString (read : Registry.ofString source = .ok registry) :
    registry.Populated := by
  intro struct member field fieldMember
  obtain ⟨line, -, text, token, bare, -, -, declaration, -⟩ :=
    Registry.declared_of_ofString read struct member field fieldMember
  exact count_of_readDeclaration declaration

end Schemas

end RecordDiff.Schema
