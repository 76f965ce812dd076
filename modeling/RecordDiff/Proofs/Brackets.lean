import RecordDiff.Proofs.Concatenation

/-!
Brackets in declarations. An array is declared by a type, a plain name and a count in brackets at the
end of the declaration. Any other text with brackets in it has one of the other two forms, or none; as
nothing but the name can hold brackets in these, the name then keeps all of them. Main statements:

- `ArrayText.readDeclaration`: an array is read with its count, or refused for it;
- `hasBracket_of_readDeclaration`: a name keeps brackets exactly if the declaration has some and is
  not that of an array;
- `brackets_of_ofString`: where the brackets of a schema go;
- `brackets_kept_in_names`: texts of which the names keep the brackets, and what they are sized as.
-/

namespace RecordDiff.Schema

open Text (isBlank isAllBlank isTypeName isPlainName trim trimStart readNumeral)

/-- An opening or closing square bracket. -/
def isBracket (c : Char) : Bool :=
  c == '[' || c == ']'

/-- Whether there is a bracket in a text. -/
def hasBracket (text : List Char) : Bool :=
  text.any isBracket

/-! ### Where there are no brackets -/

section Parts

variable {text name gap digits front back : List Char} {c : Char}

theorem hasBracket_append (front back : List Char) :
    hasBracket (front ++ back) = (hasBracket front || hasBracket back) :=
  List.any_append

theorem hasBracket_cons (c : Char) (rest : List Char) :
    hasBracket (c :: rest) = (isBracket c || hasBracket rest) :=
  List.any_cons

/-- There are no brackets where all characters have a property that brackets do not have. -/
theorem hasBracket_eq_false {P : Char → Prop} (all : ∀ c ∈ text, P c) (opening : ¬P '[')
    (closing : ¬P ']') : hasBracket text = false := by
  rw [hasBracket, List.any_eq_false]
  intro c member mark
  simp only [isBracket, Bool.or_eq_true, beq_iff_eq] at mark
  rcases mark with rfl | rfl
  · exact opening (all _ member)
  · exact closing (all _ member)

theorem hasBracket_of_isTypeName (shaped : isTypeName name = true) : hasBracket name = false :=
  hasBracket_eq_false (fun _ => Text.isTypeChar_of_mem shaped) (by decide) (by decide)

theorem hasBracket_of_isPlainName (shaped : isPlainName name = true) : hasBracket name = false :=
  hasBracket_eq_false (fun _ => Text.isWord_of_mem shaped) (by decide) (by decide)

theorem hasBracket_of_isAllBlank (blank : isAllBlank gap = true) : hasBracket gap = false :=
  hasBracket_eq_false (List.all_eq_true.1 blank) (by decide) (by decide)

theorem hasBracket_of_readNumeral {value : Nat} (read : readNumeral 10 digits = .ok value) :
    hasBracket digits = false := by
  have known : 10 ≤ 16 := by decide
  obtain ⟨numeral, -⟩ := (Text.readNumeral_eq_ok_iff known).1 read
  exact hasBracket_eq_false (fun _ => numeral.sign_or_digit known) (by decide) (by decide)

theorem hasBracket_trimStart (text : List Char) : hasBracket (trimStart text) = hasBracket text := by
  obtain ⟨blanks, blank, whole⟩ := Text.exists_append_trimStart text
  conv => rhs; rw [← whole, hasBracket_append, hasBracket_of_isAllBlank blank, Bool.false_or]

theorem hasBracket_trim (text : List Char) : hasBracket (trim text) = hasBracket text := by
  obtain ⟨blanks, blank, whole⟩ := Text.exists_trimEnd_append (trimStart text)
  rw [← hasBracket_trimStart text, ← whole, hasBracket_append, hasBracket_of_isAllBlank blank,
    Bool.or_false]
  rfl

end Parts

/-! ### The three forms -/

section Forms

variable {text token name digits : List Char} {draft : Draft} {line count : Nat}

/-- The declaration of an array has the second of the three forms. -/
theorem ArrayText.ofText? (array : ArrayText text token name digits) :
    Draft.ofText? text = some ⟨token, name, some digits⟩ := by
  obtain ⟨shapedToken, shaped, gap, gapBehind, count, parted, blank, blankBehind, unclosed, rfl,
    rfl⟩ := array
  exact Draft.ofText?_array shapedToken shaped blank parted blankBehind unclosed

/-- The declaration of an array is read with the count that stands in its brackets. If that is no
positive number, it is refused. -/
theorem ArrayText.readDeclaration (array : ArrayText text token name digits) (line : Nat) :
    (∃ count, 0 < count ∧ readNumeral 10 digits = .ok count ∧
        Schema.readDeclaration line text = .ok (String.ofList token, String.ofList name, count)) ∨
      (∀ count, readNumeral 10 digits = .ok count → count = 0) ∧
        Schema.readDeclaration line text = .error (.badCount line (String.ofList digits)) := by
  simp only [Schema.readDeclaration, array.ofText?, readCount]
  cases readNumeral 10 digits with
  | error cause => exact .inr ⟨fun count read => (by cases read), rfl⟩
  | ok value =>
    cases value with
    | zero => exact .inr ⟨fun count read => (Except.ok.inj read).symm, rfl⟩
    | succ value => exact .inl ⟨value + 1, Nat.succ_pos value, rfl, rfl⟩

theorem ArrayText.hasBracket_name (array : ArrayText text token name digits) :
    hasBracket name = false :=
  hasBracket_of_isPlainName array.2.1

/-- A count in angle brackets has no other brackets in it, and so they are all in the name. -/
theorem hasBracket_of_templateForm? (found : templateForm? text = some draft)
    (counts : draft.Counts count) : hasBracket text = hasBracket draft.name := by
  obtain ⟨outer, gap, gapElem, elem, gapComma, digits, gapName, shapedOuter, blank, blankElem,
    shapedElem, blankComma, blankName, counted, -, -, rfl⟩ := exists_of_templateForm? found
  have noneInCount : hasBracket digits = false := by
    simp only [Draft.Counts, counted] at counts
    rw [← hasBracket_trim]
    exact hasBracket_of_readNumeral counts.1
  simp only [hasBracket_append, hasBracket_cons, noneInCount, hasBracket_of_isTypeName shapedOuter,
    hasBracket_of_isTypeName shapedElem, hasBracket_of_isAllBlank blank,
    hasBracket_of_isAllBlank blankElem, hasBracket_of_isAllBlank blankComma,
    hasBracket_of_isAllBlank blankName]
  rfl

theorem hasBracket_of_scalarForm? (found : scalarForm? text = some draft) :
    hasBracket text = hasBracket draft.name := by
  obtain ⟨token, gap, shapedToken, blank, -, -, rfl⟩ := exists_of_scalarForm? found
  rw [hasBracket_append, hasBracket_append, hasBracket_of_isTypeName shapedToken,
    hasBracket_of_isAllBlank blank, Bool.false_or, Bool.false_or]

/-- The name in a declaration keeps brackets exactly if there are brackets in the declaration and it
is not that of an array. -/
theorem hasBracket_of_readDeclaration {token name : String}
    (read : readDeclaration line text = .ok (token, name, count)) :
    hasBracket name.toList = true ↔
      hasBracket text = true ∧ ¬∃ token name digits, ArrayText text token name digits := by
  obtain ⟨draft, found, counts, rfl, rfl⟩ := readDeclaration_eq_ok_iff.1 read
  rw [String.toList_ofList]
  by_cases isArray : ∃ token name digits, ArrayText text token name digits
  · obtain ⟨token, name, digits, array⟩ := isArray
    have form := array.ofText?
    rw [found] at form
    cases form
    rw [array.hasBracket_name]
    exact iff_of_false Bool.false_ne_true fun outside => outside.2 ⟨_, _, _, array⟩
  · simp only [isArray, not_false_eq_true, and_true]
    simp only [Draft.ofText?, Option.or_eq_some_iff] at found
    rcases found with template | ⟨-, array | ⟨-, scalar⟩⟩
    · rw [hasBracket_of_templateForm? template counts]
    · obtain ⟨digits, array⟩ := arrayText_of_arrayForm? array
      exact absurd ⟨_, _, _, array⟩ isArray
    · rw [hasBracket_of_scalarForm? scalar]

end Forms

/-! ### Declarations in a struct -/

section Inside

variable {pass next : Pass} {line : LogicalLine} {front back : List LogicalLine} {source : String}
  {registry : Registry} {text : List Char} {comment : String}

/-- Where a struct is open, a declaration is passed only if it can be read. -/
theorem Pass.readDeclaration_of_step (inside : pass.opened ≠ [])
    (piece : line.piece = .declaration text comment) (opensNone : structName? text = none)
    (stepped : pass.step line = .ok next) :
    ∃ declared, readDeclaration line.number text = .ok declared := by
  rw [step_declaration_none piece opensNone, declareField] at stepped
  split at stepped
  · contradiction
  · split at stepped
    · cases stepped
    · rename_i declaration
      exact ⟨_, declaration⟩

/-- Every declaration in a struct of a schema can be read. -/
theorem readDeclaration_of_ofString (read : Registry.ofString source = .ok registry)
    (lines : LogicalLine.ofText source.toList = front ++ line :: back)
    (inside : front.foldl LogicalLine.openBehind 0 ≠ 0)
    (piece : line.piece = .declaration text comment) (opensNone : structName? text = none) :
    ∃ declared, readDeclaration line.number text = .ok declared := by
  have run : Pass.start.run (front ++ line :: back) = .ok registry :=
    lines ▸ Pass.run_readLines.trans (readLines_of_ofString read)
  obtain ⟨last, passed, -⟩ := Pass.run_eq_ok run
  obtain ⟨pass, reached, behind⟩ := Pass.foldlM_append_eq_ok passed
  obtain ⟨next, stepped, -⟩ := Pass.foldlM_cons_eq_ok behind
  have opened : pass.opened ≠ [] := by
    rw [← List.length_pos_iff_ne_nil, Pass.length_opened_of_foldlM reached]
    exact Nat.pos_of_ne_zero inside
  exact Pass.readDeclaration_of_step opened piece opensNone stepped

end Inside

/-! ### Schemas -/

section Schemas

variable {source : String} {registry : Registry}

/-- A field as its declaration gives it. That of an array gives it the plain name in front of the
brackets and the count in them; any brackets in another declaration end up in the name. -/
structure Field.BracketsFrom (field : Field) (text : List Char) : Prop where
  counted : ∀ token name digits, ArrayText text token name digits →
    field.name = String.ofList name ∧ readNumeral 10 digits = .ok field.count
  kept : hasBracket field.name.toList = true ↔
    hasBracket text = true ∧ ¬∃ token name digits, ArrayText text token name digits

theorem Field.bracketsFrom_of_readDeclaration {field : Field} {line : Nat} {text : List Char}
    {token : String} (read : readDeclaration line text = .ok (token, field.name, field.count)) :
    field.BracketsFrom text where
  counted token name digits array := by
    rcases array.readDeclaration line with ⟨count, -, counted, taken⟩ | ⟨-, refused⟩
    · rw [read] at taken
      obtain ⟨-, named, same⟩ : _ ∧ field.name = String.ofList name ∧ field.count = count := by
        simpa using taken
      exact ⟨named, same ▸ counted⟩
    · rw [read] at refused
      cases refused
  kept := hasBracket_of_readDeclaration read

/-- Where the brackets of a schema go. Every field is declared on a line from which it has its
brackets: the count in the brackets of an array is the count of the field, and a name has brackets in
it only where the declaration has some and is not that of an array. In no struct is there an array
with a count other than a positive number. -/
theorem brackets_of_ofString (read : Registry.ofString source = .ok registry) :
    (∀ struct ∈ registry.structs, ∀ field ∈ struct.fields,
        ∃ line ∈ LogicalLine.ofText source.toList, ∃ text token,
          line.piece = .declaration text field.comment ∧
            readDeclaration line.number text = .ok (token, field.name, field.count) ∧
            field.BracketsFrom text) ∧
      ∀ front line back, LogicalLine.ofText source.toList = front ++ line :: back →
        front.foldl LogicalLine.openBehind 0 ≠ 0 →
          ∀ text comment token name digits, line.piece = .declaration text comment →
            structName? text = none → ArrayText text token name digits →
              ∃ count, 0 < count ∧ readNumeral 10 digits = .ok count := by
  constructor
  · intro struct member field inside
    obtain ⟨line, onLine, text, token, -, piece, -, declared, -⟩ :=
      Registry.declared_of_ofString read struct member field inside
    exact ⟨line, onLine, text, token, piece, declared,
      Field.bracketsFrom_of_readDeclaration declared⟩
  · intro front line back lines inside text comment token name digits piece opensNone array
    obtain ⟨declared, taken⟩ := readDeclaration_of_ofString read lines inside piece opensNone
    rcases array.readDeclaration line.number with ⟨count, positive, counted, -⟩ | ⟨-, refused⟩
    · exact ⟨count, positive, counted⟩
    · rw [taken] at refused
      cases refused

/-- An array with blanks in its brackets, and a declaration in two dimensions. -/
def dimensionText : String :=
  "struct S \x7b char name [ 16 ]; uint8_t x[2][3]; \x7d"

theorem brackets_of_ofString_of_dimensions :
    ∃ registry, Registry.ofString dimensionText = .ok registry ∧
      registry.structs = [⟨"S", [⟨"name", .text, 16, ""⟩, ⟨"x[2][3]", .byte, 1, ""⟩]⟩] ∧
      ∀ struct ∈ registry.structs, ∀ field ∈ struct.fields,
        ∃ line ∈ LogicalLine.ofText dimensionText.toList, ∃ text token,
          line.piece = .declaration text field.comment ∧
            readDeclaration line.number text = .ok (token, field.name, field.count) ∧
            field.BracketsFrom text := by
  have inked : Text.isAllBlank dimensionText.toList = false := by decide +kernel
  have read : Registry.ofString dimensionText = .ok (Registry.empty.insert
      ⟨"S", [⟨"name", .text, 16, ""⟩, ⟨"x[2][3]", .byte, 1, ""⟩]⟩) :=
    ofString_of_run inked rfl rfl
  exact ⟨_, read, rfl, (brackets_of_ofString read).1⟩

/-- Two dimensions, a name that starts with a digit, brackets that are not closed, and brackets behind
angle brackets. -/
def bracketText : String :=
  "struct S \x7b uint8_t x[2][3]; uint8_t 2nd[4]; uint8_t y[5; array<char, 2> z[6]; \x7d"

/-- Names keep their brackets there, and the counts in them do not count. -/
theorem brackets_kept_in_names :
    ∃ registry, Registry.ofString bracketText = .ok registry ∧
      registry.structs = [⟨"S", [⟨"x[2][3]", .byte, 1, ""⟩, ⟨"2nd[4]", .byte, 1, ""⟩,
        ⟨"y[5", .byte, 1, ""⟩, ⟨"z[6]", .text, 2, ""⟩]⟩] ∧
      registry.byteSize "S" = .ok 5 ∧
      ∀ struct ∈ registry.structs, ∀ field ∈ struct.fields,
        hasBracket field.name.toList = true := by
  have inked : Text.isAllBlank bracketText.toList = false := by decide +kernel
  have read : Registry.ofString bracketText = .ok (Registry.empty.insert
      ⟨"S", [⟨"x[2][3]", .byte, 1, ""⟩, ⟨"2nd[4]", .byte, 1, ""⟩, ⟨"y[5", .byte, 1, ""⟩,
        ⟨"z[6]", .text, 2, ""⟩]⟩) :=
    ofString_of_run inked rfl rfl
  exact ⟨_, read, rfl, rfl, by decide⟩

end Schemas

end RecordDiff.Schema
