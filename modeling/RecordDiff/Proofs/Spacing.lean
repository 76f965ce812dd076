import RecordDiff.Proofs.Declared
import RecordDiff.Proofs.Spelling

/-!
Declarations under any spacing. A declaration is written in tokens: names of types, the name of the
field, a count and the marks around it. Between any two tokens there may be blanks, and no more than
that a type and a name behind it have to be kept apart, so a declaration says the same however it is
spaced. Main statements:

- `Spaced.ofText?`: the tokens of a spaced declaration are found again, the text of its count trimmed;
- `readDeclaration_of_isDecimal`, `readDeclaration_of_badCount`: a count that is a positive numeral of
  64 bits is the count, and any other is refused;
- `readDeclaration_spaced`: what a declaration in any of the three forms is read as.
-/

namespace RecordDiff.Text

variable {text : List Char} {value : Nat} {c : Char}

theorem isBlank_of_mem_isDecimal (numeral : IsDecimal text value) (member : c ∈ text) :
    isBlank c = false := by
  obtain ⟨digits, -, all, -, rfl | rfl⟩ := numeral
  · exact isBlank_of_isWord (isWord_of_isDigit (all c member))
  · rcases List.mem_cons.1 member with rfl | digit
    · decide
    · exact isBlank_of_isWord (isWord_of_isDigit (all c digit))

theorem IsDecimal.ne_nil (numeral : IsDecimal text value) : text ≠ [] := by
  obtain ⟨digits, some, -, -, rfl | rfl⟩ := numeral
  · exact some
  · exact List.cons_ne_nil '+' digits

/-- A numeral has one value. -/
theorem IsDecimal.unique {other : Nat} (numeral : IsDecimal text value)
    (another : IsDecimal text other) : value = other := by
  have noSign : ¬ '+'.isDigit = true := by decide
  obtain ⟨digits, -, all, rfl, rfl | rfl⟩ := numeral
  · obtain ⟨others, -, -, rfl, rfl | rfl⟩ := another
    · rfl
    · exact absurd (all '+' List.mem_cons_self) noSign
  · obtain ⟨others, -, allOthers, rfl, same | same⟩ := another
    · rw [← same] at allOthers
      exact absurd (allOthers '+' List.mem_cons_self) noSign
    · rw [(List.cons.inj same).2]

end RecordDiff.Text

namespace RecordDiff.Schema

open Text (isAllBlank isTypeName isPlainName trim wordLimit IsDecimal)

/-- `Spaced text token name count`: the text declares a field of this type token and name, in one of
the three forms and with any blanks between its tokens. The count is all that stands between the marks
around it, if the form has one; it is any text without the mark that closes it. -/
inductive Spaced : List Char → List Char → List Char → Option (List Char) → Prop where
  /-- `OUTER<ELEM,COUNT>NAME`. -/
  | template {outer elem count name gap gapElem gapComma gapName : List Char}
      (shapedOuter : isTypeName outer = true) (shapedElem : isTypeName elem = true)
      (shaped : isPlainName name = true) (blank : isAllBlank gap = true)
      (blankElem : isAllBlank gapElem = true) (blankComma : isAllBlank gapComma = true)
      (blankName : isAllBlank gapName = true) (unclosed : '>' ∉ count) :
      Spaced (outer ++ (gap ++ '<' :: (gapElem ++ (elem ++ (gapComma ++ ',' ::
        (count ++ '>' :: (gapName ++ name)))))))
        (if isPrimitive outer then outer else elem) name (some count)
  /-- `TYPE NAME[COUNT]`. -/
  | array {token name count gap gapCount : List Char} (shapedToken : isTypeName token = true)
      (shaped : isPlainName name = true) (blank : isAllBlank gap = true) (parted : gap ≠ [])
      (blankCount : isAllBlank gapCount = true) (unclosed : ']' ∉ count) :
      Spaced (token ++ (gap ++ (name ++ (gapCount ++ '[' :: (count ++ [']']))))) token name
        (some count)
  /-- `TYPE NAME`. -/
  | single {token name gap : List Char} (shapedToken : isTypeName token = true)
      (shaped : isPlainName name = true) (blank : isAllBlank gap = true) (parted : gap ≠ []) :
      Spaced (token ++ (gap ++ name)) token name none

section Spaced

variable {text token name count : List Char} {inside : Option (List Char)} {value line : Nat}

/-- The tokens of a spaced declaration are found again, with the text of the count trimmed. -/
theorem Spaced.ofText? (spaced : Spaced text token name inside) :
    Draft.ofText? text = some ⟨token, name, inside.map trim⟩ := by
  cases spaced with
  | template shapedOuter shapedElem shaped blank blankElem blankComma blankName unclosed =>
    exact Draft.ofText?_template shapedOuter shapedElem shaped blank blankElem blankComma blankName
      unclosed
  | array shapedToken shaped blank parted blankCount unclosed =>
    exact Draft.ofText?_array shapedToken shaped blank parted blankCount unclosed
  | single shapedToken shaped blank parted =>
    exact Draft.ofText?_scalar shapedToken shaped blank parted

/-- A count that is a positive numeral of 64 bits is the count of the field. -/
theorem readDeclaration_of_isDecimal (found : Draft.ofText? text = some ⟨token, name, some count⟩)
    (numeral : IsDecimal count value) (positive : 0 < value) (fits : value < wordLimit) :
    readDeclaration line text = .ok (String.ofList token, String.ofList name, value) := by
  have read : Text.readNumeral 10 count = .ok value :=
    Text.readNumeral_ten_eq_ok_iff.2 ⟨numeral, fits⟩
  exact readDeclaration_eq_ok_iff.2 ⟨_, found, ⟨read, positive⟩, rfl, rfl⟩

/-- A count that is no positive numeral of 64 bits is refused, and shown with its line. -/
theorem readDeclaration_of_badCount (found : Draft.ofText? text = some ⟨token, name, some count⟩)
    (bad : ∀ value, IsDecimal count value → value = 0 ∨ wordLimit ≤ value) :
    readDeclaration line text = .error (.badCount line (String.ofList count)) := by
  have refused : readCount line count = .error (.badCount line (String.ofList count)) := by
    apply readCount_of_refused
    intro value read
    obtain ⟨numeral, positive⟩ := (readCount_eq_ok_iff line).1 read
    obtain ⟨decimal, fits⟩ := Text.readNumeral_ten_eq_ok_iff.1 numeral
    rcases bad value decimal with zero | large
    · exact absurd positive (Nat.not_lt.2 (Nat.le_of_eq zero))
    · exact absurd fits (Nat.not_lt.2 large)
  simp only [readDeclaration, found, refused]

end Spaced

/-- Declarations are read the same under any spacing. In the form with angle brackets the type is the
outer one if that is primitive, and else the inner one; the name is that behind the type or the
brackets, and the count is one if there is none. A count that is a numeral from one up to the greatest
number of 64 bits, with any blanks around it, is read as its value. Any other text in its place, as
long as it does not close the count, is refused with the number of the line and the text trimmed. -/
theorem readDeclaration_spaced {text token name : List Char} {count : Option (List Char)}
    (spaced : Spaced text token name count) (line : Nat) :
    (count = none →
        readDeclaration line text = .ok (String.ofList token, String.ofList name, 1)) ∧
      ∀ inside, count = some inside →
        (∀ front digits back value, inside = front ++ digits ++ back → isAllBlank front = true →
          isAllBlank back = true → IsDecimal digits value → 0 < value → value < wordLimit →
            readDeclaration line text = .ok (String.ofList token, String.ofList name, value)) ∧
        ((∀ value, IsDecimal (trim inside) value → value = 0 ∨ wordLimit ≤ value) →
          readDeclaration line text = .error (.badCount line (String.ofList (trim inside)))) := by
  have found := spaced.ofText?
  constructor
  · rintro rfl
    exact readDeclaration_eq_ok_iff.2 ⟨_, found, rfl, rfl, rfl⟩
  · rintro inside rfl
    constructor
    · rintro front digits back value rfl blankFront blankBack numeral positive fits
      have trimmed : trim (front ++ digits ++ back) = digits :=
        Text.trim_between blankFront blankBack numeral.ne_nil
          fun c => Text.isBlank_of_mem_isDecimal numeral
      rw [Option.map_some, trimmed] at found
      exact readDeclaration_of_isDecimal found numeral positive fits
    · intro bad
      exact readDeclaration_of_badCount found bad

/-- An array of words, with blanks of several kinds in its declaration. -/
def spacedWords : String :=
  "uint16le <\tarr , \u00a0+007\u3000>vals"

/-- An array that has one element too many to be counted in 64 bits. -/
def spacedText : String :=
  "char name [ 18446744073709551616\t]"

theorem readDeclaration_spaced_of_words :
    Spaced spacedWords.toList "uint16le".toList "vals".toList (some " \u00a0+007\u3000".toList) ∧
      readDeclaration 3 spacedWords.toList = .ok ("uint16le", "vals", 7) ∧
      Spaced spacedText.toList "char".toList "name".toList (some " 18446744073709551616\t".toList) ∧
      readDeclaration 3 spacedText.toList = .error (.badCount 3 "18446744073709551616") := by
  have words : Spaced spacedWords.toList "uint16le".toList "vals".toList
      (some " \u00a0+007\u3000".toList) := by
    have parts : spacedWords.toList = "uint16le".toList ++ ([' '] ++ '<' :: (['\t'] ++
        ("arr".toList ++ ([' '] ++ ',' :: (" \u00a0+007\u3000".toList ++ '>' :: ([] ++
          "vals".toList)))))) := by decide +kernel
    rw [parts]
    exact .template (by decide) (by decide) (by decide) rfl rfl rfl rfl (by decide)
  have text : Spaced spacedText.toList "char".toList "name".toList
      (some " 18446744073709551616\t".toList) := by
    have parts : spacedText.toList = "char".toList ++ ([' '] ++ ("name".toList ++ ([' '] ++
        '[' :: (" 18446744073709551616\t".toList ++ [']'])))) := by decide +kernel
    rw [parts]
    exact .array (by decide) (by decide) rfl (by decide) rfl (by decide)
  refine ⟨words, ?_, text, ?_⟩
  · obtain ⟨read, -⟩ := (readDeclaration_spaced words 3).2 _ rfl
    have numeral : IsDecimal ['+', '0', '0', '7'] 7 :=
      ⟨['0', '0', '7'], by decide, List.all_eq_true.1 rfl, rfl, .inr rfl⟩
    exact read [' ', '\u00a0'] ['+', '0', '0', '7'] ['\u3000'] 7 rfl rfl rfl numeral (by decide)
      (by decide)
  · obtain ⟨-, refused⟩ := (readDeclaration_spaced text 3).2 _ rfl
    have trimmed : trim " 18446744073709551616\t".toList = "18446744073709551616".toList := by
      decide +kernel
    have numeral : IsDecimal "18446744073709551616".toList wordLimit :=
      ⟨_, by decide, List.all_eq_true.1 rfl, rfl, .inl rfl⟩
    rw [trimmed] at refused
    exact refused fun value other => .inr (Nat.le_of_eq (numeral.unique other))

end RecordDiff.Schema
