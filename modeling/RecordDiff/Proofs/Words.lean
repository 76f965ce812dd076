import RecordDiff.Proofs.Numerals
import RecordDiff.Proofs.Scalars
import RecordDiff.Yaml.Token

/-!
Plain words and numbers. A word of letters, digits and underscores means nothing else anywhere in a
document, so it can be a key or a value as it is; and the digits of a number are read as that
number. Main statements:

- `KeyChar.of_isKeyChar`: what the characters of words are not;
- `allowsPlain_of_word`: it may be written plain;
- `unsigned?_decimal`: the digits of a number below a limit are read as that number.
-/

namespace RecordDiff.Yaml

/-! ### Characters -/

/-- A character that starts a token wherever it stands. -/
structure StartsToken (c : Char) : Prop where
  noBreak : isBreak c = false
  noSpace : isSpace c = false
  noComment : c ≠ '#'
  noMark : c ≠ byteOrderMark

/-- A character that a document may hold and that is its own when line ends are unified. -/
def isSettled (c : Char) : Bool :=
  isAllowed c && c != '\r' && c != '\u0085'

theorem settled_of_printable {c : Char} (printable : isPrintable c = true) :
    isSettled c = true := by
  have noReturn : c ≠ '\r' := by
    rintro rfl
    exact absurd printable (by decide)
  have noNext : c ≠ '\u0085' := by
    rintro rfl
    exact absurd printable (by decide)
  have allowed : isAllowed c = true := by
    simp only [isPrintable, Bool.or_eq_true, Bool.and_eq_true] at printable
    rcases printable with ((feed | ascii) | ⟨wide, -⟩) | wider
    · simp [isAllowed, feed]
    · simp [isAllowed, ascii]
    · simp [isAllowed, wide]
    · simp [isAllowed, wider]
  simp [isSettled, allowed, noReturn, noNext]

/-- A character of a plain word: a letter or a digit of ASCII, or an underscore. -/
def isKeyChar (c : Char) : Bool :=
  c.toNat < 128 && (c.isAlphanum || c == '_')

/-- What a character of a plain word is and is not. -/
structure KeyChar (c : Char) : Prop where
  ascii : c.toNat < 128
  starts : StartsToken c
  unreserved : Lexer.isReserved c = false
  noDash : c ≠ '-'
  noQuery : c ≠ '?'
  noColon : c ≠ ':'
  noDot : c ≠ '.'
  printable : isPrintable c = true
  settled : isSettled c = true

theorem KeyChar.of_isKeyChar {c : Char} (word : isKeyChar c = true) : KeyChar c := by
  have ascii : c.toNat < 128 := by
    simp only [isKeyChar, Bool.and_eq_true, decide_eq_true_eq] at word
    exact word.1
  -- there are so few of these characters that each of them is looked at
  have all : ∀ code < 128, isKeyChar (Char.ofNat code) = true →
      (isBreak (Char.ofNat code) = false ∧ isSpace (Char.ofNat code) = false ∧
        Char.ofNat code ≠ '#' ∧ Char.ofNat code ≠ byteOrderMark) ∧
      Lexer.isReserved (Char.ofNat code) = false ∧ Char.ofNat code ≠ '-' ∧
      Char.ofNat code ≠ '?' ∧ Char.ofNat code ≠ ':' ∧ Char.ofNat code ≠ '.' ∧
      isPrintable (Char.ofNat code) = true ∧ isSettled (Char.ofNat code) = true := by
    decide
  have known := all c.toNat ascii
  rw [Char.ofNat_toNat] at known
  obtain ⟨⟨noBreak, noSpace, noComment, noMark⟩, unreserved, noDash, noQuery, noColon, noDot,
    printable, settled⟩ := known word
  exact ⟨ascii, ⟨noBreak, noSpace, noComment, noMark⟩, unreserved, noDash, noQuery, noColon, noDot,
    printable, settled⟩

theorem startsMark_of_ne {mark c : Char} (other : c ≠ mark) {rest : List Char} :
    startsMark mark (c :: rest) = false := by
  unfold startsMark
  split <;> simp_all

/-! ### Words -/

/-- A plain word. -/
structure IsWord (word : List Char) : Prop where
  nonempty : word ≠ []
  plain : ∀ c ∈ word, isKeyChar c = true

/-- A plain word that is short enough for a key. -/
structure IsKey (key : List Char) : Prop extends IsWord key where
  short : (Text.Utf8.encode key).length ≤ Lexer.maxKeyLength

theorem isWord_iff {word : List Char} :
    (!word.isEmpty && word.all isKeyChar) = true ↔ IsWord word := by
  simp only [Bool.and_eq_true, Bool.not_eq_true', List.isEmpty_eq_false_iff, List.all_eq_true]
  exact ⟨fun both => ⟨both.1, both.2⟩, fun isWord => ⟨isWord.nonempty, isWord.plain⟩⟩

instance (word : List Char) : Decidable (IsWord word) :=
  decidable_of_iff _ isWord_iff

instance (key : List Char) : Decidable (IsKey key) :=
  decidable_of_iff (IsWord key ∧ (Text.Utf8.encode key).length ≤ Lexer.maxKeyLength)
    ⟨fun both => ⟨both.1, both.2⟩, fun isKey => ⟨isKey.toIsWord, isKey.short⟩⟩

section Word

variable {word : List Char} (plain : ∀ c ∈ word, isKeyChar c = true)

include plain

theorem hasInnerIndicator_of_word (afterBlank : Bool) :
    hasInnerIndicator afterBlank word = false := by
  induction word generalizing afterBlank with
  | nil => rfl
  | cons c word ih =>
    have isWord := KeyChar.of_isKeyChar (plain c List.mem_cons_self)
    rw [hasInnerIndicator, ih fun d mem => plain d (List.mem_cons_of_mem c mem)]
    simp [isWord.noColon, isWord.starts.noComment]

theorem hasIndicator_of_word : hasIndicator word = false := by
  cases word with
  | nil => rfl
  | cons c word =>
    have isWord := KeyChar.of_isKeyChar (plain c List.mem_cons_self)
    have unreserved := isWord.unreserved
    simp only [Lexer.isReserved, isFlowMark, Bool.or_eq_false_iff] at unreserved
    have inner := hasInnerIndicator_of_word fun d mem => plain d (List.mem_cons_of_mem c mem)
    simp [hasIndicator, isIndicator, unreserved, inner, isWord.noDash.symm, isWord.noDot.symm,
      isWord.noDash, isWord.noQuery, isWord.noColon, List.isPrefixOf]

/-- A plain word may be written plain. -/
theorem allowsPlain_of_word : allowsPlain word = true := by
  have noBreak : ∀ c ∈ word, isBreak c = false := fun c mem =>
    (KeyChar.of_isKeyChar (plain c mem)).starts.noBreak
  have noSpace : ∀ c ∈ word, isPlainSpace c = false := by
    intro c mem
    have noBlank := (KeyChar.of_isKeyChar (plain c mem)).starts.noSpace
    simp only [isSpace, Bool.or_eq_false_iff] at noBlank
    exact noBlank.1
  have printable : word.all isPrintable = true :=
    List.all_eq_true.mpr fun c mem => (KeyChar.of_isKeyChar (plain c mem)).printable
  have front : startsIn isPlainSpace word = false := by
    cases word with
    | nil => rfl
    | cons c word => exact noSpace c List.mem_cons_self
  have noBreaks : word.any isBreak = false := by simpa using noBreak
  simp [allowsPlain, allowsSingle, needsEscapes, printable, hasPair_of_forall noSpace,
    hasPair_of_forall noBreak, noBreaks, front, endsIn_of_forall noSpace,
    hasIndicator_of_word plain]

end Word

/-! ### Numbers -/

theorem isWord_decimal (value : Nat) : IsWord (Text.decimal value) where
  nonempty := Nat.toDigits_ne_nil
  plain c mem := by
    have digit := Text.isDigit_of_mem_decimal mem
    have ascii : c.toNat < 128 :=
      Nat.lt_of_le_of_lt (Char.isDigit_iff_toNat.mp digit).2 (by decide)
    simp [isKeyChar, Char.isAlphanum, digit, ascii]

/-- The digits of a number are read one after the other. -/
theorem foldlM_decimal (value : Nat) :
    (Text.decimal value).foldlM
      (fun value c => (Text.digit? 10 c).map fun d => value * 10 + d) 0 = some value := by
  induction value using Nat.strongRecOn with
  | ind value ih =>
    rw [Text.decimal, Nat.toDigits_eq_if (by decide)]
    by_cases single : value < 10
    · simp [single, Text.digit?_digitChar single (by decide)]
    · have fewer : value / 10 < value := Nat.div_lt_self (by omega) (by decide)
      have digit := Text.digit?_digitChar (Nat.mod_lt value (y := 10) (by decide)) (by decide)
      have whole : value / 10 * 10 + value % 10 = value := Nat.div_add_mod' value 10
      have front := ih _ fewer
      rw [Text.decimal] at front
      simp [single, List.foldlM_append, front, digit, whole]

theorem radixMark?_decimal (value : Nat) : radixMark? (Text.decimal value) = none := by
  have noLetter : ∀ c, c.isDigit = false → c ∉ Text.decimal value := fun c letter mem => by
    simp [Text.isDigit_of_mem_decimal mem] at letter
  unfold radixMark?
  split
  · exact absurd (by simp [*]) (noLetter 'x' rfl)
  · exact absurd (by simp [*]) (noLetter 'o' rfl)
  · exact absurd (by simp [*]) (noLetter 'b' rfl)
  · rfl

theorem isZeroPadded_decimal (value : Nat) : isZeroPadded (Text.decimal value) = false := by
  obtain ⟨c, rest, shape, digit⟩ := Text.decimal_head value
  have noSign : isSign c = false := by
    cases sign : isSign c with
    | false => rfl
    | true =>
      have known : c = '+' ∨ c = '-' := by simpa [isSign] using sign
      rcases known with rfl | rfl <;> exact absurd digit (by decide)
  have unsigned : dropSign (Text.decimal value) = Text.decimal value := by
    simp [shape, dropSign, noSign]
  rw [isZeroPadded, unsigned]
  split
  · rename_i d others padded
    have nonzero : value ≠ 0 := by
      rintro rfl
      exact absurd padded (by simp [Text.decimal])
    exact absurd (by rw [padded]; rfl) (Text.decimal_head_ne_zero nonzero)
  · rfl

/-- The digits of a number below a limit are read as that number. -/
theorem unsigned?_decimal {limit value : Nat} (fits : value < limit) :
    unsigned? limit (Text.decimal value) = some value := by
  obtain ⟨c, rest, shape, digit⟩ := Text.decimal_head value
  have noPlus : dropPlus (Text.decimal value) = Text.decimal value := by
    rw [shape]
    unfold dropPlus
    split
    · rename_i same
      obtain ⟨rfl, -⟩ := List.cons.inj same
      exact absurd digit (by decide)
    · rfl
  have read : digitsValue? 10 (Text.decimal value) = some value := by
    rw [digitsValue?, foldlM_decimal]
    simp [shape]
  simp [unsigned?, noPlus, radixMark?_decimal, isZeroPadded_decimal, read, fits]

end RecordDiff.Yaml
