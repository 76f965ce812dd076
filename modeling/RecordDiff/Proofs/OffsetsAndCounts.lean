import RecordDiff.Command.Arguments
import RecordDiff.Proofs.Declared
import RecordDiff.Proofs.Spelling

/-!
Numbers that users write: the offset of a record among the arguments of a run, and the element count
of a field in a schema. Both are numerals of 64 bits. An offset may be hexadecimal, behind a mark
that says so, and a count may not be zero. Such a number has the exact value of its digits, or its
text is refused and shown. Main statements:

- `readNumeral_zeros`: zeros in front of the digits of a numeral change nothing;
- `readOffset_eq_ok_iff`, `readCount_eq_ok_iff_isNumeral`: which texts are read, and as what;
- `readOffset_decimalText`, `readOffset_hexadecimal`: an offset is read back from both its texts;
- `offsets_and_counts_exact`: these together, and how any other text is refused.
-/

namespace RecordDiff.Text

variable {radix value : Nat} {c : Char} {rest sign digits : List Char}

/-! ### Leading zeros -/

theorem readDigits_zeros (proper : 0 < radix) (known : radix ≤ 16) (zeros : Nat)
    (digits : List Char) :
    readDigits radix 0 (List.replicate zeros '0' ++ digits) = readDigits radix 0 digits := by
  have zero : digit? radix '0' = some 0 := digit?_digitChar proper known
  have fits : 0 < wordLimit := by decide
  induction zeros with
  | zero => rfl
  | succ zeros ih =>
    rw [List.replicate_succ, List.cons_append, readDigits, zero]
    simpa only [Nat.zero_mul, Nat.zero_add, if_pos fits] using ih

/-- A sign in front of what has none itself changes nothing. -/
theorem readNumeral_signed (signed : sign = [] ∨ sign = ['+']) (unsigned : c ≠ '+') :
    readNumeral radix (sign ++ c :: rest) = readDigits radix 0 (c :: rest) := by
  rcases signed with rfl | rfl
  · exact readNumeral_of_unsigned unsigned
  · exact (readNumeral_plus unsigned).trans (readNumeral_of_unsigned unsigned)

/-- Zeros in front of the digits of a numeral change nothing, behind a sign or without one. -/
theorem readNumeral_zeros (proper : 0 < radix) (known : radix ≤ 16)
    (signed : sign = [] ∨ sign = ['+']) (spelled : Digits radix digits value) (zeros : Nat) :
    readNumeral radix (sign ++ (List.replicate zeros '0' ++ digits)) =
      readNumeral radix (sign ++ digits) := by
  obtain ⟨c, rest, rfl⟩ := List.exists_cons_of_ne_nil spelled.ne_nil
  have unsigned : c ≠ '+' := spelled.unsigned known
  cases zeros with
  | zero => rfl
  | succ zeros =>
    have skipped := readDigits_zeros proper known (zeros + 1) (c :: rest)
    rw [List.replicate_succ, List.cons_append] at skipped ⊢
    rw [readNumeral_signed signed (by decide), readNumeral_signed signed unsigned, skipped]

end RecordDiff.Text

namespace RecordDiff.Schema

open Text (IsNumeral Digits wordLimit)

variable {line value : Nat} {text sign digits : List Char}

/-! ### Counts -/

/-- A count is read exactly if it is a decimal numeral of a positive number of 64 bits. -/
theorem readCount_eq_ok_iff_isNumeral :
    readCount line text = .ok value ↔ IsNumeral 10 text value ∧ 1 ≤ value ∧ value < wordLimit := by
  have known : 10 ≤ 16 := by decide
  rw [readCount_eq_ok_iff, Text.readNumeral_eq_ok_iff known, and_assoc, and_comm (a := value < _)]
  rfl

/-- Zeros in front of its digits do not change whether a count is read, nor as what. -/
theorem readCount_zeros (signed : sign = [] ∨ sign = ['+']) (spelled : Digits 10 digits value)
    (zeros count : Nat) :
    readCount line (sign ++ (List.replicate zeros '0' ++ digits)) = .ok count ↔
      readCount line (sign ++ digits) = .ok count := by
  have same := Text.readNumeral_zeros (by decide) (by decide) signed spelled zeros
  rw [readCount_eq_ok_iff, readCount_eq_ok_iff, same]

end RecordDiff.Schema

namespace RecordDiff.Command

open Text (IsNumeral Digits wordLimit)

/-- `Announces mark radix`: what stands in front of the numeral of an offset in this radix. -/
inductive Announces : List Char → Nat → Prop where
  | decimal : Announces [] 10
  | lower : Announces ['0', 'x'] 16
  | upper : Announces ['0', 'X'] 16

variable {text mark sign digits : List Char} {radix value : Nat}

/-! ### Offsets -/

theorem Announces.bounds (announced : Announces mark radix) : 0 < radix ∧ radix ≤ 16 := by
  cases announced <;> decide

/-- A text of signs and decimal digits does not start with a mark. -/
theorem readOffset_of_unmarked (unmarked : ∀ c ∈ text, c = '+' ∨ (Text.digit? 10 c).isSome) :
    readOffset text = Text.readNumeral 10 text := by
  unfold readOffset
  split
  · exact absurd (unmarked 'x' (by simp)) (by decide)
  · exact absurd (unmarked 'X' (by simp)) (by decide)
  · rfl

/-- Behind its mark an offset is a numeral, and one without a mark is a numeral too. -/
theorem readOffset_append (announced : Announces mark radix)
    (unmarked : radix = 10 → ∀ c ∈ text, c = '+' ∨ (Text.digit? 10 c).isSome) :
    readOffset (mark ++ text) = Text.readNumeral radix text := by
  cases announced with
  | decimal => exact readOffset_of_unmarked (unmarked rfl)
  | lower => rfl
  | upper => rfl

/-- Whatever is read as an offset is a numeral behind a mark. -/
theorem exists_announces (text : List Char) :
    ∃ mark radix numeral, Announces mark radix ∧ text = mark ++ numeral ∧
      readOffset text = Text.readNumeral radix numeral := by
  unfold readOffset
  split
  · exact ⟨_, _, _, .lower, rfl, rfl⟩
  · exact ⟨_, _, _, .upper, rfl, rfl⟩
  · exact ⟨_, _, _, .decimal, rfl, rfl⟩

/-- An offset is read exactly if it is a numeral of 64 bits behind the mark of its radix. -/
theorem readOffset_eq_ok_iff :
    readOffset text = .ok value ↔
      ∃ mark radix numeral, Announces mark radix ∧ text = mark ++ numeral ∧
        IsNumeral radix numeral value ∧ value < wordLimit := by
  constructor
  · intro read
    obtain ⟨mark, radix, numeral, announced, shape, outcome⟩ := exists_announces text
    rw [outcome, Text.readNumeral_eq_ok_iff announced.bounds.2] at read
    exact ⟨mark, radix, numeral, announced, shape, read⟩
  · rintro ⟨mark, radix, numeral, announced, rfl, spelled, fits⟩
    have unmarked : radix = 10 → ∀ c ∈ numeral, c = '+' ∨ (Text.digit? 10 c).isSome := by
      rintro rfl c member
      exact spelled.sign_or_digit (by decide) member
    rw [readOffset_append announced unmarked]
    exact (Text.readNumeral_eq_ok_iff announced.bounds.2).2 ⟨spelled, fits⟩

/-- An offset that is not read is refused where it stands, and shown with the cause. -/
theorem check_offset_of_refused {argument : String}
    (refused : ∀ value, readOffset argument.toList ≠ .ok value) :
    ∃ cause, Slot.offset.check argument = .error (.badOffset argument cause) := by
  cases outcome : readOffset argument.toList with
  | ok value => exact absurd outcome (refused value)
  | error cause =>
    refine ⟨cause, ?_⟩
    simp only [Slot.check, Slot.isPath, outcome, Bool.false_eq_true, if_false]

/-- Zeros in front of its digits do not change what an offset is read as. -/
theorem readOffset_zeros (announced : Announces mark radix) (signed : sign = [] ∨ sign = ['+'])
    (spelled : Digits radix digits value) (zeros : Nat) :
    readOffset (mark ++ (sign ++ (List.replicate zeros '0' ++ digits))) =
      readOffset (mark ++ (sign ++ digits)) := by
  obtain ⟨proper, known⟩ := announced.bounds
  have numeral : IsNumeral radix (sign ++ digits) value := by
    refine ⟨digits, spelled, ?_⟩
    rcases signed with rfl | rfl
    · exact .inl rfl
    · exact .inr rfl
  have unmarked : radix = 10 → ∀ c ∈ sign ++ digits, c = '+' ∨ (Text.digit? 10 c).isSome := by
    rintro rfl c member
    exact numeral.sign_or_digit known member
  rw [readOffset_append announced unmarked, readOffset_append announced,
    Text.readNumeral_zeros proper known signed spelled]
  intro decimal c member
  rcases List.mem_append.1 member with inSign | behind
  · exact unmarked decimal c (List.mem_append_left _ inSign)
  · rcases List.mem_append.1 behind with zero | digit
    · obtain rfl := List.eq_of_mem_replicate zero
      exact .inr rfl
    · exact unmarked decimal c (List.mem_append_right _ digit)

/-! ### Numbers as they are printed -/

theorem readOffset_decimalText (fits : value < wordLimit) :
    readOffset (Text.decimal value) = .ok value := by
  have known : 10 ≤ 16 := by decide
  have read := Text.readNumeral_decimal fits
  have numeral := ((Text.readNumeral_eq_ok_iff known).1 read).1
  rw [readOffset_of_unmarked fun c member => numeral.sign_or_digit known member, read]

theorem readOffset_hexadecimal (fits : value < wordLimit) :
    readOffset (Text.hexadecimal value) = .ok value := by
  have read : Text.readNumeral 16 (Nat.toDigits 16 value) = .ok value :=
    Text.readNumeral_toDigits (by decide) (by decide) fits
  exact (readOffset_prefixed (Nat.toDigits 16 value)).1.trans read

/-! ### Exact numbers -/

/-- Offsets and counts are read exactly or refused. An offset is a decimal numeral, or a hexadecimal
one behind `0x` or `0X`, and a count is a decimal numeral that is not zero. What is read is the value
of the digits, which fits into 64 bits; any other text is refused with a message that quotes it.
Zeros in front of the digits make no difference. The decimal text of a number and the hexadecimal
one, which is how the message about a short file shows an offset, are read as that number. -/
theorem offsets_and_counts_exact :
    (∀ text value, readOffset text = .ok value ↔
        ∃ mark radix numeral, Announces mark radix ∧ text = mark ++ numeral ∧
          IsNumeral radix numeral value ∧ value < wordLimit) ∧
      (∀ line text value, Schema.readCount line text = .ok value ↔
        IsNumeral 10 text value ∧ 1 ≤ value ∧ value < wordLimit) ∧
      (∀ argument : String, (∀ value, readOffset argument.toList ≠ .ok value) →
        ∃ cause, Slot.offset.check argument = .error (.badOffset argument cause) ∧
          (Refusal.badOffset argument cause).message? =
            some ("invalid offset '" ++ argument ++ "': " ++ cause.message)) ∧
      (∀ line (count : String), (∀ value, Schema.readCount line count.toList ≠ .ok value) →
        Schema.readCount line count.toList = .error (.badCount line count) ∧
          (Fault.badCount line count).message = "line " ++ toString line ++
            ": array count must be a positive integer, found " ++ Fault.quoted count) ∧
      (∀ sign radix digits value zeros, (sign = [] ∨ sign = ['+']) → Digits radix digits value →
        (∀ mark, Announces mark radix →
          readOffset (mark ++ (sign ++ (List.replicate zeros '0' ++ digits))) =
            readOffset (mark ++ (sign ++ digits))) ∧
        (radix = 10 → ∀ line count,
          Schema.readCount line (sign ++ (List.replicate zeros '0' ++ digits)) = .ok count ↔
            Schema.readCount line (sign ++ digits) = .ok count)) ∧
      ∀ value, value < wordLimit →
        readOffset (Text.decimal value) = .ok value ∧
          readOffset (Text.hexadecimal value) = .ok value ∧
          (∀ line, 1 ≤ value → Schema.readCount line (Text.decimal value) = .ok value) ∧
          ∀ path length size, ∃ front, (Fault.shortPatch path length size value).message =
            front ++ String.ofList (Text.hexadecimal value) := by
  refine ⟨fun text value => readOffset_eq_ok_iff,
    fun line text value => Schema.readCount_eq_ok_iff_isNumeral, ?_, ?_, ?_, ?_⟩
  · intro argument refused
    obtain ⟨cause, outcome⟩ := check_offset_of_refused refused
    exact ⟨cause, outcome, rfl⟩
  · intro line count refused
    have outcome := Schema.readCount_of_refused refused
    rw [String.ofList_toList] at outcome
    exact ⟨outcome, rfl⟩
  · intro sign radix digits value zeros signed spelled
    constructor
    · intro mark announced
      exact readOffset_zeros announced signed spelled zeros
    · rintro rfl line count
      exact Schema.readCount_zeros signed spelled zeros count
  · intro value fits
    refine ⟨readOffset_decimalText fits, readOffset_hexadecimal fits, ?_, ?_⟩
    · intro line positive
      exact Schema.readCount_decimal positive fits
    · intro path length size
      exact ⟨_, rfl⟩

/-- Numbers at the limit of 64 bits, a count of zero, and numbers with a sign and zeros. -/
theorem offsets_and_counts_exact_at_limit :
    readOffset "18446744073709551616".toList = .error .tooLarge ∧
      (∃ cause, Slot.offset.check "18446744073709551616" =
        .error (.badOffset "18446744073709551616" cause)) ∧
      Schema.readCount 7 "+0".toList = .error (.badCount 7 "+0") ∧
      (Announces ['0', 'x'] 16 ∧ Digits 16 ['f', 'F'] 255 ∧
        readOffset "0x+000fF".toList = readOffset "0x+fF".toList) ∧
      (Digits 10 ['7'] 7 ∧ Schema.readCount 7 "+007".toList = .ok 7) ∧
      18446744073709551615 < wordLimit ∧
      readOffset (Text.hexadecimal 18446744073709551615) = .ok 18446744073709551615 ∧
      Schema.readCount 7 (Text.decimal 18446744073709551615) = .ok 18446744073709551615 := by
  have large : readOffset "18446744073709551616".toList = .error .tooLarge := rfl
  have zero : Schema.readCount 7 "+0".toList = .error (.badCount 7 "+0") := rfl
  have greatest : 18446744073709551615 < wordLimit := by decide
  have hexadecimal : Digits 16 ['f', 'F'] 255 := by
    have lower : Text.IsDigit 16 'f' 15 := ⟨by decide, .inl rfl⟩
    have upper : Text.IsDigit 16 'F' 15 := ⟨by decide, .inr rfl⟩
    exact .more (.one lower) upper
  have seven : Digits 10 ['7'] 7 := .one ⟨by decide, .inl rfl⟩
  obtain ⟨-, -, badOffsets, badCounts, zeros, printed⟩ := offsets_and_counts_exact
  obtain ⟨cause, refused, -⟩ := badOffsets "18446744073709551616" (by rw [large]; nofun)
  obtain ⟨badCount, -⟩ := badCounts 7 "+0" (by rw [zero]; nofun)
  obtain ⟨offsets, -⟩ := zeros ['+'] 16 ['f', 'F'] 255 3 (.inr rfl) hexadecimal
  obtain ⟨-, counts⟩ := zeros ['+'] 10 ['7'] 7 2 (.inr rfl) seven
  obtain ⟨-, read, count, -⟩ := printed 18446744073709551615 greatest
  exact ⟨large, ⟨cause, refused⟩, badCount, ⟨.lower, hexadecimal, offsets ['0', 'x'] .lower⟩,
    ⟨seven, (counts rfl 7 7).2 rfl⟩, greatest, read, count 7 (by decide)⟩

end RecordDiff.Command
