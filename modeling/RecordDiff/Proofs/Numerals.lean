import RecordDiff.Text.Numeral

/-!
Numbers read back. What is printed for a number of 64 bits is a numeral of that very number, in
decimal and in hexadecimal, so two numbers never share their digits; and a text is read as a number
only if it is a numeral of that number. Main statements:

- `readDigits_append`: digits are read one after the other, on top of the value read so far;
- `readNumeral_toDigits`: the digits of a number are read as that number;
- `decimal_injective`: the decimal digits of a number tell it from every other;
- `readNumeral_eq_ok_iff`: in any radix up to sixteen, a numeral is read exactly if its value fits
  into a word, and nothing else is;
- `isDecimal_iff`: what that comes to in decimal.
-/

namespace RecordDiff.Text

variable {radix value : Nat} {c : Char} {rest : List Char}

theorem digitWorth_digitChar {d : Nat} (small : d < 16) :
    digitWorth (Nat.digitChar d) = some d := by
  have all : ∀ d < 16, digitWorth (Nat.digitChar d) = some d := by decide
  exact all d small

theorem digit?_digitChar {d : Nat} (inRadix : d < radix) (known : radix ≤ 16) :
    digit? radix (Nat.digitChar d) = some d := by
  rw [digit?, digitWorth_digitChar (Nat.lt_of_lt_of_le inRadix known), Option.filter_some,
    if_pos (decide_eq_true inRadix)]

/-- Digits are read one after the other, on top of the value read so far. -/
theorem readDigits_append (start : Nat) (front back : List Char) :
    readDigits radix start (front ++ back) =
      (readDigits radix start front).bind fun value => readDigits radix value back := by
  induction front generalizing start with
  | nil => rfl
  | cons c front ih =>
    rw [List.cons_append, readDigits, readDigits]
    cases digit? radix c with
    | none => rfl
    | some d =>
      by_cases inRange : start * radix + d < wordLimit
      · simp only [if_pos inRange]
        exact ih (start * radix + d)
      · simp only [if_neg inRange]
        rfl

theorem readDigits_digitChar {start d : Nat} (inRadix : d < radix) (known : radix ≤ 16)
    (fits : start * radix + d < wordLimit) :
    readDigits radix start [Nat.digitChar d] = .ok (start * radix + d) := by
  rw [readDigits, digit?_digitChar inRadix known]
  simp only [if_pos fits]
  rfl

theorem readDigits_toDigits (proper : 1 < radix) (known : radix ≤ 16) (fits : value < wordLimit) :
    readDigits radix 0 (Nat.toDigits radix value) = .ok value := by
  induction value using Nat.strongRecOn with
  | ind value ih =>
    rw [Nat.toDigits_eq_if proper]
    by_cases single : value < radix
    · rw [if_pos single, readDigits_digitChar single known (by omega), Nat.zero_mul, Nat.zero_add]
    · -- the last digit is read behind those of the quotient
      have fewer : value / radix < value := Nat.div_lt_self (by omega) proper
      have lastDigit : value % radix < radix := Nat.mod_lt value (by omega)
      have whole : value / radix * radix + value % radix = value := Nat.div_add_mod' value radix
      rw [if_neg single, readDigits_append, ih _ fewer (Nat.lt_trans fewer fits)]
      refine (readDigits_digitChar lastDigit known (by rwa [whole])).trans ?_
      rw [whole]

theorem readNumeral_of_unsigned (unsigned : c ≠ '+') :
    readNumeral radix (c :: rest) = readDigits radix 0 (c :: rest) := by
  simp [readNumeral, unsigned]

/-- What can be read as digits has no sign, and is a numeral of the same value. -/
theorem readNumeral_of_readDigits (read : readDigits radix 0 (c :: rest) = .ok value) :
    readNumeral radix (c :: rest) = .ok value := by
  have unsigned : c ≠ '+' := by
    rintro rfl
    have noDigit : digit? radix '+' = none := rfl
    rw [readDigits, noDigit] at read
    cases read
  rw [readNumeral_of_unsigned unsigned, read]

/-- The digits of a number are read as that number. -/
theorem readNumeral_toDigits (proper : 1 < radix) (known : radix ≤ 16) (fits : value < wordLimit) :
    readNumeral radix (Nat.toDigits radix value) = .ok value := by
  have read := readDigits_toDigits proper known fits
  cases digits : Nat.toDigits radix value with
  | nil => exact absurd digits Nat.toDigits_ne_nil
  | cons c rest =>
    rw [digits] at read
    exact readNumeral_of_readDigits read

theorem readNumeral_decimal (fits : value < wordLimit) :
    readNumeral 10 (decimal value) = .ok value :=
  readNumeral_toDigits (by decide) (by decide) fits

theorem isDigit_of_mem_decimal (mem : c ∈ decimal value) : c.isDigit = true :=
  Nat.isDigit_of_mem_toDigits (by decide) (by decide) mem

theorem decimal_head (value : Nat) :
    ∃ c rest, decimal value = c :: rest ∧ c.isDigit = true := by
  have nonempty : decimal value ≠ [] := Nat.toDigits_ne_nil
  obtain ⟨c, rest, shape⟩ := List.exists_cons_of_ne_nil nonempty
  have mem : c ∈ decimal value := shape ▸ List.mem_cons_self
  exact ⟨c, rest, shape, isDigit_of_mem_decimal mem⟩

/-- A number other than zero does not start with a zero. -/
theorem decimal_head_ne_zero (nonzero : value ≠ 0) : (decimal value).head? ≠ some '0' := by
  induction value using Nat.strongRecOn with
  | ind value ih =>
    rw [decimal, Nat.toDigits_eq_if (by decide)]
    by_cases single : value < 10
    · have all : ∀ d < 10, d ≠ 0 → Nat.digitChar d ≠ '0' := by decide
      simp [single, all value single nonzero]
    · have front := ih (value / 10) (by omega) (by omega)
      obtain ⟨c, rest, shape, -⟩ := decimal_head (value / 10)
      rw [shape] at front
      rw [decimal] at shape
      rw [if_neg single, shape]
      simpa using front

/-- The decimal digits of a number tell it from every other. -/
theorem decimal_injective {other : Nat} (same : decimal value = decimal other) : value = other := by
  have read := congrArg (fun digits => Nat.ofDigitChars 10 digits 0) same
  simpa only [decimal, Nat.ofDigitChars_ten_toDigits] using read

/-! ### Numerals of a radix -/

/-- `IsDigit radix c d`: the character is the digit of this worth in the radix, a letter in either
case. -/
def IsDigit (radix : Nat) (c : Char) (d : Nat) : Prop :=
  d < radix ∧ (c = Nat.digitChar d ∨ c = (Nat.digitChar d).toUpper)

/-- `Digits radix text value`: the text is one digit or more, of this value. -/
inductive Digits (radix : Nat) : List Char → Nat → Prop where
  /-- A digit alone has the value of its worth. -/
  | one {c : Char} {d : Nat} (digit : IsDigit radix c d) : Digits radix [c] d
  /-- A digit behind others makes the radix times as much of them and adds its worth. -/
  | more {front : List Char} {c : Char} {start d : Nat} (before : Digits radix front start)
      (digit : IsDigit radix c d) : Digits radix (front ++ [c]) (start * radix + d)

/-- `IsNumeral radix text value`: the text is a numeral of this value, digits with a plus sign in
front or not. -/
def IsNumeral (radix : Nat) (text : List Char) (value : Nat) : Prop :=
  ∃ digits, Digits radix digits value ∧ (text = digits ∨ text = '+' :: digits)

theorem eq_digitChar_of_digitWorth {d : Nat} (worth : digitWorth c = some d) (small : d < 16) :
    c = Nat.digitChar d ∨ c = (Nat.digitChar d).toUpper := by
  have decimals : ∀ d < 10, Char.ofNat (48 + d) = Nat.digitChar d := by decide
  have lower : ∀ d < 16, 10 ≤ d → Char.ofNat (87 + d) = Nat.digitChar d := by decide
  have upper : ∀ d < 16, 10 ≤ d → Char.ofNat (55 + d) = (Nat.digitChar d).toUpper := by decide
  unfold digitWorth at worth
  split at worth
  · rename_i inside
    have least : 48 ≤ c.toNat := inside.1
    have greatest : c.toNat ≤ 57 := inside.2
    obtain rfl : c.toNat - 48 = d := Option.some.inj worth
    refine .inl ?_
    rw [← decimals _ (by omega), Nat.add_sub_cancel' least, Char.ofNat_toNat]
  · split at worth
    · rename_i letter
      have least : 97 ≤ c.toNat := letter.1
      obtain rfl : c.toNat - 87 = d := Option.some.inj worth
      refine .inl ?_
      rw [← lower _ small (by omega), Nat.add_sub_cancel' (by omega), Char.ofNat_toNat]
    · split at worth
      · rename_i letter
        have least : 65 ≤ c.toNat := letter.1
        obtain rfl : c.toNat - 55 = d := Option.some.inj worth
        refine .inr ?_
        rw [← upper _ small (by omega), Nat.add_sub_cancel' (by omega), Char.ofNat_toNat]
      · cases worth

/-- The characters that are read as digits are the digits of the radix. -/
theorem digit?_eq_some_iff {d : Nat} (known : radix ≤ 16) :
    digit? radix c = some d ↔ IsDigit radix c d := by
  have upper : ∀ d < 16, digitWorth (Nat.digitChar d).toUpper = some d := by decide
  rw [digit?, Option.filter_eq_some_iff, decide_eq_true_iff]
  constructor
  · rintro ⟨worth, inRadix⟩
    exact ⟨inRadix, eq_digitChar_of_digitWorth worth (Nat.lt_of_lt_of_le inRadix known)⟩
  · rintro ⟨inRadix, rfl | rfl⟩
    · exact ⟨digitWorth_digitChar (Nat.lt_of_lt_of_le inRadix known), inRadix⟩
    · exact ⟨upper d (Nat.lt_of_lt_of_le inRadix known), inRadix⟩

theorem not_isDigit_plus {d : Nat} (known : radix ≤ 16) : ¬IsDigit radix '+' d := by
  have noDigit : digit? radix '+' = none := rfl
  rw [← digit?_eq_some_iff known, noDigit]
  intro same
  cases same

theorem Digits.ne_nil {text : List Char} (digits : Digits radix text value) : text ≠ [] := by
  cases digits with
  | one digit => exact List.cons_ne_nil _ _
  | more before digit => exact List.concat_ne_nil _ _

theorem Digits.exists_isDigit {text : List Char} (digits : Digits radix text value)
    (member : c ∈ text) : ∃ d, IsDigit radix c d := by
  induction digits with
  | one digit =>
    obtain rfl := List.mem_singleton.1 member
    exact ⟨_, digit⟩
  | more before digit ih =>
    rcases List.mem_append.1 member with earlier | last
    · exact ih earlier
    · obtain rfl := List.mem_singleton.1 last
      exact ⟨_, digit⟩

/-- A plus sign is no digit, so no digits start with it. -/
theorem Digits.unsigned (known : radix ≤ 16) (digits : Digits radix (c :: rest) value) :
    c ≠ '+' := by
  rintro rfl
  obtain ⟨d, digit⟩ := digits.exists_isDigit List.mem_cons_self
  exact not_isDigit_plus known digit

/-- What is read on top of the value of digits is the value of all of them together. -/
theorem Digits.readOn {front : List Char} {start : Nat} (known : radix ≤ 16)
    (before : Digits radix front start) (read : readDigits radix start rest = .ok value) :
    Digits radix (front ++ rest) value := by
  induction rest generalizing front start with
  | nil =>
    obtain rfl : start = value := Except.ok.inj read
    rwa [List.append_nil]
  | cons c rest ih =>
    rw [readDigits] at read
    cases worth : digit? radix c with
    | none => rw [worth] at read; cases read
    | some d =>
      simp only [worth] at read
      split at read
      · rw [List.append_cons]
        exact ih (.more before ((digit?_eq_some_iff known).1 worth)) read
      · cases read

/-- Digits whose value fits into a word are read as that value. What is read in between is never
larger, so it fits as well. -/
theorem Digits.read {text : List Char} (known : radix ≤ 16) (digits : Digits radix text value)
    (fits : value < wordLimit) : readDigits radix 0 text = .ok value := by
  induction digits with
  | one digit =>
    rw [readDigits, (digit?_eq_some_iff known).2 digit]
    simp only [Nat.zero_mul, Nat.zero_add, if_pos fits]
    rfl
  | @more front c start d before digit ih =>
    have proper : 1 ≤ radix := Nat.lt_of_le_of_lt (Nat.zero_le d) digit.1
    have smaller : start ≤ start * radix := Nat.le_mul_of_pos_right start proper
    rw [readDigits_append, ih (by omega), Except.bind, readDigits,
      (digit?_eq_some_iff known).2 digit]
    simp only [if_pos fits]
    rfl

/-- Digits are read exactly if their value fits into a word, and nothing else is. -/
theorem readDigits_cons_eq_ok_iff (known : radix ≤ 16) :
    readDigits radix 0 (c :: rest) = .ok value ↔
      Digits radix (c :: rest) value ∧ value < wordLimit := by
  have positive : 0 < wordLimit := by decide
  constructor
  · intro read
    refine ⟨?_, readDigits_lt positive read⟩
    rw [readDigits] at read
    cases worth : digit? radix c with
    | none => rw [worth] at read; cases read
    | some d =>
      simp only [worth, Nat.zero_mul, Nat.zero_add] at read
      split at read
      · exact Digits.readOn known (.one ((digit?_eq_some_iff known).1 worth)) read
      · cases read
  · rintro ⟨digits, fits⟩
    exact digits.read known fits

/-- A numeral is read exactly if its value fits into a word, and no other text is. -/
theorem readNumeral_eq_ok_iff {text : List Char} (known : radix ≤ 16) :
    readNumeral radix text = .ok value ↔ IsNumeral radix text value ∧ value < wordLimit := by
  unfold readNumeral IsNumeral
  split
  · refine iff_of_false (by simp) ?_
    rintro ⟨⟨digits, spelled, rfl | same⟩, -⟩
    · exact spelled.ne_nil rfl
    · cases same
  · refine iff_of_false (by simp) ?_
    rintro ⟨⟨digits, spelled, rfl | same⟩, -⟩
    · exact spelled.unsigned known rfl
    · exact spelled.ne_nil (List.cons.inj same).2.symm
  · rename_i digits some
    obtain ⟨c, rest, rfl⟩ := List.exists_cons_of_ne_nil some
    rw [readDigits_cons_eq_ok_iff known]
    constructor
    · rintro ⟨spelled, fits⟩
      exact ⟨⟨c :: rest, spelled, .inr rfl⟩, fits⟩
    · rintro ⟨⟨others, spelled, rfl | same⟩, fits⟩
      · exact absurd rfl (spelled.unsigned known)
      · cases same
        exact ⟨spelled, fits⟩
  · rename_i nonempty alone signed
    obtain ⟨c, rest, rfl⟩ := List.exists_cons_of_ne_nil nonempty
    rw [readDigits_cons_eq_ok_iff known]
    constructor
    · rintro ⟨spelled, fits⟩
      exact ⟨⟨c :: rest, spelled, .inl rfl⟩, fits⟩
    · rintro ⟨⟨digits, spelled, rfl | same⟩, fits⟩
      · exact ⟨spelled, fits⟩
      · exact absurd same (signed digits)

/-- Nothing but a sign and digits stands in a numeral. -/
theorem IsNumeral.sign_or_digit {text : List Char} (known : radix ≤ 16)
    (numeral : IsNumeral radix text value) (member : c ∈ text) :
    c = '+' ∨ (digit? radix c).isSome := by
  have isSome : ∀ {digits}, Digits radix digits value → c ∈ digits → (digit? radix c).isSome := by
    intro digits spelled inside
    obtain ⟨d, digit⟩ := spelled.exists_isDigit inside
    rw [(digit?_eq_some_iff known).2 digit]
    rfl
  obtain ⟨digits, spelled, rfl | rfl⟩ := numeral
  · exact .inr (isSome spelled member)
  · rcases List.mem_cons.1 member with sign | digit
    · exact .inl sign
    · exact .inr (isSome spelled digit)

/-! ### Decimal numerals -/

/-- `IsDecimal text value`: the text is a decimal numeral of this value, one ASCII digit or more, with a
plus sign in front or not. -/
def IsDecimal (text : List Char) (value : Nat) : Prop :=
  ∃ digits, digits ≠ [] ∧ (∀ c ∈ digits, c.isDigit = true) ∧ Nat.ofDigitChars 10 digits 0 = value ∧
    (text = digits ∨ text = '+' :: digits)

theorem digit?_ten (c : Char) : digit? 10 c = if c.isDigit then some (c.toNat - 48) else none := by
  have isDigit : c.isDigit = decide ('0' ≤ c ∧ c ≤ '9') := by
    simp [Char.isDigit, Char.le_def]
  rw [digit?, digitWorth, isDigit]
  by_cases inside : '0' ≤ c ∧ c ≤ '9'
  · have greatest : c.toNat ≤ '9'.toNat := inside.2
    have nine : '9'.toNat = 57 := rfl
    have small : c.toNat - 48 < 10 := by omega
    simp [inside, small]
  · rw [if_neg inside, decide_eq_false inside]
    -- a letter is worth ten at least
    split
    · rename_i letter
      have least : 'a'.toNat ≤ c.toNat := letter.1
      have first : 'a'.toNat = 97 := rfl
      have large : 10 ≤ c.toNat - 87 := by omega
      simp [large]
    · split
      · rename_i letter
        have least : 'A'.toNat ≤ c.toNat := letter.1
        have first : 'A'.toNat = 65 := rfl
        have large : 10 ≤ c.toNat - 55 := by omega
        simp [large]
      · rfl

theorem isDigit_ten_iff {d : Nat} : IsDigit 10 c d ↔ c.isDigit = true ∧ c.toNat - 48 = d := by
  have known : 10 ≤ 16 := by decide
  rw [← digit?_eq_some_iff known, digit?_ten]
  by_cases isDigit : c.isDigit = true
  · simp [isDigit]
  · simp [isDigit]

theorem Digits.append_ten {front : List Char} {start : Nat} (before : Digits 10 front start)
    (all : ∀ c ∈ rest, c.isDigit = true) :
    Digits 10 (front ++ rest) (Nat.ofDigitChars 10 rest start) := by
  induction rest generalizing front start with
  | nil => rwa [List.append_nil]
  | cons c rest ih =>
    obtain ⟨isDigit, behind⟩ := List.forall_mem_cons.1 all
    rw [List.append_cons, Nat.ofDigitChars_cons, Nat.mul_comm]
    exact ih (.more before (isDigit_ten_iff.2 ⟨isDigit, rfl⟩)) behind

theorem digits_ten_iff {digits : List Char} :
    Digits 10 digits value ↔
      digits ≠ [] ∧ (∀ c ∈ digits, c.isDigit = true) ∧ Nat.ofDigitChars 10 digits 0 = value := by
  constructor
  · intro spelled
    refine ⟨spelled.ne_nil, ?_, ?_⟩
    · intro c member
      obtain ⟨d, digit⟩ := spelled.exists_isDigit member
      exact (isDigit_ten_iff.1 digit).1
    · induction spelled with
      | one digit =>
        rw [Nat.ofDigitChars_cons, Nat.ofDigitChars_nil, Nat.mul_zero, Nat.zero_add]
        exact (isDigit_ten_iff.1 digit).2
      | more before digit ih =>
        rw [Nat.ofDigitChars_append, ih, Nat.ofDigitChars_cons, Nat.ofDigitChars_nil, Nat.mul_comm]
        exact congrArg _ (isDigit_ten_iff.1 digit).2
  · rintro ⟨some, all, rfl⟩
    obtain ⟨c, rest, rfl⟩ := List.exists_cons_of_ne_nil some
    obtain ⟨isDigit, behind⟩ := List.forall_mem_cons.1 all
    have first : Digits 10 [c] (c.toNat - 48) := .one (isDigit_ten_iff.2 ⟨isDigit, rfl⟩)
    rw [Nat.ofDigitChars_cons, Nat.mul_zero, Nat.zero_add]
    exact first.append_ten behind

theorem isDecimal_iff {text : List Char} : IsDecimal text value ↔ IsNumeral 10 text value := by
  simp only [IsDecimal, IsNumeral, digits_ten_iff, and_assoc]

/-- A numeral is read exactly if its value fits into a word, and no other text is. -/
theorem readNumeral_ten_eq_ok_iff {text : List Char} :
    readNumeral 10 text = .ok value ↔ IsDecimal text value ∧ value < wordLimit := by
  rw [isDecimal_iff]
  exact readNumeral_eq_ok_iff (by decide)

end RecordDiff.Text
