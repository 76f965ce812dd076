/-!
Natural numbers in words of 64 bits, as text. A numeral is an optional plus sign and then digits of
one radix, with any number of leading zeros; the value is exact or the numeral is refused.
Main statements:

- `readDigits_lt`: what is read always fits into a word;
- `readNumeral_plus`: a plus sign in front of digits changes nothing.
-/

namespace RecordDiff.Text

/-- The first number that a 64-bit word cannot hold. -/
def wordLimit : Nat := 18446744073709551616

/-- Why a text is not a numeral. -/
inductive NumeralFault where
  /-- There is no text at all. -/
  | empty
  /-- A character is not a digit of the radix, or the sign stands alone. -/
  | invalidDigit
  /-- The value does not fit into a word. -/
  | tooLarge
  deriving DecidableEq, Repr

/-- The cause in words. -/
def NumeralFault.message : NumeralFault → String
  | .empty => "cannot parse integer from empty string"
  | .invalidDigit => "invalid digit found in string"
  | .tooLarge => "number too large to fit in target type"

/-- The value of an ASCII letter or digit as a digit, whatever the radix: ten for `a` and `A`. -/
def digitWorth (c : Char) : Option Nat :=
  if '0' ≤ c ∧ c ≤ '9' then some (c.toNat - 48)
  else if 'a' ≤ c ∧ c ≤ 'z' then some (c.toNat - 87)
  else if 'A' ≤ c ∧ c ≤ 'Z' then some (c.toNat - 55)
  else none

/-- The value of a digit of a radix. -/
def digit? (radix : Nat) (c : Char) : Option Nat :=
  (digitWorth c).filter (· < radix)

/-- Reads digits behind a value already read. The first fault from the left counts. -/
def readDigits (radix : Nat) : Nat → List Char → Except NumeralFault Nat
  | value, [] => .ok value
  | value, c :: rest =>
    match digit? radix c with
    | none => .error .invalidDigit
    | some d =>
      if value * radix + d < wordLimit then readDigits radix (value * radix + d) rest
      else .error .tooLarge

/-- Reads a numeral of a radix. -/
def readNumeral (radix : Nat) : List Char → Except NumeralFault Nat
  | [] => .error .empty
  | '+' :: [] => .error .invalidDigit
  | '+' :: digits => readDigits radix 0 digits
  | digits => readDigits radix 0 digits

/-- The decimal digits of a number. -/
def decimal (value : Nat) : List Char :=
  Nat.toDigits 10 value

/-- The lowercase hexadecimal digits of a number behind `0x`. -/
def hexadecimal (value : Nat) : List Char :=
  '0' :: 'x' :: Nat.toDigits 16 value

/-- One lowercase hexadecimal digit; sixteen and more share the mark of fifteen. -/
def hexDigit (value : Nat) : Char :=
  let digits := ['0', '1', '2', '3', '4', '5', '6', '7', '8', '9', 'a', 'b', 'c', 'd', 'e', 'f']
  digits[value]?.getD 'f'

/-! ### Values in range -/

theorem readDigits_lt {radix start value : Nat} {digits : List Char} (fits : start < wordLimit)
    (read : readDigits radix start digits = .ok value) : value < wordLimit := by
  induction digits generalizing start with
  | nil =>
    simp only [readDigits, Except.ok.injEq] at read
    exact read ▸ fits
  | cons c rest ih =>
    simp only [readDigits] at read
    split at read
    · cases read
    · split at read
      · rename_i inRange
        exact ih inRange read
      · cases read

theorem readNumeral_plus {radix : Nat} {c : Char} {rest : List Char} (unsigned : c ≠ '+') :
    readNumeral radix ('+' :: c :: rest) = readNumeral radix (c :: rest) := by
  simp [readNumeral, unsigned]

end RecordDiff.Text
