import RecordDiff.Text.Numeral
import RecordDiff.Yaml.Cursor

/-!
What a plain scalar reads as. A few spellings are null or a truth value, digits with an optional
sign are integers, in radix 16, 8 or 2 behind a mark, and a finite decimal fraction is a number too;
everything else is a text, and so are digits behind a needless zero.
-/

namespace RecordDiff.Yaml

/-- Whether a plain scalar is null. -/
def isNull (text : List Char) : Bool :=
  text == "null".toList || text == "Null".toList || text == "NULL".toList || text == ['~']

/-- The truth value that a plain scalar is. -/
def bool? (text : List Char) : Option Bool :=
  if text = "true".toList ∨ text = "True".toList ∨ text = "TRUE".toList then some true
  else if text = "false".toList ∨ text = "False".toList ∨ text = "FALSE".toList then some false
  else none

/-- A plus or a minus. -/
def isSign (c : Char) : Bool :=
  c == '+' || c == '-'

/-- Whether a text starts with a sign. -/
def startsSign : List Char → Bool
  | [] => false
  | c :: _ => isSign c

/-- A text without the sign it starts with. -/
def dropSign : List Char → List Char
  | [] => []
  | c :: rest => if isSign c then rest else c :: rest

/-- A text without the plus it starts with. -/
def dropPlus : List Char → List Char
  | '+' :: rest => rest
  | text => text

/-- Whether a character is a decimal digit. -/
def isDecimalDigit (c : Char) : Bool :=
  '0' ≤ c && c ≤ '9'

/-- Digits behind a needless zero, which are no number. -/
def isZeroPadded (text : List Char) : Bool :=
  match dropSign text with
  | '0' :: d :: rest => (d :: rest).all isDecimalDigit
  | _ => false

/-- The value of digits of a radix, of which there is at least one. -/
def digitsValue? (radix : Nat) (text : List Char) : Option Nat :=
  if text.isEmpty then none
  else text.foldlM (fun value c => (Text.digit? radix c).map fun d => value * radix + d) 0

/-- The radix that a mark in front of digits names, and the digits. -/
def radixMark? : List Char → Option (Nat × List Char)
  | '0' :: 'x' :: rest => some (16, rest)
  | '0' :: 'o' :: rest => some (8, rest)
  | '0' :: 'b' :: rest => some (2, rest)
  | _ => none

/-- The natural number below a limit that a plain scalar is. -/
def unsigned? (limit : Nat) (text : List Char) : Option Nat :=
  let value :=
    match radixMark? (dropPlus text) with
    | some (radix, digits) => digitsValue? radix digits
    | none => if isZeroPadded text then none else digitsValue? 10 (dropPlus text)
  value.filter (· < limit)

/-- Whether a plain scalar is a negative integer, with no less than the negated limit as value. -/
def isNegative (limit : Nat) (text : List Char) : Bool :=
  match text with
  | '-' :: rest =>
    let value :=
      match radixMark? rest with
      | some (radix, digits) => digitsValue? radix digits
      | none => if isZeroPadded text then none else digitsValue? 10 rest
    match value with
    | some value => value ≤ limit
    | none => false
  | _ => false

/-! ### Fractions -/

/-- The digits of a decimal fraction as one natural number, and the power of ten it is scaled by. -/
structure Scaled where
  digits : Nat
  exponent : Int
  deriving DecidableEq, Repr

/-- The exponent behind the digits of a fraction; without one it is zero. -/
def exponent? : List Char → Option Int
  | [] => some 0
  | c :: rest =>
    if c = 'e' ∨ c = 'E' then
      (digitsValue? 10 (dropSign rest)).map fun value =>
        if rest.head? = some '-' then -(value : Int) else (value : Int)
    else none

/-- The number that a decimal fraction without a sign is. There is a digit in front of its point or
behind it. -/
def scaled? (text : List Char) : Option Scaled :=
  let whole := text.takeWhile isDecimalDigit
  let afterWhole := text.dropWhile isDecimalDigit
  let (fraction, afterFraction) :=
    match afterWhole with
    | '.' :: rest => (rest.takeWhile isDecimalDigit, rest.dropWhile isDecimalDigit)
    | rest => ([], rest)
  (digitsValue? 10 (whole ++ fraction)).bind fun digits =>
    (exponent? afterFraction).map fun exponent => ⟨digits, exponent - fraction.length⟩

/-- The least number that is rounded away from the finite doubles. -/
def doubleLimit : Nat :=
  Nat.pow 2 1024 - Nat.pow 2 970

/-- Whether a scaled number is rounded to a finite double. Numbers of far too many or far too few
digits are decided by their length alone. -/
def Scaled.isFinite (value : Scaled) : Bool :=
  let places := ((Nat.toDigits 10 value.digits).length : Int) + value.exponent
  value.digits == 0 || places < 300 ||
    (places < 320 &&
      (if 0 ≤ value.exponent then value.digits * Nat.pow 10 value.exponent.toNat < doubleLimit
      else value.digits < doubleLimit * Nat.pow 10 (-value.exponent).toNat))

/-- Whether a plain scalar is a fraction, an infinity or not a number. -/
def isFraction (text : List Char) : Bool :=
  let signed := text.head? == some '+' && startsSign (dropPlus text)
  let unsignedText := dropSign text
  !signed &&
    ([".inf", ".Inf", ".INF"].any (fun name => name.toList == unsignedText) ||
      [".nan", ".NaN", ".NAN"].any (fun name => name.toList == text) ||
      (!isZeroPadded text &&
        match scaled? unsignedText with
        | some value => value.isFinite
        | none => false))

/-- Whether a text written plain would be read as something that is no text. -/
def readsAsOther (text : List Char) : Bool :=
  text.isEmpty || isNull text || (bool? text).isSome || isZeroPadded text ||
    (unsigned? (Nat.pow 2 128) text).isSome || isNegative (Nat.pow 2 127) text || isFraction text

end RecordDiff.Yaml
