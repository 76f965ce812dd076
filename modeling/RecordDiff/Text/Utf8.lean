/-!
UTF-8. Decoding reads one character after another and refuses a sequence at the first octet that
rules it out: overlong forms, surrogates and values beyond the last code point are no characters.
A refusal names the index of the character that fails, and how many octets from there on can be
skipped; at the end of the octets a character may also be merely cut off.
-/

namespace RecordDiff.Text.Utf8

/-- Where and how a sequence of octets fails to be UTF-8. -/
inductive Fault where
  /-- From `index` on, `length` octets start no character. -/
  | invalid (length index : Nat)
  /-- The character at `index` is cut off by the end of the octets. -/
  | incomplete (index : Nat)
  deriving DecidableEq, Repr

/-- The fault in words. -/
def Fault.message : Fault → String
  | .invalid length index =>
    "invalid utf-8 sequence of " ++ toString length ++ " bytes from index " ++ toString index
  | .incomplete index => "incomplete utf-8 byte sequence from index " ++ toString index

/-- A continuation octet. -/
def isTail (b : UInt8) : Bool :=
  0x80 ≤ b && b ≤ 0xBF

/-- Whether `b` may follow the first octet `a` of a character of three octets. -/
def isSecondOfThree (a b : UInt8) : Bool :=
  if a = 0xE0 then 0xA0 ≤ b && b ≤ 0xBF
  else if a = 0xED then 0x80 ≤ b && b ≤ 0x9F
  else isTail b

/-- Whether `b` may follow the first octet `a` of a character of four octets. -/
def isSecondOfFour (a b : UInt8) : Bool :=
  if a = 0xF0 then 0x90 ≤ b && b ≤ 0xBF
  else if a = 0xF4 then 0x80 ≤ b && b ≤ 0x8F
  else isTail b

/-- The six bits of a continuation octet. -/
def tailBits (b : UInt8) : Nat :=
  b.toNat - 0x80

/-- The character of a first octet from 0xC2 to 0xDF and one more. -/
def charOfTwo (a b : UInt8) : Char :=
  Char.ofNat ((a.toNat - 0xC0) * 0x40 + tailBits b)

/-- The character of a first octet from 0xE0 to 0xEF and two more. -/
def charOfThree (a b c : UInt8) : Char :=
  Char.ofNat (((a.toNat - 0xE0) * 0x40 + tailBits b) * 0x40 + tailBits c)

/-- The character of a first octet from 0xF0 to 0xF4 and three more. -/
def charOfFour (a b c d : UInt8) : Char :=
  Char.ofNat ((((a.toNat - 0xF0) * 0x40 + tailBits b) * 0x40 + tailBits c) * 0x40 + tailBits d)

/-- Decodes octets the first of which has the given index. -/
def decodeFrom (index : Nat) : List UInt8 → Except Fault (List Char)
  | [] => .ok []
  | a :: afterA =>
    if a < 0x80 then
      (decodeFrom (index + 1) afterA).map (Char.ofNat a.toNat :: ·)
    else if 0xC2 ≤ a ∧ a ≤ 0xDF then
      match afterA with
      | [] => .error (.incomplete index)
      | b :: afterB =>
        if isTail b then (decodeFrom (index + 2) afterB).map (charOfTwo a b :: ·)
        else .error (.invalid 1 index)
    else if 0xE0 ≤ a ∧ a ≤ 0xEF then
      match afterA with
      | [] => .error (.incomplete index)
      | b :: afterB =>
        if isSecondOfThree a b then
          match afterB with
          | [] => .error (.incomplete index)
          | c :: afterC =>
            if isTail c then (decodeFrom (index + 3) afterC).map (charOfThree a b c :: ·)
            else .error (.invalid 2 index)
        else .error (.invalid 1 index)
    else if 0xF0 ≤ a ∧ a ≤ 0xF4 then
      match afterA with
      | [] => .error (.incomplete index)
      | b :: afterB =>
        if isSecondOfFour a b then
          match afterB with
          | [] => .error (.incomplete index)
          | c :: afterC =>
            if isTail c then
              match afterC with
              | [] => .error (.incomplete index)
              | d :: afterD =>
                if isTail d then (decodeFrom (index + 4) afterD).map (charOfFour a b c d :: ·)
                else .error (.invalid 3 index)
            else .error (.invalid 2 index)
        else .error (.invalid 1 index)
    else .error (.invalid 1 index)

/-- The characters that a sequence of octets stands for. -/
def decode (octets : List UInt8) : Except Fault (List Char) :=
  decodeFrom 0 octets

/-- The octets of a text. -/
def encode (text : List Char) : List UInt8 :=
  text.flatMap String.utf8EncodeChar

end RecordDiff.Text.Utf8
