import RecordDiff.Text.Utf8

/-!
Decoding undoes encoding. Octets stand for a text exactly when they are the octets of that text, so
the octets that decoding refuses are those that are UTF-8 of no text at all. Main statements:

- `encode_charOfTwo`, `encode_charOfThree`, `encode_charOfFour`: a character that is read from
  octets has those octets;
- `decodeFrom_encodeChar_ofNat`: the octets of a character are read as that character;
- `decode_eq_ok_iff`: decoding gives a text exactly for the octets of that text.
-/

namespace RecordDiff.Text.Utf8

variable {a b c d : UInt8}

/-! ### Octets as numbers -/

theorem isTail_iff : isTail b = true ↔ 0x80 ≤ b.toNat ∧ b.toNat ≤ 0xBF := by
  simp [isTail, UInt8.le_iff_toNat_le]

theorem isSecondOfThree_iff :
    isSecondOfThree a b = true ↔
      (0x80 ≤ b.toNat ∧ b.toNat ≤ 0xBF) ∧ (a.toNat = 0xE0 → 0xA0 ≤ b.toNat) ∧
        (a.toNat = 0xED → b.toNat ≤ 0x9F) := by
  have lowest : a = 0xE0 ↔ a.toNat = 0xE0 := UInt8.toNat_inj.symm
  have surrogate : a = 0xED ↔ a.toNat = 0xED := UInt8.toNat_inj.symm
  simp only [isSecondOfThree, lowest, surrogate]
  split
  · simp only [Bool.and_eq_true, decide_eq_true_eq, UInt8.le_iff_toNat_le, UInt8.reduceToNat]
    omega
  · split
    · simp only [Bool.and_eq_true, decide_eq_true_eq, UInt8.le_iff_toNat_le, UInt8.reduceToNat]
      omega
    · rw [isTail_iff]
      omega

theorem isSecondOfFour_iff :
    isSecondOfFour a b = true ↔
      (0x80 ≤ b.toNat ∧ b.toNat ≤ 0xBF) ∧ (a.toNat = 0xF0 → 0x90 ≤ b.toNat) ∧
        (a.toNat = 0xF4 → b.toNat ≤ 0x8F) := by
  have lowest : a = 0xF0 ↔ a.toNat = 0xF0 := UInt8.toNat_inj.symm
  have highest : a = 0xF4 ↔ a.toNat = 0xF4 := UInt8.toNat_inj.symm
  simp only [isSecondOfFour, lowest, highest]
  split
  · simp only [Bool.and_eq_true, decide_eq_true_eq, UInt8.le_iff_toNat_le, UInt8.reduceToNat]
    omega
  · split
    · simp only [Bool.and_eq_true, decide_eq_true_eq, UInt8.le_iff_toNat_le, UInt8.reduceToNat]
      omega
    · rw [isTail_iff]
      omega

theorem ascii_iff : a < 0x80 ↔ a.toNat < 0x80 := UInt8.lt_iff_toNat_lt

theorem leadsTwo_iff : 0xC2 ≤ a ∧ a ≤ 0xDF ↔ 0xC2 ≤ a.toNat ∧ a.toNat ≤ 0xDF :=
  and_congr UInt8.le_iff_toNat_le UInt8.le_iff_toNat_le

theorem leadsThree_iff : 0xE0 ≤ a ∧ a ≤ 0xEF ↔ 0xE0 ≤ a.toNat ∧ a.toNat ≤ 0xEF :=
  and_congr UInt8.le_iff_toNat_le UInt8.le_iff_toNat_le

theorem leadsFour_iff : 0xF0 ≤ a ∧ a ≤ 0xF4 ↔ 0xF0 ≤ a.toNat ∧ a.toNat ≤ 0xF4 :=
  and_congr UInt8.le_iff_toNat_le UInt8.le_iff_toNat_le

theorem toNat_ofNat_of_isValidChar {n : Nat} (valid : n.isValidChar) :
    (Char.ofNat n).toNat = n := by
  have plain : Char.ofNat n = Char.ofNatAux n valid := dif_pos valid
  rw [plain]
  rfl

/-- The octets of the character of a code point, by the size of that code point. -/
theorem encodeChar_ofNat {n : Nat} (valid : n.isValidChar) :
    String.utf8EncodeChar (Char.ofNat n) =
      if n ≤ 0x7F then [UInt8.ofNat n]
      else if n ≤ 0x7FF then [UInt8.ofNat (n / 64 % 32 + 0xC0), UInt8.ofNat (n % 64 + 0x80)]
      else if n ≤ 0xFFFF then
        [UInt8.ofNat (n / 4096 % 16 + 0xE0), UInt8.ofNat (n / 64 % 64 + 0x80),
          UInt8.ofNat (n % 64 + 0x80)]
      else
        [UInt8.ofNat (n / 262144 % 8 + 0xF0), UInt8.ofNat (n / 4096 % 64 + 0x80),
          UInt8.ofNat (n / 64 % 64 + 0x80), UInt8.ofNat (n % 64 + 0x80)] := by
  have value : (Char.ofNat n).val.toNat = n := toNat_ofNat_of_isValidChar valid
  rw [String.utf8EncodeChar, value]

/-! ### A character that is read has the octets it is read from -/

theorem ofNat_eq_of_toNat (a : UInt8) {n : Nat} (same : n = a.toNat) : UInt8.ofNat n = a := by
  rw [same, UInt8.ofNat_toNat]

theorem encode_charOfOne (ascii : a < 0x80) : String.utf8EncodeChar (Char.ofNat a.toNat) = [a] := by
  rw [ascii_iff] at ascii
  rw [encodeChar_ofNat (.inl (by omega)), if_pos (by omega), UInt8.ofNat_toNat]

theorem encode_charOfTwo (lead : 0xC2 ≤ a ∧ a ≤ 0xDF) (tail : isTail b = true) :
    String.utf8EncodeChar (charOfTwo a b) = [a, b] := by
  rw [leadsTwo_iff] at lead
  rw [isTail_iff] at tail
  unfold charOfTwo tailBits
  rw [encodeChar_ofNat (.inl (by omega)), if_neg (by omega), if_pos (by omega),
    ofNat_eq_of_toNat a (by omega), ofNat_eq_of_toNat b (by omega)]

theorem encode_charOfThree (lead : 0xE0 ≤ a ∧ a ≤ 0xEF) (second : isSecondOfThree a b = true)
    (tail : isTail c = true) : String.utf8EncodeChar (charOfThree a b c) = [a, b, c] := by
  rw [leadsThree_iff] at lead
  rw [isSecondOfThree_iff] at second
  rw [isTail_iff] at tail
  unfold charOfThree tailBits
  rw [encodeChar_ofNat (by unfold Nat.isValidChar; omega), if_neg (by omega), if_neg (by omega),
    if_pos (by omega), ofNat_eq_of_toNat a (by omega), ofNat_eq_of_toNat b (by omega),
    ofNat_eq_of_toNat c (by omega)]

theorem encode_charOfFour (lead : 0xF0 ≤ a ∧ a ≤ 0xF4) (second : isSecondOfFour a b = true)
    (third : isTail c = true) (tail : isTail d = true) :
    String.utf8EncodeChar (charOfFour a b c d) = [a, b, c, d] := by
  rw [leadsFour_iff] at lead
  rw [isSecondOfFour_iff] at second
  rw [isTail_iff] at third tail
  unfold charOfFour tailBits
  rw [encodeChar_ofNat (by unfold Nat.isValidChar; omega), if_neg (by omega), if_neg (by omega),
    if_neg (by omega), ofNat_eq_of_toNat a (by omega), ofNat_eq_of_toNat b (by omega),
    ofNat_eq_of_toNat c (by omega), ofNat_eq_of_toNat d (by omega)]

theorem encode_cons (char : Char) (text : List Char) :
    encode (char :: text) = String.utf8EncodeChar char ++ encode text := by
  simp [encode]

theorem map_cons_eq_ok {outcome : Except Fault (List Char)} {char : Char} {text : List Char}
    (decoded : outcome.map (char :: ·) = .ok text) :
    ∃ more, outcome = .ok more ∧ text = char :: more := by
  cases outcome with
  | error fault => cases decoded
  | ok more => exact ⟨more, rfl, (Except.ok.inj decoded).symm⟩

/-- A text that is read from octets has those octets. -/
theorem encode_of_decodeFrom {index : Nat} {octets : List UInt8} {text : List Char}
    (decoded : decodeFrom index octets = .ok text) : encode text = octets := by
  fun_induction decodeFrom index octets generalizing text with
  | case1 =>
    cases decoded
    rfl
  | case2 index a rest ascii ih =>
    obtain ⟨more, decodedRest, rfl⟩ := map_cons_eq_ok decoded
    rw [encode_cons, encode_charOfOne ascii, ih decodedRest]
    rfl
  | case4 index a _ lead b rest tail ih =>
    obtain ⟨more, decodedRest, rfl⟩ := map_cons_eq_ok decoded
    rw [encode_cons, encode_charOfTwo lead tail, ih decodedRest]
    rfl
  | case8 index a _ _ lead b second c rest tail ih =>
    obtain ⟨more, decodedRest, rfl⟩ := map_cons_eq_ok decoded
    rw [encode_cons, encode_charOfThree lead second tail, ih decodedRest]
    rfl
  | case14 index a _ _ _ lead b second c third d rest tail ih =>
    obtain ⟨more, decodedRest, rfl⟩ := map_cons_eq_ok decoded
    rw [encode_cons, encode_charOfFour lead second third tail, ih decodedRest]
    rfl
  | case3 | case5 | case6 | case7 | case9 | case10 | case11 | case12 | case13 | case15 | case16
  | case17 | case18 => cases decoded

/-! ### The octets of a character are read as that character -/

section Steps

variable (index : Nat) (rest : List UInt8)

theorem decodeFrom_one (ascii : a < 0x80) :
    decodeFrom index (a :: rest) =
      (decodeFrom (index + 1) rest).map (Char.ofNat a.toNat :: ·) := by
  rw [decodeFrom.eq_def]
  simp only [if_pos ascii]

theorem decodeFrom_two (lead : 0xC2 ≤ a ∧ a ≤ 0xDF) (tail : isTail b = true) :
    decodeFrom index (a :: b :: rest) =
      (decodeFrom (index + 2) rest).map (charOfTwo a b :: ·) := by
  have range := leadsTwo_iff.1 lead
  have notOne : ¬a < 0x80 := by
    rw [ascii_iff]
    omega
  rw [decodeFrom.eq_def]
  simp only [if_neg notOne, if_pos lead, tail, if_true]

theorem decodeFrom_three (lead : 0xE0 ≤ a ∧ a ≤ 0xEF) (second : isSecondOfThree a b = true)
    (tail : isTail c = true) :
    decodeFrom index (a :: b :: c :: rest) =
      (decodeFrom (index + 3) rest).map (charOfThree a b c :: ·) := by
  have range := leadsThree_iff.1 lead
  have notOne : ¬a < 0x80 := by
    rw [ascii_iff]
    omega
  have notTwo : ¬(0xC2 ≤ a ∧ a ≤ 0xDF) := by
    rw [leadsTwo_iff]
    omega
  rw [decodeFrom.eq_def]
  simp only [if_neg notOne, if_neg notTwo, if_pos lead, second, tail, if_true]

theorem decodeFrom_four (lead : 0xF0 ≤ a ∧ a ≤ 0xF4) (second : isSecondOfFour a b = true)
    (third : isTail c = true) (tail : isTail d = true) :
    decodeFrom index (a :: b :: c :: d :: rest) =
      (decodeFrom (index + 4) rest).map (charOfFour a b c d :: ·) := by
  have range := leadsFour_iff.1 lead
  have notOne : ¬a < 0x80 := by
    rw [ascii_iff]
    omega
  have notTwo : ¬(0xC2 ≤ a ∧ a ≤ 0xDF) := by
    rw [leadsTwo_iff]
    omega
  have notThree : ¬(0xE0 ≤ a ∧ a ≤ 0xEF) := by
    rw [leadsThree_iff]
    omega
  rw [decodeFrom.eq_def]
  simp only [if_neg notOne, if_neg notTwo, if_neg notThree, if_pos lead, second, third, tail,
    if_true]

end Steps

theorem toNat_ofNat_of_lt {n : Nat} (fits : n < 0x100) : (UInt8.ofNat n).toNat = n :=
  UInt8.toNat_ofNat_of_lt' fits

/-- The octets of the character of a code point are read as that character. -/
theorem decodeFrom_encodeChar_ofNat (index : Nat) {n : Nat} (valid : n.isValidChar)
    (rest : List UInt8) :
    decodeFrom index (String.utf8EncodeChar (Char.ofNat n) ++ rest) =
      (decodeFrom (index + (String.utf8EncodeChar (Char.ofNat n)).length) rest).map
        (Char.ofNat n :: ·) := by
  rw [encodeChar_ofNat valid]
  unfold Nat.isValidChar at valid
  split
  · have lead : (UInt8.ofNat n).toNat = n := toNat_ofNat_of_lt (by omega)
    generalize UInt8.ofNat n = a at lead ⊢
    rw [← lead]
    exact decodeFrom_one index rest (ascii_iff.2 (by omega))
  split
  · have lead : (UInt8.ofNat (n / 64 % 32 + 0xC0)).toNat = _ := toNat_ofNat_of_lt (by omega)
    have tail : (UInt8.ofNat (n % 64 + 0x80)).toNat = _ := toNat_ofNat_of_lt (by omega)
    generalize UInt8.ofNat (n / 64 % 32 + 0xC0) = a at lead ⊢
    generalize UInt8.ofNat (n % 64 + 0x80) = b at tail ⊢
    have same : charOfTwo a b = Char.ofNat n := by
      unfold charOfTwo tailBits
      exact congrArg Char.ofNat (by omega)
    rw [← same]
    exact decodeFrom_two index rest (leadsTwo_iff.2 (by omega)) (isTail_iff.2 (by omega))
  split
  · have lead : (UInt8.ofNat (n / 4096 % 16 + 0xE0)).toNat = _ := toNat_ofNat_of_lt (by omega)
    have second : (UInt8.ofNat (n / 64 % 64 + 0x80)).toNat = _ := toNat_ofNat_of_lt (by omega)
    have tail : (UInt8.ofNat (n % 64 + 0x80)).toNat = _ := toNat_ofNat_of_lt (by omega)
    generalize UInt8.ofNat (n / 4096 % 16 + 0xE0) = a at lead ⊢
    generalize UInt8.ofNat (n / 64 % 64 + 0x80) = b at second ⊢
    generalize UInt8.ofNat (n % 64 + 0x80) = c at tail ⊢
    have same : charOfThree a b c = Char.ofNat n := by
      unfold charOfThree tailBits
      exact congrArg Char.ofNat (by omega)
    rw [← same]
    exact decodeFrom_three index rest (leadsThree_iff.2 (by omega))
      (isSecondOfThree_iff.2 (by omega)) (isTail_iff.2 (by omega))
  · have lead : (UInt8.ofNat (n / 262144 % 8 + 0xF0)).toNat = _ := toNat_ofNat_of_lt (by omega)
    have second : (UInt8.ofNat (n / 4096 % 64 + 0x80)).toNat = _ := toNat_ofNat_of_lt (by omega)
    have third : (UInt8.ofNat (n / 64 % 64 + 0x80)).toNat = _ := toNat_ofNat_of_lt (by omega)
    have tail : (UInt8.ofNat (n % 64 + 0x80)).toNat = _ := toNat_ofNat_of_lt (by omega)
    generalize UInt8.ofNat (n / 262144 % 8 + 0xF0) = a at lead ⊢
    generalize UInt8.ofNat (n / 4096 % 64 + 0x80) = b at second ⊢
    generalize UInt8.ofNat (n / 64 % 64 + 0x80) = c at third ⊢
    generalize UInt8.ofNat (n % 64 + 0x80) = d at tail ⊢
    have same : charOfFour a b c d = Char.ofNat n := by
      unfold charOfFour tailBits
      exact congrArg Char.ofNat (by omega)
    rw [← same]
    exact decodeFrom_four index rest (leadsFour_iff.2 (by omega)) (isSecondOfFour_iff.2 (by omega))
      (isTail_iff.2 (by omega)) (isTail_iff.2 (by omega))

/-- The octets of a text are read as that text. -/
theorem decodeFrom_encode (index : Nat) (text : List Char) :
    decodeFrom index (encode text) = .ok text := by
  induction text generalizing index with
  | nil => rfl
  | cons char rest ih =>
    have step := decodeFrom_encodeChar_ofNat index char.valid (encode rest)
    have same : Char.ofNat char.val.toNat = char := Char.ofNat_toNat char
    rw [same] at step
    rw [encode_cons, step, ih]
    rfl

/-- Decoding gives a text exactly for the octets of that text. -/
theorem decode_eq_ok_iff {octets : List UInt8} {text : List Char} :
    decode octets = .ok text ↔ encode text = octets := by
  constructor
  · intro decoded
    exact encode_of_decodeFrom decoded
  · intro same
    rw [← same]
    exact decodeFrom_encode 0 text

end RecordDiff.Text.Utf8
