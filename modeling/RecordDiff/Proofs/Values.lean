import Mathlib.Data.List.Basic
import RecordDiff.Proofs.Numerals
import RecordDiff.Proofs.Utf8
import RecordDiff.Record.Value

/-!
Values tell octets apart. Whatever the kind of a field, two windows that are shown alike hold the
same octets: each of the four ways in which a value is shown can be undone. Main statements:

- `hexDump_filter`: without its line feeds, a hex dump is the digits of all octets;
- `hexDump_injective`: so no two sequences of octets share a dump;
- `showWindow_injective`: nor do two windows of the width of a field share a value;
- `decodeField_eq_iff`: two records show a field alike exactly if they hold the same octets there.
-/

namespace RecordDiff.Record

open RecordDiff.Schema (Field Kind)

/-! ### Hex dumps -/

section HexDumps

variable {octet other : UInt8} {octets others : List UInt8}

theorem hexDigit_injective {n m : Nat} (small : n < 16) (smallToo : m < 16)
    (same : Text.hexDigit n = Text.hexDigit m) : n = m := by
  have apart : ∀ n < 16, ∀ m < 16, Text.hexDigit n = Text.hexDigit m → n = m := by decide
  exact apart n small m smallToo same

theorem hexDigit_ne_newline {n : Nat} (small : n < 16) : Text.hexDigit n ≠ '\n' := by
  have all : ∀ n < 16, Text.hexDigit n ≠ '\n' := by decide
  exact all n small

theorem octetDigits_injective (same : octetDigits octet = octetDigits other) : octet = other := by
  have fits : octet.toNat < 256 := octet.toNat_lt
  have fitsToo : other.toNat < 256 := other.toNat_lt
  simp only [octetDigits, List.cons.injEq, and_true] at same
  obtain ⟨high, low⟩ := same
  have sameHigh : octet.toNat / 16 = other.toNat / 16 :=
    hexDigit_injective (by omega) (by omega) high
  have sameLow : octet.toNat % 16 = other.toNat % 16 :=
    hexDigit_injective (by omega) (by omega) low
  apply UInt8.toNat_inj.1
  omega

/-- Digits tell octets apart. -/
theorem hexDigits_injective (same : hexDigits octets = hexDigits others) : octets = others := by
  induction octets generalizing others with
  | nil =>
    cases others with
    | nil => rfl
    | cons other more => simp [hexDigits, octetDigits] at same
  | cons octet rest ih =>
    cases others with
    | nil => simp [hexDigits, octetDigits] at same
    | cons other more =>
      have front : octetDigits octet ++ hexDigits rest = octetDigits other ++ hexDigits more := same
      obtain ⟨sameOctet, sameRest⟩ := List.append_inj front rfl
      rw [octetDigits_injective sameOctet, ih sameRest]

theorem hexDigits_flatten (parts : List (List UInt8)) :
    hexDigits parts.flatten = (parts.map hexDigits).flatten := by
  induction parts with
  | nil => rfl
  | cons part rest ih =>
    rw [List.map_cons, List.flatten_cons, List.flatten_cons, hexDigits_append, ih]

theorem newline_not_mem_hexDigits : '\n' ∉ hexDigits octets := by
  intro member
  obtain ⟨octet, -, found⟩ := List.mem_flatMap.1 member
  have fits : octet.toNat < 256 := octet.toNat_lt
  simp only [octetDigits, List.mem_cons, List.not_mem_nil, or_false] at found
  rcases found with high | low
  · exact hexDigit_ne_newline (by omega) high.symm
  · exact hexDigit_ne_newline (by omega) low.symm

/-- Without its line feeds, a hex dump is the digits of all octets. -/
theorem hexDump_filter (octets : List UInt8) :
    (hexDump octets).filter (· != '\n') = hexDigits octets := by
  have apart : ∀ part ∈ (rows rowLength octets).map hexDigits, '\n' ∉ part := by
    intro part member
    obtain ⟨row, -, rfl⟩ := List.mem_map.1 member
    exact newline_not_mem_hexDigits
  rw [hexDump, Text.joinWith_filter apart, ← hexDigits_flatten, rows_flatten]

/-- No two sequences of octets share a hex dump. -/
theorem hexDump_injective (same : hexDump octets = hexDump others) : octets = others := by
  apply hexDigits_injective
  rw [← hexDump_filter, ← hexDump_filter, same]

end HexDumps

/-! ### Windows -/

section Windows

variable {field : Field} {offset : Nat} {octets others left right : List UInt8}
  {shown shownLeft shownRight : String}

theorem wordValue_injective {low high low' high' : UInt8}
    (same : wordValue low high = wordValue low' high') : low = low' ∧ high = high' := by
  have fits : low.toNat < 256 := low.toNat_lt
  have fitsToo : low'.toNat < 256 := low'.toNat_lt
  unfold wordValue at same
  constructor
  · apply UInt8.toNat_inj.1
    omega
  · apply UInt8.toNat_inj.1
    omega

theorem showWindow_of_byte (kind : field.kind = .byte) (octet : UInt8) :
    showWindow field offset [octet] = .ok (String.ofList (Text.decimal octet.toNat)) := by
  simp only [showWindow, kind]

theorem showWindow_of_word (kind : field.kind = .word) (low high : UInt8) :
    showWindow field offset [low, high] =
      .ok (String.ofList (Text.decimal (wordValue low high))) := by
  simp only [showWindow, kind]

theorem showWindow_of_bytes (kind : field.kind = .byte) (several : octets.length ≠ 1) :
    showWindow field offset octets = .ok (String.ofList (hexDump octets)) := by
  unfold showWindow
  split
  · exact absurd rfl several
  · rename_i isWord
    cases kind.symm.trans isWord
  · rename_i isText
    cases kind.symm.trans isText
  · rename_i isNested
    cases kind.symm.trans isNested
  · rfl

theorem showWindow_of_nested {name : String} (kind : field.kind = .nested name) :
    showWindow field offset octets = .error (.noValue field.name name) := by
  simp only [showWindow, kind]

theorem encode_of_showWindow (kind : field.kind = .text)
    (shows : showWindow field offset octets = .ok shown) :
    ∃ text, shown = String.ofList ('\'' :: text ++ ['\'']) ∧ Text.Utf8.encode text = octets := by
  simp only [showWindow, kind] at shows
  cases decoded : Text.Utf8.decode octets with
  | error cause => rw [decoded] at shows; cases shows
  | ok text =>
    rw [decoded] at shows
    exact ⟨text, (Except.ok.inj shows).symm, Text.Utf8.decode_eq_ok_iff.1 decoded⟩

/-- No two windows of the width of a field share a value. -/
theorem showWindow_injective (width : octets.length = field.scalarWidth)
    (widthToo : others.length = field.scalarWidth)
    (shows : showWindow field offset octets = .ok shown)
    (showsToo : showWindow field offset others = .ok shown) : octets = others := by
  have sameLength : others.length = octets.length := widthToo.trans width.symm
  cases kind : field.kind with
  | byte =>
    by_cases single : octets.length = 1
    · obtain ⟨octet, rfl⟩ := List.length_eq_one_iff.1 single
      obtain ⟨other, rfl⟩ := List.length_eq_one_iff.1 (sameLength.trans single)
      rw [showWindow_of_byte kind] at shows showsToo
      have digits : Text.decimal octet.toNat = Text.decimal other.toNat :=
        String.ofList_injective (Except.ok.inj (shows.trans showsToo.symm))
      rw [UInt8.toNat_inj.1 (Text.decimal_injective digits)]
    · rw [showWindow_of_bytes kind single] at shows
      rw [showWindow_of_bytes kind (sameLength ▸ single)] at showsToo
      have dumps : hexDump octets = hexDump others :=
        String.ofList_injective (Except.ok.inj (shows.trans showsToo.symm))
      exact hexDump_injective dumps
  | word =>
    have two : octets.length = 2 := by rw [width, Field.scalarWidth, kind]
    obtain ⟨low, high, rfl⟩ := List.length_eq_two.1 two
    obtain ⟨low', high', rfl⟩ := List.length_eq_two.1 (sameLength.trans two)
    rw [showWindow_of_word kind] at shows showsToo
    have digits : Text.decimal (wordValue low high) = Text.decimal (wordValue low' high') :=
      String.ofList_injective (Except.ok.inj (shows.trans showsToo.symm))
    obtain ⟨rfl, rfl⟩ := wordValue_injective (Text.decimal_injective digits)
    rfl
  | text =>
    obtain ⟨text, rfl, rfl⟩ := encode_of_showWindow kind shows
    obtain ⟨other, same, rfl⟩ := encode_of_showWindow kind showsToo
    have quoted : '\'' :: text ++ ['\''] = '\'' :: other ++ ['\''] := String.ofList_injective same
    rw [List.append_cancel_right (List.cons.inj quoted).2]
  | nested name =>
    rw [showWindow_of_nested kind] at shows
    cases shows

/-- What a field is decoded from is the window at its place. -/
theorem showWindow_of_decodeField {record : List UInt8}
    (decodes : decodeField record offset field = .ok shown) :
    ((record.drop offset).take field.scalarWidth).length = field.scalarWidth ∧
      showWindow field offset ((record.drop offset).take field.scalarWidth) = .ok shown := by
  unfold decodeField at decodes
  cases found : window record offset field.scalarWidth with
  | none => rw [found] at decodes; cases decodes
  | some octets =>
    rw [found] at decodes
    obtain ⟨-, rfl⟩ := window_eq_some_iff.1 found
    exact ⟨length_of_window found, decodes⟩

/-- Two records show a field alike exactly if they hold the same octets at its place. -/
theorem decodeField_eq_iff (decodesLeft : decodeField left offset field = .ok shownLeft)
    (decodesRight : decodeField right offset field = .ok shownRight) :
    shownLeft = shownRight ↔
      (left.drop offset).take field.scalarWidth = (right.drop offset).take field.scalarWidth := by
  obtain ⟨widthLeft, showsLeft⟩ := showWindow_of_decodeField decodesLeft
  obtain ⟨widthRight, showsRight⟩ := showWindow_of_decodeField decodesRight
  constructor
  · rintro rfl
    exact showWindow_injective widthLeft widthRight showsLeft showsRight
  · intro same
    rw [same, showsRight] at showsLeft
    exact (Except.ok.inj showsLeft).symm

end Windows

end RecordDiff.Record
