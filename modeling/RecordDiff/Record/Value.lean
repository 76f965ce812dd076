import RecordDiff.Record.HexDump
import RecordDiff.Schema.Field

/-!
Values of fields in a record. A field is read from its window, the octets of its width from an
offset on: an octet and a 16-bit word as decimal numbers, several octets as a hex dump, text
between apostrophes. Main statements:

- `window_eq_some_iff`: a window is there exactly when it ends within the record;
- `length_of_window`: a window has the width it was asked for.
-/

namespace RecordDiff.Record

open RecordDiff.Schema (Field Kind)

/-- The octets of a given width from an offset on, if the record reaches that far. -/
def window (record : List UInt8) (offset width : Nat) : Option (List UInt8) :=
  if offset + width ≤ record.length then some ((record.drop offset).take width) else none

/-- The number that two octets make up, the low one first. -/
def wordValue (low high : UInt8) : Nat :=
  low.toNat + 256 * high.toNat

/-- The value that the window of a field holds, as it is shown. A struct has none. -/
def showWindow (field : Field) (offset : Nat) (octets : List UInt8) : Except Fault String :=
  match field.kind, octets with
  | .byte, [octet] => .ok (String.ofList (Text.decimal octet.toNat))
  | .word, [low, high] => .ok (String.ofList (Text.decimal (wordValue low high)))
  | .text, octets =>
    match Text.Utf8.decode octets with
    | .ok text => .ok (String.ofList ('\'' :: text ++ ['\'']))
    | .error cause => .error (.badText field.name offset cause)
  | .nested struct, _ => .error (.noValue field.name struct)
  | _, octets => .ok (String.ofList (hexDump octets))

/-- The value of a field at an offset of a record. -/
def decodeField (record : List UInt8) (offset : Nat) (field : Field) : Except Fault String :=
  match window record offset field.scalarWidth with
  | none => .error (.truncated record.length field.name field.scalarWidth offset)
  | some octets => showWindow field offset octets

theorem window_eq_some_iff {record octets : List UInt8} {offset width : Nat} :
    window record offset width = some octets ↔
      offset + width ≤ record.length ∧ octets = (record.drop offset).take width := by
  simp only [window]
  split
  · rename_i inside
    simp [inside, eq_comm]
  · rename_i outside
    simp [outside]

theorem length_of_window {record octets : List UInt8} {offset width : Nat}
    (found : window record offset width = some octets) : octets.length = width := by
  obtain ⟨inside, rfl⟩ := window_eq_some_iff.1 found
  simp only [List.length_take, List.length_drop]
  omega

end RecordDiff.Record
