import RecordDiff.Text.Lines
import RecordDiff.Text.Numeral

/-!
Hex dumps: every octet as two lowercase digits, eight octets to a line, line feeds between the
lines only. Main statements:

- `hexDigits_append`, `length_hexDigits`: the digits of octets in order, two for each;
- `rows_flatten`: the rows of a dump hold every octet once and in order.
-/

namespace RecordDiff.Record

/-- The octets on one line of a hex dump. -/
def rowLength : Nat := 8

/-- The two digits of an octet. -/
def octetDigits (octet : UInt8) : List Char :=
  [Text.hexDigit (octet.toNat / 16), Text.hexDigit (octet.toNat % 16)]

/-- The digits of octets. -/
def hexDigits (octets : List UInt8) : List Char :=
  octets.flatMap octetDigits

/-- Octets cut into rows of a given length. The last row may be shorter, and none is empty. -/
def rows (length : Nat) (octets : List UInt8) : List (List UInt8) :=
  match octets with
  | [] => []
  | first :: rest => (first :: rest.take (length - 1)) :: rows length (rest.drop (length - 1))
termination_by octets.length
decreasing_by
  simp only [List.length_drop, List.length_cons]
  omega

/-- The hex dump of octets. -/
def hexDump (octets : List UInt8) : List Char :=
  Text.joinWith ['\n'] ((rows rowLength octets).map hexDigits)

theorem hexDigits_append (front back : List UInt8) :
    hexDigits (front ++ back) = hexDigits front ++ hexDigits back := by
  simp [hexDigits]

theorem length_hexDigits (octets : List UInt8) : (hexDigits octets).length = 2 * octets.length := by
  induction octets with
  | nil => rfl
  | cons octet rest ih =>
    simp only [hexDigits, List.flatMap_cons, List.length_append, List.length_cons] at ih ⊢
    rw [ih]
    simp [octetDigits]
    omega

theorem rows_flatten (length : Nat) (octets : List UInt8) :
    (rows length octets).flatten = octets := by
  fun_induction rows length octets with
  | case1 => rfl
  | case2 first rest ih => simp [ih]

end RecordDiff.Record
