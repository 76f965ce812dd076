import RecordDiff.Proofs.Values

/-!
Hex dumps line by line. All lines but the last are full and the last is not empty, so a dump has
line feeds nowhere but between two lines, and its digits, two for each octet, can be read back. Main
statements:

- `exists_full_rows`: rows are full up to the last, which holds an octet at least;
- `splitOn_hexDump`: the lines of a dump are the digits of its rows;
- `readOctets?_hexDigits`: digits are read back as the octets that they were written for;
- `hexDump_reversible`: what a dump looks like, and that it can be undone.
-/

namespace RecordDiff.Record

/-! ### Rows -/

section Rows

variable {length : Nat} {octets : List UInt8}

/-- Rows are full up to the last one, which is not empty. -/
theorem exists_full_rows (positive : 0 < length) (some? : octets ≠ []) :
    ∃ full last, rows length octets = full ++ [last] ∧ (∀ row ∈ full, row.length = length) ∧
      0 < last.length ∧ last.length ≤ length := by
  fun_induction rows length octets with
  | case1 => exact absurd rfl some?
  | case2 first rest ih =>
    by_cases more : rest.drop (length - 1) = []
    · have short : rest.length ≤ length - 1 := List.drop_eq_nil_iff.1 more
      refine ⟨[], first :: rest.take (length - 1), ?_, List.forall_mem_nil _, ?_, ?_⟩
      · rw [more, rows, List.nil_append]
      · exact Nat.succ_pos _
      · rw [List.length_cons, List.length_take]
        omega
    · obtain ⟨full, last, cut, fullRows, inked, fits⟩ := ih more
      have long : length - 1 < rest.length := by
        rw [List.drop_eq_nil_iff] at more
        omega
      have fullRow : (first :: rest.take (length - 1)).length = length := by
        rw [List.length_cons, List.length_take]
        omega
      refine ⟨(first :: rest.take (length - 1)) :: full, last, ?_, ?_, inked, fits⟩
      · rw [cut, List.cons_append]
      · exact List.forall_mem_cons.2 ⟨fullRow, fullRows⟩

/-- The lines of a dump are the digits of its rows. -/
theorem splitOn_hexDump (some? : octets ≠ []) :
    Text.splitOn '\n' (hexDump octets) = (rows rowLength octets).map hexDigits := by
  have positive : 0 < rowLength := by decide
  obtain ⟨full, last, cut, -⟩ := exists_full_rows positive some?
  refine Text.splitOn_joinWith ?_ ?_
  · simp [cut]
  · intro line member
    obtain ⟨row, -, rfl⟩ := List.mem_map.1 member
    exact newline_not_mem_hexDigits

/-- All lines of a dump but the last have two digits for each octet of a row, and the last has two
at least. -/
theorem exists_full_lines (some? : octets ≠ []) :
    ∃ full last, Text.splitOn '\n' (hexDump octets) = full ++ [last] ∧
      (∀ line ∈ full, line.length = 16) ∧ 2 ≤ last.length ∧ last.length ≤ 16 := by
  have positive : 0 < rowLength := by decide
  obtain ⟨full, last, cut, fullRows, inked, fits⟩ := exists_full_rows positive some?
  refine ⟨full.map hexDigits, hexDigits last, ?_, ?_, ?_, ?_⟩
  · rw [splitOn_hexDump some?, cut, List.map_append, List.map_singleton]
  · intro line member
    obtain ⟨row, inside, rfl⟩ := List.mem_map.1 member
    rw [length_hexDigits, fullRows row inside, rowLength]
  · rw [length_hexDigits]
    omega
  · rw [rowLength] at fits
    rw [length_hexDigits]
    omega

/-- A dump has line feeds only between its lines. -/
theorem feeds_of_hexDump (octets : List UInt8) :
    (hexDump octets).head? ≠ some '\n' ∧ (hexDump octets).getLast? ≠ some '\n' ∧
      ¬['\n', '\n'] <:+: hexDump octets := by
  by_cases none : octets = []
  · rw [none, hexDump, rows]
    decide
  · obtain ⟨full, last, cut, fullLines, inked, -⟩ := exists_full_lines none
    refine Text.separators_apart ?_
    rw [cut, List.mem_append, List.mem_singleton]
    rintro (empty | rfl)
    · exact absurd (fullLines [] empty) (by decide)
    · exact absurd inked (by decide)

end Rows

/-! ### Reading digits back -/

/-- The octets that digits stand for, two digits for each of them. -/
def readOctets? : List Char → Option (List UInt8)
  | [] => some []
  | [_] => none
  | high :: low :: rest =>
    match Text.digit? 16 high, Text.digit? 16 low with
    | some high, some low => (readOctets? rest).map ((high * 16 + low).toUInt8 :: ·)
    | _, _ => none

/-- The lowercase digits of an octet are those that numbers are written with. -/
theorem octetDigits_eq (octet : UInt8) :
    octetDigits octet = [Nat.digitChar (octet.toNat / 16), Nat.digitChar (octet.toNat % 16)] := by
  have same : ∀ n < 16, Text.hexDigit n = Nat.digitChar n := by decide
  have fits : octet.toNat < 256 := octet.toNat_lt
  rw [octetDigits, same _ (by omega), same _ (by omega)]

/-- Digits are read back as the octets that they were written for. -/
theorem readOctets?_hexDigits (octets : List UInt8) :
    readOctets? (hexDigits octets) = some octets := by
  induction octets with
  | nil => rfl
  | cons octet rest ih =>
    have fits : octet.toNat < 256 := octet.toNat_lt
    have high : Text.digit? 16 (Nat.digitChar (octet.toNat / 16)) = some (octet.toNat / 16) :=
      Text.digit?_digitChar (by omega) (by decide)
    have low : Text.digit? 16 (Nat.digitChar (octet.toNat % 16)) = some (octet.toNat % 16) :=
      Text.digit?_digitChar (by omega) (by decide)
    have whole : octet.toNat / 16 * 16 + octet.toNat % 16 = octet.toNat := Nat.div_add_mod' _ 16
    have digits : hexDigits (octet :: rest) = Nat.digitChar (octet.toNat / 16) ::
        Nat.digitChar (octet.toNat % 16) :: hexDigits rest := by
      rw [hexDigits, List.flatMap_cons, octetDigits_eq]
      rfl
    rw [digits, readOctets?, high, low, ih]
    simp [whole]

/-- A dump is the lowercase digits of its octets, two for each and in order, with line feeds among
them that make lines of 16 digits, the last of which may be shorter; no line is empty. So the digits
of a dump can be read back as its octets, and no two sequences of octets have the same dump. -/
theorem hexDump_reversible (octets : List UInt8) :
    ((hexDump octets).filter (· != '\n') = octets.flatMap fun octet =>
        [Nat.digitChar (octet.toNat / 16), Nat.digitChar (octet.toNat % 16)]) ∧
      (octets ≠ [] → ∃ full last, Text.splitOn '\n' (hexDump octets) = full ++ [last] ∧
        (∀ line ∈ full, line.length = 16) ∧ 2 ≤ last.length ∧ last.length ≤ 16) ∧
      ((hexDump octets).head? ≠ some '\n' ∧ (hexDump octets).getLast? ≠ some '\n' ∧
        ¬['\n', '\n'] <:+: hexDump octets) ∧
      readOctets? ((hexDump octets).filter (· != '\n')) = some octets ∧
      ∀ others : List UInt8, hexDump others = hexDump octets → others = octets := by
  refine ⟨?_, exists_full_lines, feeds_of_hexDump octets, ?_, fun others => hexDump_injective⟩
  · rw [hexDump_filter, hexDigits]
    exact List.flatMap_congr fun octet _ => octetDigits_eq octet
  · rw [hexDump_filter, readOctets?_hexDigits]

/-- Nine octets fill one line and start another. -/
theorem hexDump_reversible_of_nine :
    hexDump [0, 1, 2, 3, 4, 5, 6, 254, 255] = "00010203040506fe\nff".toList ∧
      readOctets? "00010203040506feff".toList = some [0, 1, 2, 3, 4, 5, 6, 254, 255] ∧
      ∃ full last, Text.splitOn '\n' "00010203040506fe\nff".toList = full ++ [last] ∧
        (∀ line ∈ full, line.length = 16) ∧ 2 ≤ last.length ∧ last.length ≤ 16 := by
  have dump : hexDump [0, 1, 2, 3, 4, 5, 6, 254, 255] = "00010203040506fe\nff".toList := by
    simp [hexDump, rows, rowLength]
    decide
  have digits : "00010203040506fe\nff".toList.filter (· != '\n') = "00010203040506feff".toList := by
    decide
  obtain ⟨-, lines, -, undone, -⟩ := hexDump_reversible [0, 1, 2, 3, 4, 5, 6, 254, 255]
  rw [dump] at lines undone
  rw [digits] at undone
  exact ⟨dump, undone, lines (by decide)⟩

end RecordDiff.Record
