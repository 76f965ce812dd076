/-!
Blank characters and trimming. A character is blank when it has the White_Space property of
Unicode, which is more than the ASCII blanks: the next-line mark, the no-break spaces and the wide
space count too. Main statements:

- `trimStart_append_of_blank`, `trimEnd_append_of_blank`: blanks put in front of a text or behind it
  are trimmed away again;
- `trimStart_of_ink`, `trimEnd_of_ink`: a text stays as it is where it does not end in a blank;
- `exists_append_trimStart`, `exists_trimEnd_append`: what trimming cuts off is blank;
- `isBlank_of_head?_trimStart`, `isBlank_of_getLast?_trimEnd`: what it leaves has no blank there.
-/

namespace RecordDiff.Text

/-- The code points with the White_Space property, as closed ranges. -/
def blankRanges : List (Nat × Nat) :=
  [(0x9, 0xD), (0x20, 0x20), (0x85, 0x85), (0xA0, 0xA0), (0x1680, 0x1680), (0x2000, 0x200A),
    (0x2028, 0x2029), (0x202F, 0x202F), (0x205F, 0x205F), (0x3000, 0x3000)]

/-- A blank character. -/
def isBlank (c : Char) : Bool :=
  blankRanges.any fun range => range.1 ≤ c.toNat && c.toNat ≤ range.2

/-- The text from its first character that is not blank. -/
def trimStart (text : List Char) : List Char :=
  text.dropWhile isBlank

/-- The text up to its last character that is not blank. -/
def trimEnd (text : List Char) : List Char :=
  (text.reverse.dropWhile isBlank).reverse

/-- The text without the blanks at its two ends. -/
def trim (text : List Char) : List Char :=
  trimEnd (trimStart text)

/-- A text of nothing but blanks, the empty one included. -/
def isAllBlank (text : List Char) : Bool :=
  text.all isBlank

theorem isAllBlank_eq_false {text : List Char} (inked : ∃ c ∈ text, isBlank c = false) :
    isAllBlank text = false := by
  obtain ⟨c, member, ink⟩ := inked
  apply List.all_eq_false.2
  exact ⟨c, member, by rw [ink]; exact Bool.false_ne_true⟩

/-- Leading blanks do not matter to `trimStart`. -/
theorem trimStart_append_of_blank {blanks : List Char} (allBlank : isAllBlank blanks = true)
    (text : List Char) : trimStart (blanks ++ text) = trimStart text := by
  induction blanks with
  | nil => rfl
  | cons c rest ih =>
    simp only [isAllBlank, List.all_cons, Bool.and_eq_true] at allBlank
    simpa [trimStart, List.dropWhile_cons, allBlank.1] using ih allBlank.2

/-- Trailing blanks do not matter to `trimEnd`. -/
theorem trimEnd_append_of_blank {blanks : List Char} (allBlank : isAllBlank blanks = true)
    (text : List Char) : trimEnd (text ++ blanks) = trimEnd text := by
  have turned : isAllBlank blanks.reverse = true := by rwa [isAllBlank, List.all_reverse]
  have trimmed := trimStart_append_of_blank turned text.reverse
  rw [trimStart, trimStart] at trimmed
  rw [trimEnd, trimEnd, List.reverse_append, trimmed]

theorem trim_append_of_blank {c : Char} (blank : isBlank c = true) (text : List Char) :
    trim (text ++ [c]) = trim text := by
  have allBlank : isAllBlank [c] = true := by simp [isAllBlank, blank]
  rw [trim, trimStart, List.dropWhile_append]
  split
  · rename_i nothing
    rw [List.isEmpty_iff] at nothing
    simp [blank, trim, trimStart, nothing]
  · exact trimEnd_append_of_blank allBlank _

/-- A text that starts with no blank has nothing to trim in front. -/
theorem trimStart_of_ink {text : List Char} (ink : ∀ c ∈ text.head?, isBlank c = false) :
    trimStart text = text := by
  cases text with
  | nil => rfl
  | cons c rest =>
    have inked : isBlank c = false := ink c rfl
    simp [trimStart, inked]

/-- A text that ends with no blank has nothing to trim behind. -/
theorem trimEnd_of_ink {text : List Char} (ink : ∀ c ∈ text.getLast?, isBlank c = false) :
    trimEnd text = text := by
  have turned : trimStart text.reverse = text.reverse := by
    apply trimStart_of_ink
    rwa [List.head?_reverse]
  rw [trimStart] at turned
  rw [trimEnd, turned, List.reverse_reverse]

/-! ### What is cut off, and what is left -/

section Trimmed

variable {text front back : List Char} {c : Char}

/-- What is cut off at the front of a text is blank. -/
theorem exists_append_trimStart (text : List Char) :
    ∃ blanks, isAllBlank blanks = true ∧ blanks ++ trimStart text = text :=
  ⟨text.takeWhile isBlank, List.all_takeWhile, List.takeWhile_append_dropWhile⟩

/-- What is cut off at the end of a text is blank. -/
theorem exists_trimEnd_append (text : List Char) :
    ∃ blanks, isAllBlank blanks = true ∧ trimEnd text ++ blanks = text := by
  refine ⟨(text.reverse.takeWhile isBlank).reverse, ?_, ?_⟩
  · rw [isAllBlank, List.all_reverse]
    exact List.all_takeWhile
  · rw [trimEnd, ← List.reverse_append, List.takeWhile_append_dropWhile, List.reverse_reverse]

theorem trimStart_suffix (text : List Char) : trimStart text <:+ text := by
  obtain ⟨blanks, -, whole⟩ := exists_append_trimStart text
  exact ⟨blanks, whole⟩

theorem trimEnd_isPrefix (text : List Char) : trimEnd text <+: text := by
  obtain ⟨blanks, -, whole⟩ := exists_trimEnd_append text
  exact ⟨blanks, whole⟩

theorem trim_isInfix (text : List Char) : trim text <:+: text :=
  (trimEnd_isPrefix (trimStart text)).isInfix.trans (trimStart_suffix text).isInfix

theorem isBlank_of_head?_trimStart (first : c ∈ (trimStart text).head?) : isBlank c = false := by
  have ink := List.head?_dropWhile_not isBlank text
  rw [trimStart] at first
  rw [Option.mem_def.1 first] at ink
  exact ink

theorem isBlank_of_getLast?_trimEnd (last : c ∈ (trimEnd text).getLast?) : isBlank c = false := by
  rw [trimEnd, List.getLast?_reverse] at last
  have first : c ∈ (trimStart text.reverse).head? := last
  exact isBlank_of_head?_trimStart first

theorem isBlank_of_head?_trim (first : c ∈ (trim text).head?) : isBlank c = false := by
  obtain ⟨back, whole⟩ := trimEnd_isPrefix (trimStart text)
  have kept : (trimEnd (trimStart text)).head? = some c := first
  have before : c ∈ (trimStart text).head? := by
    rw [← whole, List.head?_append, kept]
    rfl
  exact isBlank_of_head?_trimStart before

theorem trimEnd_cons_of_ink (ink : isBlank c = false) (rest : List Char) :
    trimEnd (c :: rest) = c :: trimEnd rest := by
  rw [trimEnd, trimEnd, List.reverse_cons, List.dropWhile_append]
  cases left : rest.reverse.dropWhile isBlank with
  | nil => simp [ink]
  | cons d more => simp

/-- What stands between blanks, and has none itself, is left when they are trimmed away. -/
theorem trim_between (blankFront : isAllBlank front = true) (blankBack : isAllBlank back = true)
    (some : text ≠ []) (ink : ∀ c ∈ text, isBlank c = false) :
    trim (front ++ text ++ back) = text := by
  have start : trimStart (front ++ text ++ back) = text ++ back := by
    rw [List.append_assoc, trimStart_append_of_blank blankFront]
    apply trimStart_of_ink
    intro c first
    obtain ⟨d, rest, rfl⟩ := List.exists_cons_of_ne_nil some
    exact ink c (List.mem_of_head? first)
  rw [trim, start, trimEnd_append_of_blank blankBack]
  apply trimEnd_of_ink
  intro c last
  exact ink c (List.mem_of_getLast? last)

end Trimmed

end RecordDiff.Text
