import RecordDiff.Proofs.Numerals
import RecordDiff.Schema.Declaration

/-!
How declarations are spelled. A name has one shape for types and one for fields, and neither leaves
room for a blank or for a mark of the schema language, so where a declaration is put together from
such names, the forms of a declaration find the very parts that it was put together from. Main
statements:

- `isWord_of_isBlank`: no blank is a word character;
- `nameBy?_append`: a name is found up to the first character that cannot belong to it;
- `typeToken?_of_structName?`: only a line whose type token is the keyword opens a struct;
- `Draft.ofText?_template`, `Draft.ofText?_array`, `Draft.ofText?_scalar`: a type, a name and a count
  are found again in each of the three forms, whatever blanks stand between them.
-/

namespace RecordDiff.Text

/-! ### Names -/

/-- The shape of a name: what may start a name, and behind it nothing but inner characters. -/
def isName (inner : Char → Bool) : List Char → Bool
  | [] => false
  | c :: rest => isNameStart c && rest.all inner

/-- The name of a type or a struct, with the separators in it. -/
def isTypeName : List Char → Bool :=
  isName isTypeChar

/-- The name of a field. -/
def isPlainName : List Char → Bool :=
  isName isWord

section Names

variable {inner : Char → Bool} {name : List Char} {c : Char}

theorem isWord_false_of_blankRanges : ∀ range ∈ blankRanges,
    ∀ point ∈ List.range' range.1 (range.2 + 1 - range.1), isWord (Char.ofNat point) = false := by
  decide +kernel

/-- No blank is a word character. -/
theorem isWord_of_isBlank (blank : isBlank c = true) : isWord c = false := by
  simp only [isBlank, List.any_eq_true, Bool.and_eq_true, decide_eq_true_eq] at blank
  obtain ⟨range, member, least, greatest⟩ := blank
  have within : c.toNat ∈ List.range' range.1 (range.2 + 1 - range.1) := by
    rw [List.mem_range'_1]
    omega
  have apart := isWord_false_of_blankRanges range member c.toNat within
  rwa [Char.ofNat_toNat] at apart

theorem isBlank_of_isWord (word : isWord c = true) : isBlank c = false := by
  cases blank : isBlank c with
  | false => rfl
  | true =>
    rw [isWord_of_isBlank blank] at word
    cases word

theorem isBlank_of_isTypeChar (inside : isTypeChar c = true) : isBlank c = false := by
  simp only [isTypeChar, Bool.or_eq_true, beq_iff_eq] at inside
  rcases inside with word | rfl
  · exact isBlank_of_isWord word
  · decide

theorem isTypeChar_of_isBlank (blank : isBlank c = true) : isTypeChar c = false := by
  cases inside : isTypeChar c with
  | false => rfl
  | true =>
    rw [isBlank_of_isTypeChar inside] at blank
    cases blank

theorem isBlank_of_isNameStart (start : isNameStart c = true) : isBlank c = false :=
  isBlank_of_isWord (isWord_of_asciiNameStart start)

theorem exists_of_isName (shaped : isName inner name = true) :
    ∃ c rest, name = c :: rest ∧ isNameStart c = true ∧ ∀ d ∈ rest, inner d = true := by
  cases name with
  | nil => cases shaped
  | cons c rest =>
    rw [isName, Bool.and_eq_true, List.all_eq_true] at shaped
    exact ⟨c, rest, rfl, shaped.1, shaped.2⟩

/-- Where what starts a name is an inner character too, a name is made of inner characters. -/
theorem inner_of_mem (starts : ∀ c, isNameStart c = true → inner c = true)
    (shaped : isName inner name = true) (member : c ∈ name) : inner c = true := by
  obtain ⟨first, rest, rfl, start, inside⟩ := exists_of_isName shaped
  rcases List.mem_cons.1 member with rfl | later
  · exact starts c start
  · exact inside c later

theorem isWord_of_mem (shaped : isPlainName name = true) (member : c ∈ name) : isWord c = true :=
  inner_of_mem (fun _ start => isWord_of_asciiNameStart start) shaped member

theorem isTypeChar_of_mem (shaped : isTypeName name = true) (member : c ∈ name) :
    isTypeChar c = true :=
  inner_of_mem (fun _ start => isTypeChar_of_isWord (isWord_of_asciiNameStart start)) shaped member

/-- Nothing is trimmed away in front of a name. -/
theorem trimStart_name_append (shaped : isName inner name = true) (rest : List Char) :
    trimStart (name ++ rest) = name ++ rest := by
  obtain ⟨c, more, rfl, start, -⟩ := exists_of_isName shaped
  apply trimStart_of_ink
  intro d first
  obtain rfl : c = d := Option.some.inj first
  exact isBlank_of_isNameStart start

theorem trimStart_name (shaped : isName inner name = true) : trimStart name = name := by
  have alone := trimStart_name_append shaped []
  rwa [List.append_nil] at alone

theorem trim_typeName (shaped : isTypeName name = true) : trim name = name := by
  rw [trim, trimStart_name shaped]
  apply trimEnd_of_ink
  intro c last
  exact isBlank_of_isTypeChar (isTypeChar_of_mem shaped (List.mem_of_getLast? last))

end Names

/-! ### Digits -/

section Digits

variable {c : Char} {value : Nat}

theorem isWord_of_isDigit (digit : c.isDigit = true) : isWord c = true := by
  have ascii : isAsciiDigit c = true := by
    simpa [isAsciiDigit, Char.isDigit, Char.le_def] using digit
  simp [isWord, ascii]

theorem isWord_of_mem_decimal (member : c ∈ decimal value) : isWord c = true :=
  isWord_of_isDigit (Nat.isDigit_of_mem_toDigits (by decide) (by decide) member)

theorem trim_decimal (value : Nat) : trim (decimal value) = decimal value := by
  have front : trimStart (decimal value) = decimal value := by
    apply trimStart_of_ink
    intro c first
    exact isBlank_of_isWord (isWord_of_mem_decimal (List.mem_of_head? first))
  rw [trim, front]
  apply trimEnd_of_ink
  intro c last
  exact isBlank_of_isWord (isWord_of_mem_decimal (List.mem_of_getLast? last))

end Digits

end RecordDiff.Text

namespace RecordDiff.Schema

open Text (isBlank isAllBlank isName isTypeName isPlainName trim trimStart)

/-! ### Parts of a declaration -/

section Parts

variable {inner : Char → Bool} {name gap text rest : List Char} {mark : Char}

/-- A name is found up to the first character that cannot belong to it. -/
theorem nameBy?_append (shaped : isName inner name = true)
    (stop : ∀ c ∈ rest.head?, inner c = false) :
    nameBy? inner (name ++ rest) = some (name, rest) := by
  obtain ⟨c, more, rfl, start, inside⟩ := Text.exists_of_isName shaped
  have nothingTaken : rest.takeWhile inner = [] := by
    cases rest with
    | nil => rfl
    | cons d rest => exact List.takeWhile_cons_of_neg (by rw [stop d rfl]; exact Bool.false_ne_true)
  have nothingDropped : rest.dropWhile inner = rest := by
    cases rest with
    | nil => rfl
    | cons d rest => exact List.dropWhile_cons_of_neg (by rw [stop d rfl]; exact Bool.false_ne_true)
  rw [List.cons_append, nameBy?, if_pos start, List.takeWhile_append_of_pos inside,
    List.dropWhile_append_of_pos inside, nothingTaken, nothingDropped, List.append_nil]

/-- A name is found in front of a mark that cannot belong to it, whatever blanks stand between them. -/
theorem nameBy?_append_mark (shaped : isName inner name = true)
    (noBlank : ∀ c, isBlank c = true → inner c = false) (blank : isAllBlank gap = true)
    (outside : inner mark = false) (rest : List Char) :
    nameBy? inner (name ++ (gap ++ mark :: rest)) = some (name, gap ++ mark :: rest) := by
  apply nameBy?_append shaped
  intro c first
  cases gap with
  | nil =>
    obtain rfl : mark = c := Option.some.inj first
    exact outside
  | cons d gap =>
    obtain rfl : d = c := Option.some.inj first
    rw [isAllBlank, List.all_cons, Bool.and_eq_true] at blank
    exact noBlank d blank.1

/-- A type token ends where a blank stands. -/
theorem typeToken?_append (shaped : isTypeName name = true) (blank : isAllBlank gap = true)
    (parted : gap ≠ []) (rest : List Char) :
    typeToken? (name ++ (gap ++ rest)) = some (name, gap ++ rest) := by
  apply nameBy?_append shaped
  cases gap with
  | nil => exact absurd rfl parted
  | cons c gap =>
    intro d first
    obtain rfl : c = d := Option.some.inj first
    rw [isAllBlank, List.all_cons, Bool.and_eq_true] at blank
    exact Text.isTypeChar_of_isBlank blank.1

theorem afterBlanks?_append (blank : isAllBlank gap = true) (parted : gap ≠ []) (rest : List Char) :
    afterBlanks? (gap ++ rest) = some (trimStart rest) := by
  cases gap with
  | nil => exact absurd rfl parted
  | cons c gap =>
    rw [isAllBlank, List.all_cons, Bool.and_eq_true] at blank
    rw [List.cons_append, afterBlanks?, if_pos blank.1, Text.trimStart_append_of_blank blank.2]

theorem afterMark?_append (blank : isAllBlank gap = true) (ink : isBlank mark = false)
    (rest : List Char) : afterMark? mark (gap ++ mark :: rest) = some rest := by
  have trimmed : trimStart (gap ++ mark :: rest) = mark :: rest := by
    rw [Text.trimStart_append_of_blank blank, Text.trimStart_of_ink]
    intro c first
    obtain rfl : mark = c := Option.some.inj first
    exact ink
  simp only [afterMark?, trimmed, if_true]

/-- No mark follows where a name stands. -/
theorem afterMark?_name (blank : isAllBlank gap = true) (shaped : isName inner name = true)
    (noStart : Text.isNameStart mark = false) (rest : List Char) :
    afterMark? mark (gap ++ (name ++ rest)) = none := by
  have trimmed : trimStart (gap ++ (name ++ rest)) = name ++ rest := by
    rw [Text.trimStart_append_of_blank blank, Text.trimStart_name_append shaped]
  obtain ⟨c, more, rfl, start, -⟩ := Text.exists_of_isName shaped
  have differs : c ≠ mark := by
    rintro rfl
    rw [noStart] at start
    cases start
  rw [afterMark?, trimmed, List.cons_append]
  exact if_neg differs

theorem cutAt?_append (absent : mark ∉ text) (rest : List Char) :
    cutAt? mark (text ++ mark :: rest) = some (text, rest) := by
  induction text with
  | nil => simp [cutAt?]
  | cons c text ih =>
    simp only [List.mem_cons, not_or] at absent
    simp [cutAt?, Ne.symm absent.1, ih absent.2]

/-- A plain name is taken whole where all the rest of a line is the name. -/
theorem restName?_plain {name : List Char} (shaped : isPlainName name = true) :
    restName? name = some name := by
  have oneLine : '\n' ∉ name := by
    intro member
    exact absurd (Text.isWord_of_mem shaped member) (by decide)
  obtain ⟨c, rest, rfl, -, -⟩ := Text.exists_of_isName shaped
  rw [restName?, if_neg oneLine, nonEmpty?]

/-- Only a line whose type token is the keyword opens a struct. -/
theorem typeToken?_of_structName? {bare : List Char} (opens : structName? text = some bare) :
    ∃ rest, typeToken? text = some (structKeyword, rest) := by
  rw [structName?] at opens
  split at opens
  · rename_i keyword
    obtain ⟨rest, rfl⟩ := List.isPrefixOf_iff_prefix.1 keyword
    rw [List.drop_left, Option.bind_eq_some_iff] at opens
    obtain ⟨afterGap, blanks, -⟩ := opens
    refine ⟨rest, nameBy?_append (by decide) ?_⟩
    intro c first
    cases rest with
    | nil => cases first
    | cons d rest =>
      obtain rfl : d = c := Option.some.inj first
      rw [afterBlanks?] at blanks
      split at blanks
      · rename_i blank
        exact Text.isTypeChar_of_isBlank blank
      · cases blanks
  · cases opens

end Parts

/-! ### Whole declarations -/

section Declarations

variable {token name gap gapBehind count : List Char}

/-- A count is read back from its digits. -/
theorem readCount_decimal {line value : Nat} (positive : 0 < value)
    (fits : value < Text.wordLimit) : readCount line (Text.decimal value) = .ok value := by
  have read := Text.readNumeral_decimal fits
  cases value with
  | zero => exact absurd positive (Nat.lt_irrefl 0)
  | succ value => rw [readCount, read]

/-- A type in front of a name is no struct that opens, unless the type is the keyword. -/
theorem structName?_field (shapedToken : isTypeName token = true)
    (noKeyword : token ≠ structKeyword) (blank : isAllBlank gap = true) (parted : gap ≠ [])
    (rest : List Char) :
    structName? (token ++ (gap ++ rest)) = none := by
  cases opens : structName? (token ++ (gap ++ rest)) with
  | none => rfl
  | some bare =>
    obtain ⟨behind, keyword⟩ := typeToken?_of_structName? opens
    rw [typeToken?_append shapedToken blank parted, Option.some.injEq, Prod.mk.injEq] at keyword
    exact absurd keyword.1 noKeyword

theorem structName?_header (shaped : isTypeName name = true) :
    structName? (structKeyword ++ ' ' :: name) = some name := by
  have keyword : structKeyword.isPrefixOf (structKeyword ++ ' ' :: name) = true :=
    List.isPrefixOf_iff_prefix.2 (List.prefix_append _ _)
  have behind : afterBlanks? (' ' :: name) = some (trimStart name) :=
    afterBlanks?_append (by decide) (List.cons_ne_nil ' ' []) name
  rw [structName?, if_pos keyword, List.drop_left, behind, Option.bind_some,
    Text.trimStart_name shaped, Text.trim_typeName shaped]
  obtain ⟨c, rest, rfl, -, -⟩ := Text.exists_of_isName shaped
  rfl

/-- A type in front of a name is not the form with angle brackets. -/
theorem templateForm?_plain (shapedToken : isTypeName token = true)
    (shaped : isPlainName name = true) (blank : isAllBlank gap = true) (parted : gap ≠ [])
    (rest : List Char) :
    templateForm? (token ++ (gap ++ (name ++ rest))) = none := by
  have noBracket : afterMark? '<' (gap ++ (name ++ rest)) = none :=
    afterMark?_name blank shaped (by decide) rest
  simp [templateForm?, typeToken?_append shapedToken blank parted, noBracket]

/-- Two types, a count and a name are found again in the form with angle brackets, with the count
trimmed. The type is the outer one if that is primitive. -/
theorem Draft.ofText?_template {outer elem gapElem gapComma : List Char}
    (shapedOuter : isTypeName outer = true) (shapedElem : isTypeName elem = true)
    (shaped : isPlainName name = true) (blank : isAllBlank gap = true)
    (blankElem : isAllBlank gapElem = true) (blankComma : isAllBlank gapComma = true)
    (blankBehind : isAllBlank gapBehind = true) (unclosed : '>' ∉ count) :
    Draft.ofText? (outer ++ (gap ++ '<' :: (gapElem ++ (elem ++ (gapComma ++ ',' ::
        (count ++ '>' :: (gapBehind ++ name))))))) =
      some ⟨if isPrimitive outer then outer else elem, name, some (trim count)⟩ := by
  have noBlank : ∀ c, isBlank c = true → Text.isTypeChar c = false :=
    fun _ => Text.isTypeChar_of_isBlank
  have outerEnds : typeToken? (outer ++ (gap ++ '<' :: (gapElem ++ (elem ++ (gapComma ++ ',' ::
      (count ++ '>' :: (gapBehind ++ name))))))) = some (outer, gap ++ '<' :: (gapElem ++ (elem ++
      (gapComma ++ ',' :: (count ++ '>' :: (gapBehind ++ name)))))) :=
    nameBy?_append_mark shapedOuter noBlank blank (by decide) _
  have elemEnds : typeToken? (trimStart (gapElem ++ (elem ++ (gapComma ++ ',' ::
      (count ++ '>' :: (gapBehind ++ name)))))) =
        some (elem, gapComma ++ ',' :: (count ++ '>' :: (gapBehind ++ name))) := by
    rw [Text.trimStart_append_of_blank blankElem, Text.trimStart_name_append shapedElem]
    exact nameBy?_append_mark shapedElem noBlank blankComma (by decide) _
  have named : restName? (trimStart (gapBehind ++ name)) = some name := by
    rw [Text.trimStart_append_of_blank blankBehind, Text.trimStart_name shaped,
      restName?_plain shaped]
  have template : templateForm? (outer ++ (gap ++ '<' :: (gapElem ++ (elem ++ (gapComma ++ ',' ::
      (count ++ '>' :: (gapBehind ++ name))))))) =
        some ⟨if isPrimitive outer then outer else elem, name, some (trim count)⟩ := by
    have opening : isBlank '<' = false := by decide
    have comma : isBlank ',' = false := by decide
    simp [templateForm?, outerEnds, elemEnds, named, afterMark?_append blank opening,
      afterMark?_append blankComma comma, cutAt?_append unclosed]
  rw [Draft.ofText?, template]
  rfl

/-- A type, a name and a count in brackets are found again, with the count trimmed. -/
theorem Draft.ofText?_array (shapedToken : isTypeName token = true)
    (shaped : isPlainName name = true) (blank : isAllBlank gap = true) (parted : gap ≠ [])
    (blankBehind : isAllBlank gapBehind = true) (unclosed : ']' ∉ count) :
    Draft.ofText? (token ++ (gap ++ (name ++ (gapBehind ++ '[' :: (count ++ [']']))))) =
      some ⟨token, name, some (trim count)⟩ := by
  have nameEnds : plainName? (name ++ (gapBehind ++ '[' :: (count ++ [']']))) =
      some (name, gapBehind ++ '[' :: (count ++ [']'])) :=
    nameBy?_append_mark shaped (fun _ => Text.isWord_of_isBlank) blankBehind (by decide) _
  have inside : afterMark? '[' (gapBehind ++ '[' :: (count ++ [']'])) = some (count ++ [']']) :=
    afterMark?_append blankBehind (by decide) _
  have noTemplate := templateForm?_plain shapedToken shaped blank parted
    (gapBehind ++ '[' :: (count ++ [']']))
  have array : arrayForm? (token ++ (gap ++ (name ++ (gapBehind ++ '[' :: (count ++ [']']))))) =
      some ⟨token, name, some (trim count)⟩ := by
    simp [arrayForm?, typeToken?_append shapedToken blank parted, afterBlanks?_append blank parted,
      Text.trimStart_name_append shaped, nameEnds, inside, cutAt?_append unclosed]
  rw [Draft.ofText?, noTemplate, array]
  rfl

/-- A type and a name are found again. -/
theorem Draft.ofText?_scalar (shapedToken : isTypeName token = true)
    (shaped : isPlainName name = true) (blank : isAllBlank gap = true) (parted : gap ≠ []) :
    Draft.ofText? (token ++ (gap ++ name)) = some ⟨token, name, none⟩ := by
  have whole : trimStart name = name := Text.trimStart_name shaped
  have nameEnds : plainName? name = some (name, []) := by
    have ends : plainName? (name ++ []) = some (name, []) := nameBy?_append shaped (by simp)
    rwa [List.append_nil] at ends
  have noBracket : afterMark? '[' [] = none := rfl
  have noTemplate : templateForm? (token ++ (gap ++ name)) = none := by
    simpa using templateForm?_plain shapedToken shaped blank parted []
  have noArray : arrayForm? (token ++ (gap ++ name)) = none := by
    simp [arrayForm?, typeToken?_append shapedToken blank parted, afterBlanks?_append blank parted,
      whole, nameEnds, noBracket]
  have scalar : scalarForm? (token ++ (gap ++ name)) = some ⟨token, name, none⟩ := by
    simp [scalarForm?, typeToken?_append shapedToken blank parted, afterBlanks?_append blank parted,
      whole, restName?_plain shaped]
  rw [Draft.ofText?, noTemplate, noArray, scalar]
  rfl

end Declarations

end RecordDiff.Schema
