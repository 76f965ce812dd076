import RecordDiff.Proofs.Comments
import RecordDiff.Proofs.Relayout

/-!
Logical lines against their text. On each line of a text, what stands in front of the first two
slashes is cut at semicolons and on both sides of each brace; the parts that are not blank are the
logical lines there. So nothing but blanks and semicolons is lost of the code, and the comment goes
to the last part that is no brace. Main statements:

- `splitComment_eq`: a line is cut where its first two slashes are;
- `pieces_eq_map_codeParts`: the pieces of code are its parts that are not blank, trimmed;
- `ink_codeParts`: these parts lose nothing but blanks and semicolons;
- `attachComment_cases`: a comment goes to the last declaration and changes nothing else;
- `LogicalLine.ofText_lossless`: all of it for a whole text.
-/

namespace RecordDiff.Schema

open Text (isBlank isAllBlank trim splitOn)

/-! ### What a line is cut into -/

/-- The number of characters of a line in front of its first two slashes, which is beyond its end if
there are none. -/
def slashesAt (line : List Char) : Nat :=
  line.tails.findIdx fun rest => ['/', '/'].isPrefixOf rest

/-- A brace between two semicolons, and any other character as it is. -/
def setApart (c : Char) : List Char :=
  if c = '{' ∨ c = '}' then [';', c, ';'] else [c]

/-- The parts of code between its semicolons that are not blank, trimmed, with each brace as a part
of its own. -/
def codeParts (code : List Char) : List (List Char) :=
  ((splitOn ';' (code.flatMap setApart)).map trim).filter fun part => !part.isEmpty

/-- The piece that a part of code is. -/
def Piece.ofPart (part : List Char) : Piece :=
  if part = ['{'] then .opening else if part = ['}'] then .closing else .declaration part ""

/-- The text of a piece. -/
def Piece.text : Piece → List Char
  | .opening => ['{']
  | .closing => ['}']
  | .declaration text _ => text

/-- The comment of a piece. -/
def Piece.comment : Piece → String
  | .declaration _ comment => comment
  | _ => ""

/-- A character that is neither a blank nor a semicolon. -/
def isInk (c : Char) : Bool :=
  !isBlank c && c != ';'

/-- What the comment of a line adds to a declaration: the text from the first two slashes on,
trimmed at its end, behind a space; without slashes nothing. -/
def noteOf (line : List Char) : String :=
  if line.drop (slashesAt line) = [] then ""
  else String.ofList (' ' :: Text.trimEnd (line.drop (slashesAt line)))

/-! ### Code and comments -/

section Slashes

variable {c : Char} {line rest : List Char}

theorem slashesAt_cons (other : ['/', '/'].isPrefixOf (c :: rest) = false) :
    slashesAt (c :: rest) = slashesAt rest + 1 := by
  simp [slashesAt, List.findIdx_cons, other]

/-- A line is cut where its first two slashes are. -/
theorem splitComment_eq (line : List Char) :
    (splitComment line).1 = line.take (slashesAt line) ∧
      (splitComment line).2.getD [] = line.drop (slashesAt line) := by
  fun_induction splitComment line with
  | case1 => exact ⟨rfl, rfl⟩
  | case2 rest => simp [slashesAt, List.findIdx_cons]
  | case3 c rest noSlashes cut ih =>
    have other : ['/', '/'].isPrefixOf (c :: rest) = false := by
      rw [Bool.eq_false_iff, ne_eq, List.isPrefixOf_iff_prefix]
      intro starts
      obtain ⟨rfl, next⟩ := List.cons_prefix_cons.1 starts
      obtain ⟨more, rfl⟩ := next
      exact noSlashes more rfl rfl
    rw [slashesAt_cons other]
    exact ⟨congrArg (c :: ·) ih.1, ih.2⟩

theorem commentText_eq_noteOf (line : List Char) :
    commentText (splitComment line).2 = noteOf line := by
  obtain ⟨-, behind⟩ := splitComment_eq line
  obtain ⟨-, -, starts⟩ := splitComment_spec line
  rw [noteOf, ← behind]
  cases cut : (splitComment line).2 with
  | none => rfl
  | some comment =>
    obtain ⟨rest, rfl⟩ := starts comment cut
    rfl

end Slashes

/-! ### Parts of code -/

section Parts

variable {mark : Char} {code part : List Char}

theorem codeParts_of_uncut (uncut : ∀ c ∈ code, isCut c = false) :
    codeParts code = if (trim code).isEmpty then [] else [trim code] := by
  have plain : ∀ c ∈ code, setApart c = [c] := by
    intro c member
    obtain ⟨-, noOpening, noClosing⟩ := isCut_eq_false_iff.1 (uncut c member)
    simp [setApart, noOpening, noClosing]
  have same : code.flatMap setApart = code := by
    rw [List.flatMap_congr plain, List.flatMap_singleton']
  have noSemicolon : ';' ∉ code := fun member => (isCut_eq_false_iff.1 (uncut _ member)).1 rfl
  rw [codeParts, same, Text.splitOn_of_not_mem noSemicolon]
  cases trimmed : (trim code).isEmpty <;> simp [trimmed]

/-- The parts of code on the two sides of a mark are its parts, with the mark between them if it is
a brace. -/
theorem codeParts_append_cut (cut : isCut mark = true) (front back : List Char) :
    codeParts (front ++ mark :: back) =
      codeParts front ++ ((if mark = ';' then [] else [[mark]]) ++ codeParts back) := by
  rw [codeParts, List.flatMap_append, List.flatMap_cons]
  rcases eq_of_isCut cut with rfl | brace
  · have alone : setApart ';' = [';'] := by decide
    rw [alone, List.singleton_append, Text.splitOn_append_cons, List.map_append,
      List.filter_append]
    rfl
  · have between : setApart mark = [';', mark, ';'] := if_pos brace
    have noSemicolon : mark ≠ ';' := by
      rintro rfl
      exact absurd brace (by decide)
    have single : splitOn ';' [mark] = [[mark]] ∧ trim [mark] = [mark] := by
      rcases brace with rfl | rfl <;> decide
    have shape : [';', mark, ';'] ++ back.flatMap setApart =
        ';' :: ([mark] ++ ';' :: back.flatMap setApart) := rfl
    rw [between, shape, Text.splitOn_append_cons, Text.splitOn_append_cons, single.1,
      List.map_append, List.filter_append, List.map_append, List.filter_append, if_neg noSemicolon]
    simp [single.2, codeParts]

/-- Code without marks, or two codes with a mark between them. -/
theorem codeInduction {motive : List Char → Prop}
    (uncut : ∀ code, (∀ c ∈ code, isCut c = false) → motive code)
    (cut : ∀ front mark back, isCut mark = true → motive front → motive back →
      motive (front ++ mark :: back)) (code : List Char) : motive code := by
  induction length : code.length using Nat.strong_induction_on generalizing code with
  | h size ih =>
    by_cases marked : ∃ mark ∈ code, isCut mark = true
    · obtain ⟨mark, member, isMark⟩ := marked
      obtain ⟨front, back, rfl⟩ := List.append_of_mem member
      rw [List.length_append, List.length_cons] at length
      exact cut front mark back isMark (ih front.length (by omega) front rfl)
        (ih back.length (by omega) back rfl)
    · refine uncut code fun c member => ?_
      rw [← Bool.not_eq_true]
      exact fun isMark => marked ⟨c, member, isMark⟩

/-- The pieces of code are its parts. -/
theorem pieces_eq_map_codeParts (code : List Char) :
    pieces code = (codeParts code).map Piece.ofPart := by
  induction code using codeInduction with
  | uncut code uncut =>
    rw [codeParts_of_uncut uncut]
    by_cases blank : trim code = []
    · rw [pieces, cutCode_of_uncut uncut, pieceBefore]
      simp [blank]
    · have noBrace : ∀ brace, isCut brace = true → trim code ≠ [brace] := by
        intro brace cut same
        have member : brace ∈ code :=
          (Text.trim_isInfix code).mem (same ▸ List.mem_singleton_self _)
        rw [uncut brace member] at cut
        cases cut
      rw [pieces_of_uncut uncut blank, if_neg (by rwa [List.isEmpty_iff]), List.map_singleton,
        Piece.ofPart, if_neg (noBrace '{' rfl), if_neg (noBrace '}' rfl)]
  | cut front mark back cut front_ih back_ih =>
    have left : Piece.ofMark mark =
        (if mark = ';' then [] else [[mark]]).map Piece.ofPart := by
      rcases eq_of_isCut cut with rfl | rfl | rfl <;> rfl
    rw [pieces_append_cut cut, codeParts_append_cut cut, front_ih, back_ih, left,
      List.map_append, List.map_append]

theorem text_ofPart (part : List Char) : (Piece.ofPart part).text = part := by
  unfold Piece.ofPart
  split
  · rename_i same
    exact same.symm
  · split
    · rename_i same
      exact same.symm
    · rfl

theorem filter_isInk_trim (part : List Char) : (trim part).filter isInk = part.filter isInk := by
  have none : ∀ blanks, isAllBlank blanks = true → blanks.filter isInk = [] := by
    intro blanks blank
    refine List.filter_eq_nil_iff.2 fun c member => ?_
    simp [isInk, List.all_eq_true.1 blank c member]
  obtain ⟨front, blankFront, whole⟩ := Text.exists_append_trimStart part
  obtain ⟨back, blankBack, inner⟩ := Text.exists_trimEnd_append (Text.trimStart part)
  have ends : part = front ++ (trim part ++ back) := by
    rw [trim, inner, whole]
  conv_rhs => rw [ends]
  rw [List.filter_append, List.filter_append, none front blankFront, none back blankBack,
    List.nil_append, List.append_nil]

/-- The parts of code lose nothing but blanks and semicolons. -/
theorem ink_codeParts (code : List Char) :
    (codeParts code).flatten.filter isInk = code.filter isInk := by
  have trimmed : ∀ parts : List (List Char),
      ((parts.map trim).filter fun part => !part.isEmpty).flatten.filter isInk =
        parts.flatten.filter isInk := by
    intro parts
    induction parts with
    | nil => rfl
    | cons part parts ih =>
      rw [List.map_cons, List.flatten_cons, List.filter_append, ← ih, ← filter_isInk_trim part]
      cases empty : (trim part).isEmpty with
      | true =>
        rw [List.filter_cons_of_neg (by simp [empty]), List.isEmpty_iff.1 empty]
        rfl
      | false =>
        rw [List.filter_cons_of_pos (by simp [empty]), List.flatten_cons, List.filter_append]
  have apart : (code.flatMap setApart).filter isInk = code.filter isInk := by
    induction code with
    | nil => rfl
    | cons c rest ih =>
      have single : (setApart c).filter isInk = [c].filter isInk := by
        unfold setApart
        split
        · simp [isInk, List.filter_cons]
        · rfl
      rw [List.flatMap_cons, List.filter_append, ih, single, ← List.filter_append]
      rfl
  have inks : ∀ c, isInk c = (isInk c && c != ';') := by
    intro c
    simp [isInk]
  rw [codeParts, trimmed, Text.splitOn_flatten, List.filter_filter,
    List.filter_congr fun c _ => (inks c).symm, apart]

end Parts

/-! ### Comments -/

/-- A comment goes to the last declaration and changes nothing else; where there is no declaration,
it is dropped. -/
theorem attachComment_cases (comment : String) (pieces : List Piece) :
    (attachComment comment pieces = pieces ∧ ∀ piece ∈ pieces, piece.isDeclaration = false) ∨
      ∃ front text before back, pieces = front ++ .declaration text before :: back ∧
        (∀ piece ∈ back, piece.isDeclaration = false) ∧
        attachComment comment pieces = front ++ .declaration text comment :: back := by
  induction pieces with
  | nil => exact .inl ⟨rfl, List.forall_mem_nil _⟩
  | cons piece rest ih =>
    unfold attachComment
    rcases ih with ⟨-, braces⟩ | ⟨front, text, before, back, rfl, braces, attached⟩
    · have none : rest.any Piece.isDeclaration = false := by
        rw [List.any_eq_false]
        intro other member
        rw [braces other member]
        exact Bool.false_ne_true
      rw [if_neg (by simp [none])]
      cases piece with
      | declaration text before => exact .inr ⟨[], text, before, rest, rfl, braces, rfl⟩
      | opening => exact .inl ⟨rfl, List.forall_mem_cons.2 ⟨rfl, braces⟩⟩
      | closing => exact .inl ⟨rfl, List.forall_mem_cons.2 ⟨rfl, braces⟩⟩
    · rw [if_pos (by simp [Piece.isDeclaration]), attached]
      exact .inr ⟨piece :: front, text, before, back, rfl, braces, rfl⟩

theorem comment_of_not_isDeclaration {piece : Piece} (brace : piece.isDeclaration = false) :
    piece.comment = "" := by
  cases piece with
  | declaration text comment => cases brace
  | opening => rfl
  | closing => rfl

theorem comment_of_mem_pieces {piece : Piece} {code : List Char} (member : piece ∈ pieces code) :
    piece.comment = "" := by
  cases piece with
  | declaration text comment => exact (declared_of_mem_pieces member).2
  | opening => rfl
  | closing => rfl

/-! ### Lines -/

namespace LogicalLine

/-- What the logical lines on a line of a text are: they have its number; up to comments they are
the parts of its code; and at most the last declaration among them has a comment, which is that of
the line. -/
structure Tokens (number : Nat) (line : List Char) (logical : List LogicalLine) : Prop where
  numbered : ∀ one ∈ logical, one.number = number
  parts : logical.map (fun one => one.piece.plain) =
    (codeParts (line.take (slashesAt line))).map Piece.ofPart
  noted : (∀ one ∈ logical, one.piece.isDeclaration = false ∧ one.piece.comment = "") ∨
    ∃ front last back, logical = front ++ last :: back ∧ last.piece.isDeclaration = true ∧
      last.piece.comment = noteOf line ∧ (∀ one ∈ front, one.piece.comment = "") ∧
      ∀ one ∈ back, one.piece.isDeclaration = false ∧ one.piece.comment = ""

section Lines

variable {number : Nat} {line : List Char} {logical : List LogicalLine}

theorem tokens_ofLine (number : Nat) (line : List Char) :
    Tokens number line (ofLine number line) where
  numbered _ member := number_of_mem_ofLine member
  parts := by
    have plainly : (fun one => one.piece.plain) ∘ LogicalLine.mk number = Piece.plain := rfl
    rw [ofLine, List.map_map, plainly, map_plain_attachComment, map_plain_pieces,
      pieces_eq_map_codeParts, (splitComment_eq line).1]
  noted := by
    have braces : ∀ pieces : List Piece, (∀ piece ∈ pieces, piece.isDeclaration = false) →
        ∀ one ∈ pieces.map (LogicalLine.mk number),
          one.piece.isDeclaration = false ∧ one.piece.comment = "" := by
      intro pieces braces one member
      obtain ⟨piece, inside, rfl⟩ := List.mem_map.1 member
      exact ⟨braces piece inside, comment_of_not_isDeclaration (braces piece inside)⟩
    rw [ofLine, commentText_eq_noteOf]
    rcases attachComment_cases (noteOf line) (pieces (splitComment line).1) with
      ⟨unchanged, none⟩ | ⟨front, text, before, back, whole, none, attached⟩
    · rw [unchanged]
      exact .inl (braces _ none)
    · rw [attached, List.map_append, List.map_cons]
      refine .inr ⟨_, _, _, rfl, rfl, rfl, ?_, braces back none⟩
      intro one member
      obtain ⟨piece, inside, rfl⟩ := List.mem_map.1 member
      exact comment_of_mem_pieces (whole ▸ List.mem_append_left _ inside)

theorem text_plain (piece : Piece) : piece.plain.text = piece.text := by
  cases piece <;> rfl

/-- The logical lines on a line lose nothing but blanks and semicolons of its code. -/
theorem Tokens.ink (tokens : Tokens number line logical) :
    (logical.flatMap fun one => one.piece.text).filter isInk =
      (line.take (slashesAt line)).filter isInk := by
  have texts : logical.flatMap (fun one => one.piece.text) =
      (codeParts (line.take (slashesAt line))).flatten := by
    calc logical.flatMap (fun one => one.piece.text)
        = (logical.map fun one => one.piece.plain).flatMap Piece.text := by
          rw [List.flatMap_map]
          exact List.flatMap_congr fun one _ => (text_plain one.piece).symm
      _ = (codeParts (line.take (slashesAt line))).flatMap id := by
          rw [tokens.parts, List.flatMap_map]
          exact List.flatMap_congr fun part _ => text_ofPart part
      _ = (codeParts (line.take (slashesAt line))).flatten := List.flatMap_id
  rw [texts, ink_codeParts]

theorem ofLines_eq_flatMap (number : Nat) (lines : List (List Char)) :
    ofLines number lines =
      (lines.zipIdx number).flatMap fun numbered => ofLine numbered.2 numbered.1 := by
  induction lines generalizing number with
  | nil => rfl
  | cons line rest ih => rw [ofLines, ih, List.zipIdx_cons, List.flatMap_cons]

theorem ink_ofLines (number : Nat) (lines : List (List Char)) :
    ((ofLines number lines).flatMap fun one => one.piece.text).filter isInk =
      (lines.flatMap fun line => line.take (slashesAt line)).filter isInk := by
  induction lines generalizing number with
  | nil => rfl
  | cons line rest ih =>
    rw [ofLines, List.flatMap_append, List.flatMap_cons, List.filter_append, List.filter_append,
      (tokens_ofLine number line).ink, ih]

end Lines

/-- The logical lines of a text are those of its lines, one line after the other and numbered from
one: on each line the parts of its code, with its comment at the last declaration. Together they
lose nothing but blanks and semicolons of the code in front of the comments. -/
theorem ofText_lossless (text : List Char) :
    ofText text =
        ((Text.lines text).zipIdx 1).flatMap (fun numbered => ofLine numbered.2 numbered.1) ∧
      (∀ number line, Tokens number line (ofLine number line)) ∧
      ((ofText text).flatMap fun one => one.piece.text).filter isInk =
        ((Text.lines text).flatMap fun line => line.take (slashesAt line)).filter isInk :=
  ⟨ofLines_eq_flatMap 1 _, tokens_ofLine, ink_ofLines 1 _⟩

example :
    ofText "a b; c \x7b; // d ".toList =
      [⟨1, .declaration "a b".toList ""⟩, ⟨1, .declaration "c".toList " // d"⟩, ⟨1, .opening⟩] := by
  decide +kernel

end LogicalLine

end RecordDiff.Schema
