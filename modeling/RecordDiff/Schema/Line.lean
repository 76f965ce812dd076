import RecordDiff.Text.Blank
import RecordDiff.Text.Lines

/-!
Logical lines of a schema. A comment runs from two slashes to the end of its line. What stands in
front of it is cut at every semicolon and at every brace; each brace is a logical line of its own,
and so is each part between the cuts that is not blank. The comment of a line belongs to the last
declaration on it. Main statements:

- `splitComment_of_noSlash`, `splitComment_append`: a line without slashes is all code, and a
  comment behind it is cut off;
- `pieces_of_uncut`: code without semicolons and braces is one declaration;
- `LogicalLine.number_of_mem_ofLine`: the logical lines of a line keep its number.
-/

namespace RecordDiff.Schema

/-- A line cut at its first two slashes: the code, and the comment with its slashes. -/
def splitComment : List Char → List Char × Option (List Char)
  | [] => ([], none)
  | '/' :: '/' :: rest => ([], some ('/' :: '/' :: rest))
  | c :: rest =>
    let cut := splitComment rest
    (c :: cut.1, cut.2)

/-- The comment of a line as a field keeps it: with a space in front and no blanks behind. -/
def commentText : Option (List Char) → String
  | none => ""
  | some comment => String.ofList (' ' :: Text.trimEnd comment)

/-- What a logical line holds. -/
inductive Piece where
  /-- An opening brace. -/
  | opening
  /-- A closing brace. -/
  | closing
  /-- Any other text, without blanks at its ends, and the comment that goes with it. -/
  | declaration (text : List Char) (comment : String)
  deriving DecidableEq, Repr

/-- Whether a piece can carry a comment. -/
def Piece.isDeclaration : Piece → Bool
  | .declaration _ _ => true
  | _ => false

/-- Puts a part in front of pieces, unless it is blank. -/
def pieceBefore (part : List Char) (pieces : List Piece) : List Piece :=
  if (Text.trim part).isEmpty then pieces else .declaration (Text.trim part) "" :: pieces

/-- Code cut at its first semicolon or brace: the part in front of it, and the pieces behind. -/
def cutCode : List Char → List Char × List Piece
  | [] => ([], [])
  | c :: rest =>
    let cut := cutCode rest
    if c = ';' then ([], pieceBefore cut.1 cut.2)
    else if c = '{' then ([], .opening :: pieceBefore cut.1 cut.2)
    else if c = '}' then ([], .closing :: pieceBefore cut.1 cut.2)
    else (c :: cut.1, cut.2)

/-- The pieces of code. -/
def pieces (code : List Char) : List Piece :=
  pieceBefore (cutCode code).1 (cutCode code).2

/-- Hands a comment to the last declaration among pieces. -/
def attachComment (comment : String) : List Piece → List Piece
  | [] => []
  | piece :: rest =>
    if rest.any Piece.isDeclaration then piece :: attachComment comment rest
    else
      match piece with
      | .declaration text _ => .declaration text comment :: rest
      | brace => brace :: rest

/-- A logical line: a piece of a schema and the number of the line it stands on, from one. -/
structure LogicalLine where
  number : Nat
  piece : Piece
  deriving DecidableEq, Repr

namespace LogicalLine

/-- The logical lines on a line of a given number. -/
def ofLine (number : Nat) (line : List Char) : List LogicalLine :=
  let cut := splitComment line
  (attachComment (commentText cut.2) (pieces cut.1)).map (LogicalLine.mk number)

/-- The logical lines of lines the first of which has a given number. -/
def ofLines (number : Nat) : List (List Char) → List LogicalLine
  | [] => []
  | line :: rest => ofLine number line ++ ofLines (number + 1) rest

/-- The logical lines of a schema text. -/
def ofText (text : List Char) : List LogicalLine :=
  ofLines 1 (Text.lines text)

end LogicalLine

/-! ### Small laws -/

theorem splitComment_of_noSlash {line : List Char} (noSlash : '/' ∉ line) :
    splitComment line = (line, none) := by
  induction line with
  | nil => rfl
  | cons c rest ih =>
    simp only [List.mem_cons, not_or] at noSlash
    rw [splitComment, ih noSlash.2]
    intro more slash
    exact absurd slash.symm noSlash.1

theorem splitComment_append {code : List Char} (noSlash : '/' ∉ code) (rest : List Char) :
    splitComment (code ++ '/' :: '/' :: rest) = (code, some ('/' :: '/' :: rest)) := by
  induction code with
  | nil => rfl
  | cons c code ih =>
    simp only [List.mem_cons, not_or] at noSlash
    rw [List.cons_append, splitComment, ih noSlash.2]
    intro more slash
    exact absurd slash.symm noSlash.1

/-- The marks that code is cut at. -/
def isCut (c : Char) : Bool :=
  c == ';' || c == '{' || c == '}'

theorem cutCode_of_uncut {code : List Char} (uncut : ∀ c ∈ code, isCut c = false) :
    cutCode code = (code, []) := by
  induction code with
  | nil => rfl
  | cons c rest ih =>
    have plain : isCut c = false := uncut c List.mem_cons_self
    simp only [isCut, Bool.or_eq_false_iff, beq_eq_false_iff_ne] at plain
    have uncutRest : ∀ d ∈ rest, isCut d = false := fun d member =>
      uncut d (List.mem_cons_of_mem c member)
    simp [cutCode, ih uncutRest, plain]

/-- Code without semicolons and braces is one declaration, unless it is blank. -/
theorem pieces_of_uncut {code : List Char} (uncut : ∀ c ∈ code, isCut c = false)
    (inked : Text.trim code ≠ []) : pieces code = [.declaration (Text.trim code) ""] := by
  rw [pieces, cutCode_of_uncut uncut, pieceBefore, if_neg]
  rwa [List.isEmpty_iff]

theorem LogicalLine.number_of_mem_ofLine {number : Nat} {line : List Char} {logical : LogicalLine}
    (member : logical ∈ LogicalLine.ofLine number line) : logical.number = number := by
  simp only [LogicalLine.ofLine, List.mem_map] at member
  obtain ⟨piece, -, rfl⟩ := member
  rfl

end RecordDiff.Schema
