/-!
Characters of a YAML text and places in it. A cursor is what is left of a text, with the line and
the column it starts at and the number of octets in front of it. Main statement:

- `Position.after_break`: behind a line break the column is zero.
-/

namespace RecordDiff.Yaml

/-! ### Characters -/

/-- A character that ends a line, once the line ends of a text are unified. -/
def isBreak (c : Char) : Bool :=
  c == '\n' || c == '\u2028' || c == '\u2029'

/-- A space or a tab. -/
def isSpace (c : Char) : Bool :=
  c == ' ' || c == '\t'

/-- A mark of the byte order, which may stand at the start of a line between tokens. -/
def byteOrderMark : Char := '\ufeff'

/-- A character that may stand in a text as it is. -/
def isAllowed (c : Char) : Bool :=
  c == '\t' || c == '\n' || c == '\r' || c == '\u0085' || (' ' ≤ c && c ≤ '~') ||
    (0xA0 ≤ c.toNat && c.toNat ≤ 0xFFFD) || 0x10000 ≤ c.toNat

/-- A character that may stand in a scalar without an escape. A tab is none. -/
def isPrintable (c : Char) : Bool :=
  c == '\n' || (' ' ≤ c && c ≤ '~') ||
    (0xA0 ≤ c.toNat && c.toNat ≤ 0xFFFD && c != byteOrderMark) || 0x10000 ≤ c.toNat

/-- Whether what follows ends a token: a space, a tab, a line break or the end. -/
def endsToken : List Char → Bool
  | [] => true
  | c :: _ => isSpace c || isBreak c

/-- A text with a line feed for each carriage return, each pair of both and each next-line mark. -/
def unifyBreaks : List Char → List Char
  | [] => []
  | '\r' :: '\n' :: rest => '\n' :: unifyBreaks rest
  | c :: rest => (if c = '\r' ∨ c = '\u0085' then '\n' else c) :: unifyBreaks rest

/-! ### Places -/

/-- A place in a text. -/
structure Position where
  /-- The number of line breaks in front. -/
  line : Nat
  /-- The number of characters in front on this line. -/
  column : Nat
  /-- The number of octets in front, as UTF-8. -/
  octets : Nat
  deriving DecidableEq, Repr

namespace Position

/-- The start of a text. -/
def start : Position :=
  ⟨0, 0, 0⟩

/-- The place behind a character. -/
def after (position : Position) (c : Char) : Position :=
  if isBreak c then ⟨position.line + 1, 0, position.octets + c.utf8Size⟩
  else ⟨position.line, position.column + 1, position.octets + c.utf8Size⟩

theorem after_break {position : Position} {c : Char} (isEnd : isBreak c = true) :
    (position.after c).column = 0 := by
  simp [after, isEnd]

end Position

/-- A place in a text with the characters from there on. -/
structure Cursor where
  rest : List Char
  position : Position
  deriving DecidableEq, Repr

/-- Whether three of the given mark start a text and end a token. -/
def startsMark (mark : Char) : List Char → Bool
  | a :: b :: c :: rest => a == mark && b == mark && c == mark && endsToken rest
  | _ => false

namespace Cursor

/-- The column of a cursor. -/
def column (cursor : Cursor) : Nat :=
  cursor.position.column

/-- Whether a mark for the start of a document stands here. -/
def atStartMark (cursor : Cursor) : Bool :=
  cursor.column == 0 && startsMark '-' cursor.rest

/-- Whether a mark for the end of a document stands here. -/
def atEndMark (cursor : Cursor) : Bool :=
  cursor.column == 0 && startsMark '.' cursor.rest

/-- Whether a mark between documents stands here. -/
def atDocumentMark (cursor : Cursor) : Bool :=
  cursor.atStartMark || cursor.atEndMark

/-- The cursor behind so many characters. -/
def skip (cursor : Cursor) (count : Nat) : Cursor :=
  ⟨cursor.rest.drop count, (cursor.rest.take count).foldl Position.after cursor.position⟩

/-- The cursor in front of a text that the characters here end in. -/
def skipTo (cursor : Cursor) (rest : List Char) : Cursor :=
  cursor.skip (cursor.rest.length - rest.length)

end Cursor

end RecordDiff.Yaml
