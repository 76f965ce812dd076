import RecordDiff.Text.Numeral
import RecordDiff.Yaml.Cursor

/-!
Scanning scalars. Blanks inside a scalar are kept as they are on one line; across lines they are
folded, so that one line break counts as a space and further ones as themselves. A plain scalar
ends in front of a comment, of a colon that ends a token, of a line that is not indented far enough
and, inside brackets, of their marks. A quoted scalar ends at its quote, a block scalar with the
lines that are indented like its first one.
-/

namespace RecordDiff.Yaml

/-- The ways in which a scalar is written. -/
inductive Style where
  | plain
  | single
  | double
  | literal
  | folded
  deriving DecidableEq, Repr

/-! ### Folding -/

/-- The blanks since the last character of a scalar. -/
inductive Gap where
  /-- Spaces and tabs on one line, in reverse order. -/
  | spaces (reversed : List Char)
  /-- A first line break, or none for one that was escaped, and the further ones in reverse. -/
  | breaks (first : Option Char) (reversed : List Char)
  deriving DecidableEq, Repr

namespace Gap

/-- No blanks. -/
def none : Gap := .spaces []

/-- Whether there are no blanks. -/
def isNone : Gap → Bool
  | spaces [] => true
  | _ => false

/-- Whether the blanks reach into another line. -/
def crossesLine : Gap → Bool
  | breaks _ _ => true
  | spaces _ => false

/-- The gap with a space or a tab more. Behind a line break it is indentation and not kept. -/
def addSpace (c : Char) : Gap → Gap
  | spaces reversed => spaces (c :: reversed)
  | breaks first reversed => breaks first reversed

/-- The gap with a line break more. -/
def addBreak (c : Char) : Gap → Gap
  | spaces _ => breaks (some c) []
  | breaks first reversed => breaks first (c :: reversed)

/-- What the gap stands for between two characters of the scalar. -/
def fold : Gap → List Char
  | spaces reversed => reversed.reverse
  | breaks (some '\n') [] => [' ']
  | breaks (some '\n') reversed => reversed.reverse
  | breaks first reversed => first.toList ++ reversed.reverse

end Gap

/-! ### Plain scalars -/

/-- A mark of a flow collection. -/
def isFlowMark (c : Char) : Bool :=
  c == ',' || c == '[' || c == ']' || c == '\x7b' || c == '\x7d'

/-- Where a plain scalar is scanned. -/
structure PlainContext where
  /-- Inside brackets. -/
  flow : Bool
  /-- The least column that a further line may start at; inside brackets, only that no tab may
  stand further left. -/
  least : Nat
  deriving DecidableEq, Repr

/-- A plain scalar that was scanned. -/
structure PlainScan where
  text : List Char
  /-- The cursor behind the scalar and the blanks that follow it. -/
  after : Cursor
  /-- Whether these blanks reach into another line. -/
  crossesLine : Bool
  deriving DecidableEq, Repr

/-- Whether a plain scalar stops in front of `c :: rest`, which is no blank, behind a gap. -/
def stopsPlain (context : PlainContext) (gap : Gap) (position : Position) (c : Char)
    (rest : List Char) : Bool :=
  (!gap.isNone &&
      ((!context.flow && position.column < context.least) ||
        (Cursor.mk (c :: rest) position).atDocumentMark || c == '#')) ||
    (c == ':' && endsToken rest) || (context.flow && isFlowMark c)

/-- Whether a colon stands in front of a mark of a flow collection, where none may. -/
def isStrayColon (context : PlainContext) (c : Char) (rest : List Char) : Bool :=
  context.flow && c == ':' &&
    match rest with
    | [] => false
    | next :: _ => isFlowMark next || next == '?'

/-- Scans a plain scalar of which `reversed` is read already, with a gap behind it. -/
def scanPlain (context : PlainContext) (reversed : List Char) (gap : Gap) (position : Position) :
    List Char → Option PlainScan
  | [] => some ⟨reversed.reverse, ⟨[], position⟩, gap.crossesLine⟩
  | c :: rest =>
    if isBreak c then scanPlain context reversed (gap.addBreak c) (position.after c) rest
    else if isSpace c then
      if c == '\t' && gap.crossesLine && position.column < context.least then none
      else scanPlain context reversed (gap.addSpace c) (position.after c) rest
    else if stopsPlain context gap position c rest then
      some ⟨reversed.reverse, ⟨c :: rest, position⟩, gap.crossesLine⟩
    else if isStrayColon context c rest then none
    else
      scanPlain context (c :: (gap.fold.reverse ++ reversed)) .none (position.after c) rest

/-! ### Quoted scalars -/

/-- The two kinds of quotes. -/
inductive Quotes where
  | single
  | double
  deriving DecidableEq, Repr

/-- The way of writing that the quotes are. -/
def Quotes.style : Quotes → Style
  | single => .single
  | double => .double

/-- What stands for a character behind a backslash. -/
def escapeValue? (c : Char) : Option Char :=
  match c with
  | '0' => some '\x00'
  | 'a' => some '\x07'
  | 'b' => some '\x08'
  | 't' => some '\t'
  | '\t' => some '\t'
  | 'n' => some '\n'
  | 'v' => some '\x0b'
  | 'f' => some '\x0c'
  | 'r' => some '\r'
  | 'e' => some '\x1b'
  | ' ' => some ' '
  | '"' => some '"'
  | '/' => some '/'
  | '\\' => some '\\'
  | 'N' => some '\u0085'
  | '_' => some '\u00a0'
  | 'L' => some '\u2028'
  | 'P' => some '\u2029'
  | _ => none

/-- The number of digits of a numeric escape. -/
def escapeDigits? (c : Char) : Option Nat :=
  match c with
  | 'x' => some 2
  | 'u' => some 4
  | 'U' => some 8
  | _ => none

/-- The character of a code point, unless it is a surrogate or beyond the last one. -/
def charOfPoint? (point : Nat) : Option Char :=
  if point < 0xD800 ∨ (0xDFFF < point ∧ point ≤ 0x10FFFF) then some (Char.ofNat point) else none

/-- Where the scan of a quoted scalar stands between two characters. -/
inductive QuotedState where
  /-- In the text. -/
  | text
  /-- Behind a single quote, which either ends the scalar or is doubled. -/
  | quote
  /-- Behind a backslash. -/
  | escape
  /-- Inside a numeric escape, with so many digits to come. -/
  | digits (left value : Nat)
  deriving DecidableEq, Repr

/-- Scans a quoted scalar behind its opening quote, of which `reversed` is read already. -/
def scanQuoted (quotes : Quotes) (state : QuotedState) (reversed : List Char) (gap : Gap)
    (position : Position) : List Char → Option (List Char × Cursor)
  | [] =>
    match state with
    | .quote => some (reversed.reverse, ⟨[], position⟩)
    | _ => none
  | c :: rest =>
    match state with
    | .digits left value =>
      match Text.digit? 16 c with
      | none => none
      | some d =>
        if left ≤ 1 then
          match charOfPoint? (value * 16 + d) with
          | none => none
          | some decoded =>
            scanQuoted quotes .text (decoded :: reversed) .none (position.after c) rest
        else
          scanQuoted quotes (.digits (left - 1) (value * 16 + d)) reversed .none
            (position.after c) rest
    | .escape =>
      if isBreak c then
        scanQuoted quotes .text reversed (.breaks none []) (position.after c) rest
      else
        match escapeDigits? c, escapeValue? c with
        | some left, _ =>
          scanQuoted quotes (.digits left 0) reversed .none (position.after c) rest
        | none, some decoded =>
          scanQuoted quotes .text (decoded :: reversed) .none (position.after c) rest
        | none, none => none
    | .quote =>
      if c = '\'' then scanQuoted quotes .text (c :: reversed) .none (position.after c) rest
      else some (reversed.reverse, ⟨c :: rest, position⟩)
    | .text =>
      if isBreak c then
        scanQuoted quotes .text reversed (gap.addBreak c) (position.after c) rest
      else if isSpace c then
        scanQuoted quotes .text reversed (gap.addSpace c) (position.after c) rest
      else if (Cursor.mk (c :: rest) position).atDocumentMark then none
      else if c = '"' ∧ quotes = .double then
        some ((gap.fold.reverse ++ reversed).reverse, ⟨rest, position.after c⟩)
      else if c = '\'' ∧ quotes = .single then
        scanQuoted quotes .quote (gap.fold.reverse ++ reversed) .none (position.after c) rest
      else if c = '\\' ∧ quotes = .double then
        scanQuoted quotes .escape (gap.fold.reverse ++ reversed) .none (position.after c) rest
      else
        scanQuoted quotes .text (c :: (gap.fold.reverse ++ reversed)) .none (position.after c) rest

/-! ### Block scalars -/

/-- What becomes of the line breaks at the end of a block scalar. -/
inductive Chomping where
  /-- One is kept. -/
  | clip
  /-- None is kept. -/
  | strip
  /-- All are kept. -/
  | keep
  deriving DecidableEq, Repr

namespace Chomping

/-- What is kept of the break behind the last line and of those of empty lines behind it. -/
def tail (final trailing : List Char) : Chomping → List Char
  | clip => final
  | strip => []
  | keep => final ++ trailing

end Chomping

/-- The header of a block scalar. -/
structure BlockHeader where
  chomping : Chomping
  /-- The indentation beyond that of the parent, if it is given. -/
  indent : Option Nat
  deriving DecidableEq, Repr

/-- The digit of an indentation, which is not zero. -/
def indentDigit? (c : Char) : Option Nat :=
  if '1' ≤ c ∧ c ≤ '9' then some (c.toNat - 48) else none

/-- The chomping that a mark asks for. -/
def chomping? (c : Char) : Option Chomping :=
  if c = '+' then some .keep else if c = '-' then some .strip else none

/-- The header behind the mark of a block scalar: a chomping and an indentation in either order. -/
def scanBlockHeader (text : List Char) : BlockHeader × List Char :=
  match text with
  | [] => (⟨.clip, none⟩, [])
  | c :: rest =>
    match chomping? c, indentDigit? c with
    | some chomping, _ =>
      match rest.head?.bind indentDigit? with
      | some indent => (⟨chomping, some indent⟩, rest.tail)
      | none => (⟨chomping, none⟩, rest)
    | none, some indent =>
      match rest.head?.bind chomping? with
      | some chomping => (⟨chomping, some indent⟩, rest.tail)
      | none => (⟨.clip, some indent⟩, rest)
    | none, none => (⟨.clip, none⟩, text)

/-- What follows the end of a line that holds nothing more than blanks and a comment. -/
def restOfLine? (text : List Char) : Option (List Char) :=
  match text.dropWhile isSpace with
  | [] => some []
  | c :: rest =>
    if isBreak c then some rest
    else if c = '#' then some ((rest.dropWhile fun c => !isBreak c).drop 1)
    else none

/-- The indentation of the first line that holds more than spaces, but no less than that of any
line in front of it, which is `greatest` so far. A tab may not stand among the spaces. -/
def firstIndent? (column greatest : Nat) : List Char → Option Nat
  | [] => some (max column greatest)
  | c :: rest =>
    if c = ' ' then firstIndent? (column + 1) greatest rest
    else if c = '\t' then none
    else if isBreak c then firstIndent? 0 (max column greatest) rest
    else some (max column greatest)

/-- The indentation of a block scalar for a parent whose content starts at column `least` or further
right: what its header gives beyond the parent, or else what its first line shows. -/
def blockIndent? (given : Option Nat) (least : Nat) (text : List Char) : Option Nat :=
  match given with
  | some indent => some (if least = 0 then indent else least - 1 + indent)
  | none => (firstIndent? 0 0 text).map fun indent => max (max indent least) 1

/-- What a block scalar is scanned by. -/
structure BlockContext where
  /-- Whether single line breaks are folded. -/
  folded : Bool
  chomping : Chomping
  indent : Nat
  deriving DecidableEq, Repr

/-- What has been scanned of a block scalar in front of a line. -/
structure BlockScan where
  /-- The content lines, in reverse order. -/
  reversed : List Char
  /-- The break behind the last content line. -/
  final : List Char
  /-- The breaks of the empty lines behind it, in reverse order. -/
  trailing : List Char
  /-- Whether the last content line starts with a blank. -/
  startsBlank : Bool
  deriving DecidableEq, Repr

namespace BlockScan

/-- Nothing yet. -/
def empty : BlockScan :=
  ⟨[], [], [], false⟩

/-- The scan with the first character of a further content line. A single line feed between lines
is folded where neither starts with a blank. -/
def startLine (scan : BlockScan) (folded : Bool) (c : Char) : BlockScan :=
  let joint :=
    if folded && scan.final == ['\n'] && !scan.startsBlank && !isSpace c then
      if scan.trailing.isEmpty then [' '] else []
    else scan.final
  ⟨c :: (scan.trailing ++ (joint ++ scan.reversed)), [], [], isSpace c⟩

/-- The text of the scalar that ends here. -/
def text (scan : BlockScan) (chomping : Chomping) : List Char :=
  scan.reversed.reverse ++ chomping.tail scan.final scan.trailing.reverse

end BlockScan

/-- Scans the lines of a block scalar, either inside the content of one, as `inLine` says, or in the
indentation of one. -/
def scanLines (context : BlockContext) (inLine : Bool) (scan : BlockScan) (position : Position) :
    List Char → Option (List Char × Cursor)
  | [] => some (scan.text context.chomping, ⟨[], position⟩)
  | c :: rest =>
    if inLine then
      if isBreak c then
        scanLines context false { scan with final := [c] } (position.after c) rest
      else
        scanLines context true { scan with reversed := c :: scan.reversed } (position.after c) rest
    else if isBreak c then
      scanLines context false { scan with trailing := c :: scan.trailing } (position.after c) rest
    else if position.column < context.indent then
      if c = ' ' then scanLines context false scan (position.after c) rest
      else if c = '\t' then none
      else some (scan.text context.chomping, ⟨c :: rest, position⟩)
    else scanLines context true (scan.startLine context.folded c) (position.after c) rest

/-- Scans a block scalar behind its mark, for a parent whose content starts at column `least` or
further right. -/
def scanBlock (folded : Bool) (least : Nat) (cursor : Cursor) : Option (List Char × Cursor) :=
  let (header, behind) := scanBlockHeader cursor.rest
  match restOfLine? behind with
  | none => none
  | some lines =>
    match blockIndent? header.indent least lines with
    | none => none
    | some indent =>
      scanLines ⟨folded, header.chomping, indent⟩ false .empty (cursor.skipTo lines).position lines

end RecordDiff.Yaml
