import RecordDiff.Yaml.Resolution

/-!
Writing a text as the value of a block entry. It is written plain where that reads back as the same
text, else between single quotes, else between double quotes with escapes; a text of several lines
is written as a literal block where its blanks allow.
-/

namespace RecordDiff.Yaml

/-- A mark that may not start a plain scalar, whatever follows it. -/
def isIndicator (c : Char) : Bool :=
  c == '#' || c == ',' || c == '[' || c == ']' || c == '\x7b' || c == '\x7d' || c == '&' ||
    c == '*' || c == '!' || c == '|' || c == '>' || c == '\'' || c == '"' || c == '%' ||
    c == '@' || c.toNat == 0x60

/-- Whether a mark behind the first character would end a plain scalar: a colon that ends a token,
or a number sign behind a blank. -/
def hasInnerIndicator (afterBlank : Bool) : List Char → Bool
  | [] => false
  | c :: rest =>
    (c == ':' && endsToken rest) || (c == '#' && afterBlank) ||
      hasInnerIndicator (isSpace c || isBreak c) rest

/-- Whether marks keep a text from being written plain in block form. -/
def hasIndicator (text : List Char) : Bool :=
  match text with
  | [] => false
  | c :: rest =>
    "---".toList.isPrefixOf text || "...".toList.isPrefixOf text || isIndicator c ||
      ((c == '?' || c == ':' || c == '-') && endsToken rest) ||
      hasInnerIndicator (isSpace c || isBreak c) rest

/-- Whether some character of the text is followed at once by another one, as two tests say. -/
def hasPair (first second : Char → Bool) : List Char → Bool
  | [] => false
  | [_] => false
  | c :: d :: rest => (first c && second d) || hasPair first second (d :: rest)

/-- A space, and no tab. -/
def isPlainSpace (c : Char) : Bool :=
  c == ' '

/-- Whether the text ends in a character of some kind. -/
def endsIn (test : Char → Bool) (text : List Char) : Bool :=
  match text.getLast? with
  | none => false
  | some c => test c

/-- Whether the text starts with a character of some kind. -/
def startsIn (test : Char → Bool) (text : List Char) : Bool :=
  match text with
  | [] => false
  | c :: _ => test c

/-- Whether only escapes can carry the text: it has a character that is not printable, or a line
that ends in a space. -/
def needsEscapes (text : List Char) : Bool :=
  !text.all isPrintable || hasPair isPlainSpace isBreak text

/-- Whether the text may stand between single quotes. -/
def allowsSingle (text : List Char) : Bool :=
  !needsEscapes text && !hasPair isBreak isPlainSpace text

/-- Whether the text may be a literal block. -/
def allowsBlock (text : List Char) : Bool :=
  !text.isEmpty && !needsEscapes text && !endsIn isPlainSpace text

/-- Whether the text may be written plain in block form. -/
def allowsPlain (text : List Char) : Bool :=
  allowsSingle text && !text.any isBreak && !startsIn isPlainSpace text &&
    !endsIn isPlainSpace text && !hasIndicator text

/-- The ways to write a text. -/
inductive Form where
  | plain
  | single
  | double
  | literal
  deriving DecidableEq, Repr

/-- The way in which a text is written. -/
def Form.ofText (text : List Char) : Form :=
  if text.contains '\n' then
    if allowsBlock text then .literal else .double
  else if !readsAsOther text && allowsPlain text then .plain
  else if allowsSingle text then .single
  else .double

/-! ### Between quotes -/

/-- The characters of a text between single quotes. A quote is written twice, and the line behind a
break starts with the indentation. -/
def writeSingle (indent : Nat) (afterBreak : Bool) : List Char → List Char
  | [] => if afterBreak then List.replicate indent ' ' else []
  | c :: rest =>
    if isBreak c then c :: writeSingle indent true rest
    else
      (if afterBreak then List.replicate indent ' ' else []) ++
        (if c = '\'' then ['\'', '\''] else [c]) ++ writeSingle indent false rest

/-- The letter that stands for a character behind a backslash. -/
def escapeLetter? (c : Char) : Option Char :=
  match c with
  | '\x00' => some '0'
  | '\x07' => some 'a'
  | '\x08' => some 'b'
  | '\t' => some 't'
  | '\n' => some 'n'
  | '\x0b' => some 'v'
  | '\x0c' => some 'f'
  | '\r' => some 'r'
  | '\x1b' => some 'e'
  | '"' => some '"'
  | '\\' => some '\\'
  | '\u0085' => some 'N'
  | '\u2028' => some 'L'
  | '\u2029' => some 'P'
  | _ => none

/-- So many uppercase hexadecimal digits of a number, the last ones. -/
def upperHex (width value : Nat) : List Char :=
  match width with
  | 0 => []
  | width + 1 => upperHex width (value / 16) ++ [(Text.hexDigit (value % 16)).toUpper]

/-- A character by its code point behind a backslash, in as few of 2, 4 or 8 digits as hold it. -/
def escapePoint (c : Char) : List Char :=
  if c.toNat < 0x100 then 'x' :: upperHex 2 c.toNat
  else if c.toNat < 0x10000 then 'u' :: upperHex 4 c.toNat
  else 'U' :: upperHex 8 c.toNat

/-- A character between double quotes. -/
def escapeWritten (c : Char) : List Char :=
  if isPrintable c && !isBreak c && c != '"' && c != '\\' then [c]
  else
    match escapeLetter? c with
    | some letter => ['\\', letter]
    | none => '\\' :: escapePoint c

/-! ### Literal blocks -/

/-- What the header of a literal block says about the line breaks at its end. -/
def chompingMark (text : List Char) : List Char :=
  match text.reverse with
  | [] => ['-']
  | last :: before =>
    if !isBreak last then ['-']
    else
      match before with
      | [] => ['+']
      | c :: _ => if isBreak c then ['+'] else []

/-- The lines of a literal block. -/
def writeLiteral (indent : Nat) (afterBreak : Bool) : List Char → List Char
  | [] => []
  | c :: rest =>
    if isBreak c then c :: writeLiteral indent true rest
    else
      (if afterBreak then List.replicate indent ' ' else []) ++
        c :: writeLiteral indent false rest

/-- The indentation of what belongs to an entry, beyond that of its mapping. -/
def indentStep : Nat := 2

/-- A text as the value of an entry, with further lines indented. -/
def writeText (indent : Nat) (text : List Char) : List Char :=
  match Form.ofText text with
  | .plain => text
  | .single => '\'' :: writeSingle indent false text ++ ['\'']
  | .double => '"' :: text.flatMap escapeWritten ++ ['"']
  | .literal =>
    let hint := if startsIn (fun c => isPlainSpace c || isBreak c) text then ['2'] else []
    '|' :: hint ++ chompingMark text ++ ['\n'] ++ writeLiteral indent true text

/-- An entry of a block mapping on lines of its own. -/
def writeEntry (key value : List Char) : List Char :=
  let entry := key ++ [':', ' '] ++ value
  if endsIn isBreak entry then entry else entry ++ ['\n']

end RecordDiff.Yaml
