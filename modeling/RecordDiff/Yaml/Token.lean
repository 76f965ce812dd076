import RecordDiff.Yaml.Property

/-!
Tokens of a YAML text. In block form the column of a token says what it belongs to, so the tokens
hold marks for the start and the end of block collections that nothing in the text stands for. A
key needs no mark of its own: a token becomes a key when a colon follows it on the same line, not
too far away, at a place where a key may start. Main statements:

- `skipGap_of_token`: nothing is skipped in front of a token;
- `Lexer.dedent_of_within`: no collection ends in front of a token that is indented far enough.
-/

namespace RecordDiff.Yaml

/-- A token. -/
inductive Token where
  | directive (content : Directive)
  | documentStart
  | documentEnd
  | blockSequence
  | blockMapping
  /-- The end of a block sequence or a block mapping. -/
  | blockEnd
  | flowSequence
  | flowSequenceEnd
  | flowMapping
  | flowMappingEnd
  /-- The comma between entries in flow form. -/
  | separator
  /-- The dash in front of an item in block form. -/
  | item
  | key
  | value
  | anchor (name : List Char)
  /-- An alias for the node of a name. -/
  | reference (name : List Char)
  | tag (content : Tag)
  | scalar (style : Style) (text : List Char)
  deriving DecidableEq, Repr

/-! ### Blanks and comments -/

/-- Skips what may stand between two tokens. A tab counts as a blank only where no block key may
start, which is said by `keys`; a line break in block form is what allows keys again. -/
def skipGap (flow keys comment : Bool) (position : Position) : List Char → Cursor × Bool
  | [] => (⟨[], position⟩, keys)
  | c :: rest =>
    if isBreak c then skipGap flow (keys || !flow) false (position.after c) rest
    else if comment || c == '#' then skipGap flow keys true (position.after c) rest
    else if c == ' ' || (c == '\t' && (flow || !keys)) ||
        (c == byteOrderMark && position.column == 0) then
      skipGap flow keys false (position.after c) rest
    else (⟨c :: rest, position⟩, keys)

/-! ### Lexers -/

/-- A place where a key may have started. -/
structure Candidate where
  /-- The number of tokens in front of it. -/
  index : Nat
  position : Position
  /-- Whether nothing but a key may stand there: a token in the column of a block collection. -/
  required : Bool
  deriving DecidableEq, Repr

/-- The tokens of the first part of a text, and what decides on the further ones. -/
structure Lexer where
  cursor : Cursor
  /-- The tokens, the last one first. -/
  tokens : List Token
  /-- The number of tokens. -/
  count : Nat
  /-- The columns of the open block collections, the innermost one first. -/
  indents : List Nat
  /-- Whether a key may start at the next token. -/
  keys : Bool
  /-- Where the key of a colon that is still to come may have started. -/
  candidate : Option Candidate
  /-- The same for what encloses each open flow collection, the innermost one first. -/
  enclosing : List (Option Candidate)
  deriving DecidableEq, Repr

namespace Lexer

/-- The lexer in front of a text. -/
def start (text : List Char) : Lexer :=
  ⟨⟨text, .start⟩, [], 0, [], true, none, []⟩

/-- Whether a flow collection is open. -/
def inFlow (lexer : Lexer) : Bool :=
  !lexer.enclosing.isEmpty

/-- The column of the next token. -/
def column (lexer : Lexer) : Nat :=
  lexer.cursor.column

/-- The least column for what belongs to the innermost block collection. -/
def least (lexer : Lexer) : Nat :=
  match lexer.indents with
  | [] => 0
  | column :: _ => column + 1

/-- The lexer with a token more. -/
def emit (lexer : Lexer) (token : Token) : Lexer :=
  { lexer with tokens := token :: lexer.tokens, count := lexer.count + 1 }

/-- The lexer with a token put behind the first so many tokens. -/
def insert (lexer : Lexer) (index : Nat) (token : Token) : Lexer :=
  { lexer with
    tokens := lexer.tokens.insertIdx (lexer.count - index) token
    count := lexer.count + 1 }

/-- The lexer with a token of so many characters more. -/
def take (lexer : Lexer) (length : Nat) (token : Token) : Lexer :=
  { lexer.emit token with cursor := lexer.cursor.skip length }

/-- The lexer with a token more, and `after` as what follows it. -/
def takeTo (lexer : Lexer) (after : Cursor) (token : Token) : Lexer :=
  { lexer.emit token with cursor := after }

/-! #### Block collections -/

/-- Closes the block collections whose column is beyond the given one. -/
def dedent (lexer : Lexer) (column : Nat) : Lexer :=
  if lexer.inFlow then lexer
  else
    let closed := (lexer.indents.takeWhile (column < ·)).length
    { lexer with
      tokens := List.replicate closed .blockEnd ++ lexer.tokens
      count := lexer.count + closed
      indents := lexer.indents.dropWhile (column < ·) }

/-- Closes all block collections. -/
def dedentAll (lexer : Lexer) : Lexer :=
  if lexer.inFlow then lexer
  else
    { lexer with
      tokens := List.replicate lexer.indents.length .blockEnd ++ lexer.tokens
      count := lexer.count + lexer.indents.length
      indents := [] }

/-- Opens a block collection in a column beyond that of the innermost one, with its first token put
behind the first so many tokens. -/
def openBlock (lexer : Lexer) (column index : Nat) (first : Token) : Lexer :=
  if lexer.inFlow || column < lexer.least then lexer
  else { lexer.insert index first with indents := column :: lexer.indents }

/-! #### Keys -/

/-- Gives up the place where a key may have started; a required key is missing then. -/
def forget (lexer : Lexer) : Option Lexer :=
  match lexer.candidate with
  | some candidate => if candidate.required then none else some { lexer with candidate := none }
  | none => some lexer

/-- The greatest number of octets between the start of a key and its colon. -/
def maxKeyLength : Nat := 1024

/-- Gives up a place on an earlier line, or too far away. -/
def forgetStale (lexer : Lexer) : Option Lexer :=
  match lexer.candidate with
  | some candidate =>
    let position := lexer.cursor.position
    if candidate.position.line < position.line ||
        candidate.position.octets + maxKeyLength < position.octets then lexer.forget
    else some lexer
  | none => some lexer

/-- Remembers that a key may start at the next token, if one may. -/
def markKey (lexer : Lexer) : Option Lexer :=
  if lexer.keys then
    lexer.forget.map fun lexer =>
      { lexer with
        candidate := some
          ⟨lexer.count, lexer.cursor.position,
            !lexer.inFlow && lexer.indents.head? == some lexer.column⟩ }
  else some lexer

/-! #### Marks -/

/-- Takes a mark between documents, which is three characters long. -/
def takeDocumentMark (lexer : Lexer) (token : Token) : Option Lexer :=
  lexer.dedentAll.forget.map fun lexer => { lexer.take 3 token with keys := false }

/-- Takes a directive. -/
def takeDirective (lexer : Lexer) : Option Lexer :=
  match lexer.dedentAll.forget, scanDirective? (lexer.cursor.rest.drop 1) with
  | some lexer, some (directive, rest) =>
    some { lexer.takeTo (lexer.cursor.skipTo rest) (.directive directive) with keys := false }
  | _, _ => none

/-- Takes an opening bracket. -/
def takeOpening (lexer : Lexer) (token : Token) : Option Lexer :=
  lexer.markKey.map fun lexer =>
    { lexer.take 1 token with
      keys := true
      candidate := none
      enclosing := lexer.candidate :: lexer.enclosing }

/-- Takes a closing bracket. -/
def takeClosing (lexer : Lexer) (token : Token) : Option Lexer :=
  lexer.forget.map fun lexer =>
    { lexer.take 1 token with
      keys := false
      candidate := lexer.enclosing.head?.join
      enclosing := lexer.enclosing.tail }

/-- Takes a comma in flow form. -/
def takeSeparator (lexer : Lexer) : Option Lexer :=
  lexer.forget.map fun lexer => { lexer.take 1 .separator with keys := true }

/-- Takes a dash. In block form it opens a sequence, unless one is open in its column. -/
def takeItem (lexer : Lexer) : Option Lexer :=
  if !lexer.inFlow && !lexer.keys then none
  else
    (lexer.openBlock lexer.column lexer.count .blockSequence).forget.map fun lexer =>
      { lexer.take 1 .item with keys := true }

/-- Takes the mark of a key. In block form it opens a mapping, unless one is open in its column. -/
def takeKey (lexer : Lexer) : Option Lexer :=
  if !lexer.inFlow && !lexer.keys then none
  else
    (lexer.openBlock lexer.column lexer.count .blockMapping).forget.map fun lexer =>
      { lexer.take 1 .key with keys := !lexer.inFlow }

/-- Takes a colon. What stands since the place where a key may have started is its key. -/
def takeValue (lexer : Lexer) : Option Lexer :=
  match lexer.candidate with
  | some candidate =>
    let marked := lexer.insert candidate.index .key
    let opened := marked.openBlock candidate.position.column candidate.index .blockMapping
    some { opened.take 1 .value with keys := false, candidate := none }
  | none =>
    if lexer.inFlow then some { lexer.take 1 .value with keys := false }
    else if !lexer.keys then none
    else
      some
        { (lexer.openBlock lexer.column lexer.count .blockMapping).take 1 .value with keys := true }

/-! #### Properties and scalars -/

/-- Takes the name of a node, or an alias for one. -/
def takeName (lexer : Lexer) (token : List Char → Token) : Option Lexer :=
  match lexer.markKey, scanName? (lexer.cursor.rest.drop 1) with
  | some lexer, some (name, rest) =>
    some { lexer.takeTo (lexer.cursor.skipTo rest) (token name) with keys := false }
  | _, _ => none

/-- Takes a tag. -/
def takeTag (lexer : Lexer) : Option Lexer :=
  match lexer.markKey, scanTag? (lexer.cursor.rest.drop 1) with
  | some lexer, some (tag, rest) =>
    if endsTag lexer.inFlow rest then
      some { lexer.takeTo (lexer.cursor.skipTo rest) (.tag tag) with keys := false }
    else none
  | _, _ => none

/-- Takes a block scalar. -/
def takeBlockScalar (lexer : Lexer) (style : Style) : Option Lexer :=
  match lexer.forget, scanBlock (style = .folded) lexer.least (lexer.cursor.skip 1) with
  | some lexer, some (text, after) =>
    some { lexer.takeTo after (.scalar style text) with keys := true }
  | _, _ => none

/-- Takes a quoted scalar. -/
def takeQuoted (lexer : Lexer) (quotes : Quotes) : Option Lexer :=
  let behind := lexer.cursor.skip 1
  match lexer.markKey, scanQuoted quotes .text [] .none behind.position behind.rest with
  | some lexer, some (text, after) =>
    some { lexer.takeTo after (.scalar quotes.style text) with keys := false }
  | _, _ => none

/-- Takes a plain scalar. A key may start behind it if another line does. -/
def takePlain (lexer : Lexer) : Option Lexer :=
  match lexer.markKey,
      scanPlain ⟨lexer.inFlow, lexer.least⟩ [] .none lexer.cursor.position lexer.cursor.rest with
  | some lexer, some scan =>
    some { lexer.takeTo scan.after (.scalar .plain scan.text) with keys := scan.crossesLine }
  | _, _ => none

/-! #### Reading -/

/-- Whether the text starts with a mark that ends a token, or stands in flow form where it need
not. -/
def startsIndicator (mark : Char) (flow : Bool) : List Char → Bool
  | [] => false
  | c :: rest => c == mark && (flow || endsToken rest)

/-- What may not start a plain scalar: a blank, or a mark that means something else. -/
def isReserved (c : Char) : Bool :=
  isFlowMark c || c == '#' || c == '&' || c == '*' || c == '!' || c == '|' || c == '>' ||
    c == '\'' || c == '"' || c == '%' || c == '@' || c.toNat == 0x60 || isSpace c || isBreak c

/-- Takes the token at the cursor, where a character stands. -/
def takeToken (lexer : Lexer) (c : Char) : Option Lexer :=
  let text := lexer.cursor.rest
  if lexer.column = 0 ∧ c = '%' then lexer.takeDirective
  else if lexer.cursor.atStartMark then lexer.takeDocumentMark .documentStart
  else if lexer.cursor.atEndMark then lexer.takeDocumentMark .documentEnd
  else if c = '[' then lexer.takeOpening .flowSequence
  else if c = '\x7b' then lexer.takeOpening .flowMapping
  else if c = ']' then lexer.takeClosing .flowSequenceEnd
  else if c = '\x7d' then lexer.takeClosing .flowMappingEnd
  else if c = ',' then lexer.takeSeparator
  else if startsIndicator '-' false text then lexer.takeItem
  else if startsIndicator '?' lexer.inFlow text then lexer.takeKey
  else if startsIndicator ':' lexer.inFlow text then lexer.takeValue
  else if c = '*' then lexer.takeName .reference
  else if c = '&' then lexer.takeName .anchor
  else if c = '!' then lexer.takeTag
  else if c = '|' ∧ !lexer.inFlow then lexer.takeBlockScalar .literal
  else if c = '>' ∧ !lexer.inFlow then lexer.takeBlockScalar .folded
  else if c = '\'' then lexer.takeQuoted .single
  else if c = '"' then lexer.takeQuoted .double
  else if isReserved c then none
  else lexer.takePlain

/-- The lexer in front of the next token. -/
def toNext (lexer : Lexer) : Lexer :=
  let (cursor, keys) :=
    skipGap lexer.inFlow lexer.keys false lexer.cursor.position lexer.cursor.rest
  { lexer with cursor, keys }

/-- Takes all further tokens. -/
def run : (fuel : Nat) → Lexer → Option Lexer
  | 0, _ => none
  | fuel + 1, lexer =>
    match lexer.toNext.forgetStale with
    | none => none
    | some lexer =>
      match lexer.cursor.rest with
      | [] => lexer.dedentAll.forget
      | c :: _ =>
        match (lexer.dedent lexer.column).takeToken c with
        | none => none
        | some lexer => run fuel lexer

end Lexer

/-- The tokens of a text whose line ends are unified. Each token but those without a text of their
own takes at least one character. -/
def tokens? (text : List Char) : Option (List Token) :=
  ((Lexer.start text).run (text.length + 1)).map fun lexer => lexer.tokens.reverse

/-! ### Small laws -/

theorem skipGap_of_token {flow keys : Bool} {position : Position} {c : Char} {rest : List Char}
    (noBreak : isBreak c = false) (noSpace : isSpace c = false) (noComment : c ≠ '#')
    (noMark : c ≠ byteOrderMark) :
    skipGap flow keys false position (c :: rest) = (⟨c :: rest, position⟩, keys) := by
  simp only [isSpace, Bool.or_eq_false_iff, beq_eq_false_iff_ne] at noSpace
  simp [skipGap, noBreak, noComment, noSpace.1, noSpace.2, noMark]

theorem Lexer.dedent_of_within {lexer : Lexer} {column : Nat}
    (within : ∀ indent ∈ lexer.indents, indent ≤ column) : lexer.dedent column = lexer := by
  have keep : ∀ indent ∈ lexer.indents.head?, ¬column < indent := by
    intro indent first
    exact Nat.not_lt.mpr (within indent (List.mem_of_mem_head? first))
  unfold dedent
  split
  · rfl
  · cases lexer with
    | mk cursor tokens count indents keys candidate enclosing =>
      cases indents with
      | nil => rfl
      | cons indent outer =>
        have stays : ¬column < indent := keep indent (by simp)
        simp [stays]

end RecordDiff.Yaml
