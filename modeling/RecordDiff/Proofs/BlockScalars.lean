import RecordDiff.Proofs.LineScalars

/-!
Scalars as values of entries on lines of their own. Behind such a scalar the lexer has its token and
stands in front of the next line, however the scalar is written. Main statements:

- `Lexer.scanPlain_lineEnd`: a plain scalar ends with its line;
- `Lexer.spells_plain`, `Lexer.spells_quoted`: a text that may stand plain spells itself, and what
  stands between quotes for a text spells it;
- `Lexer.spells_writeText`: what is written for a text spells it.
-/

namespace RecordDiff.Yaml

/-! ### Lines -/

/-- A text that is at its end, or starts with a line of an outer block. -/
def NextLine (least : Nat) (text : List Char) : Prop :=
  text = [] ∨ ∃ column c rest, text = List.replicate column ' ' ++ c :: rest ∧ StartsToken c ∧
    column < least

/-- What may stand behind a scalar: nothing, or a line feed and then nothing more or a line of an
outer block. -/
def LineEnd (least : Nat) (text : List Char) : Prop :=
  text = [] ∨ ∃ next, text = '\n' :: next ∧ NextLine least next

theorem LineEnd.endsToken {least : Nat} {text : List Char} (lineEnd : LineEnd least text) :
    endsToken text = true := by
  rcases lineEnd with rfl | ⟨next, rfl, -⟩ <;> rfl

theorem LineEnd.noQuote {least : Nat} {text : List Char} (lineEnd : LineEnd least text) :
    text.head? ≠ some '\'' := by
  rcases lineEnd with rfl | ⟨next, rfl, -⟩ <;> simp

/-! ### Lexers in front of a line -/

namespace Lexer

/-- A lexer in block form that has no place in mind where a key may have started. -/
def block (keys : Bool) (text : List Char) (position : Position) (tokens : List Token)
    (indents : List Nat) : Lexer :=
  ⟨⟨text, position⟩, tokens, tokens.length, indents, keys, none, []⟩

variable {keys : Bool} {position : Position} {tokens : List Token} {indents : List Nat}

/-- What is skipped in front of a token decides nothing else. -/
theorem run_congr {lexer other : Lexer} (same : lexer.toNext = other.toNext) (fuel : Nat) :
    lexer.run fuel = other.run fuel := by
  cases fuel with
  | zero => rfl
  | succ fuel => simp only [run, same]

/-- After at most so many steps the run of a lexer is that of another one. -/
def Leads (most : Nat) (lexer other : Lexer) : Prop :=
  ∃ count ≤ most, ∀ fuel, lexer.run (fuel + count) = other.run fuel

theorem Leads.of_toNext_eq {lexer other : Lexer} (same : lexer.toNext = other.toNext) :
    Leads 0 lexer other :=
  ⟨0, Nat.le_refl 0, fun fuel => run_congr same fuel⟩

theorem Leads.trans {lexer between other : Lexer} {first second : Nat}
    (front : Leads first lexer between) (back : Leads second between other) :
    Leads (first + second) lexer other := by
  obtain ⟨few, small, front⟩ := front
  obtain ⟨more, least, back⟩ := back
  refine ⟨few + more, Nat.add_le_add small least, fun fuel => ?_⟩
  rw [Nat.add_comm few, ← Nat.add_assoc, front, back]

theorem Leads.mono {lexer other : Lexer} {few most : Nat} (leads : Leads few lexer other)
    (less : few ≤ most) : Leads most lexer other := by
  obtain ⟨count, small, same⟩ := leads
  exact ⟨count, Nat.le_trans small less, same⟩

theorem skipGap_spaces {flow keys : Bool} (count : Nat) {position : Position} (rest : List Char) :
    skipGap flow keys false position (List.replicate count ' ' ++ rest) =
      skipGap flow keys false (position.afterAll (List.replicate count ' ')) rest := by
  induction count generalizing position with
  | zero => rfl
  | succ count ih =>
    rw [List.replicate_succ, List.cons_append, Position.afterAll_cons, ← ih]
    simp [skipGap, isBreak]

/-- The spaces in front of a token are skipped. -/
theorem toNext_spaces (count : Nat) {c : Char} {rest : List Char} (starts : StartsToken c) :
    (block keys (List.replicate count ' ' ++ c :: rest) position tokens indents).toNext =
      block keys (c :: rest) (position.afterAll (List.replicate count ' ')) tokens indents := by
  have skipped (place : Position) :
      skipGap false keys false place (c :: rest) = (⟨c :: rest, place⟩, keys) :=
    skipGap_of_token starts.noBreak starts.noSpace starts.noComment starts.noMark
  simp [toNext, block, inFlow, skipGap_spaces, skipped]

theorem toNext_token {c : Char} {rest : List Char} (starts : StartsToken c) :
    (block keys (c :: rest) position tokens indents).toNext =
      block keys (c :: rest) position tokens indents :=
  toNext_spaces 0 starts

/-- Behind a line feed a key may start. -/
theorem toNext_lineFeed (rest : List Char) :
    (block keys ('\n' :: rest) position tokens indents).toNext =
      (block true rest (position.after '\n') tokens indents).toNext := by
  simp [toNext, block, inFlow, skipGap, isBreak]

/-- A token is taken in front of which nothing is to be skipped and no collection ends. -/
theorem run_take {text : List Char} {c : Char} {rest : List Char} {place : Position}
    {after : Lexer} (next : (block keys text position tokens indents).toNext =
      block keys (c :: rest) place tokens indents)
    (within : ∀ indent ∈ indents, indent ≤ place.column)
    (taken : (block keys (c :: rest) place tokens indents).takeToken c = some after) :
    Leads 1 (block keys text position tokens indents) after := by
  refine ⟨1, Nat.le_refl 1, fun fuel => ?_⟩
  have fresh : (block keys (c :: rest) place tokens indents).forgetStale =
      some (block keys (c :: rest) place tokens indents) := rfl
  have kept : (block keys (c :: rest) place tokens indents).dedent place.column =
      block keys (c :: rest) place tokens indents := dedent_of_within within
  simp only [run, next, fresh]
  simp [block, column, Cursor.column] at kept taken ⊢
  rw [kept, taken]

/-- What is no mark of any kind starts a plain scalar. -/
theorem takeToken_plain {lexer : Lexer} {c : Char} {rest : List Char}
    (here : lexer.cursor.rest = c :: rest) (noFlow : lexer.inFlow = false)
    (unreserved : isReserved c = false) (noMark : lexer.cursor.atDocumentMark = false)
    (noItem : startsIndicator '-' false (c :: rest) = false)
    (noKey : startsIndicator '?' false (c :: rest) = false)
    (noValue : startsIndicator ':' false (c :: rest) = false) :
    lexer.takeToken c = lexer.takePlain := by
  have reserved := unreserved
  simp only [isReserved, isFlowMark, Bool.or_eq_false_iff, beq_eq_false_iff_ne] at reserved
  simp only [Cursor.atDocumentMark, Bool.or_eq_false_iff] at noMark
  simp [takeToken, here, noFlow, unreserved, noMark, noItem, noKey, noValue, reserved]

/-! ### Scalars -/

/-- A text that stands for a scalar of a style where it is the value of an entry on a line of its
own, in a block whose keys stand further left. -/
def Spells (written : List Char) (style : Style) (text : List Char) : Prop :=
  ∃ c behind, written = c :: behind ∧ StartsToken c ∧
    ∀ (rest : List Char) (position : Position) (tokens : List Token) (column : Nat)
      (outer : List Nat), column < position.column → LineEnd (column + 1) rest →
        ∃ after,
          (block false (written ++ rest) position tokens (column :: outer)).takeToken c =
            some after ∧
          after.toNext = (block false rest (position.afterAll written)
            (.scalar style text :: tokens) (column :: outer)).toNext

/-- A plain scalar is taken as it is scanned; where a key may start it may be one. -/
theorem takePlain_block {text : List Char} {scan : PlainScan}
    (scanned : scanPlain ⟨false, (block keys text position tokens indents).least⟩ [] .none
      position text = some scan) :
    (block keys text position tokens indents).takePlain =
      some
        { block scan.crossesLine scan.after.rest scan.after.position
            (.scalar .plain scan.text :: tokens) indents with
          candidate :=
            if keys then some ⟨tokens.length, position, indents.head? == some position.column⟩
            else none } := by
  cases keys <;>
    simp_all [takePlain, markKey, forget, block, inFlow, takeTo, emit, column, Cursor.column]

theorem takeToken_quoteMark {quotes : Quotes} {rest : List Char} :
    (block keys (quoteMark quotes :: rest) position tokens indents).takeToken (quoteMark quotes) =
      (block keys (quoteMark quotes :: rest) position tokens indents).takeQuoted quotes := by
  cases quotes <;>
    simp [takeToken, quoteMark, block, Cursor.atStartMark, Cursor.atEndMark, startsMark_of_ne,
      startsIndicator]

theorem startsToken_quoteMark (quotes : Quotes) : StartsToken (quoteMark quotes) := by
  cases quotes <;> exact ⟨by decide, by decide, by decide, by decide⟩

/-- A quoted scalar is taken as it is scanned; where a key may start it may be one. -/
theorem takeToken_quoted {quotes : Quotes} {body text : List Char}
    (quoted : InQuotes quotes body text) {rest : List Char} (ends : rest.head? ≠ some '\'') :
    (block keys (quoteMark quotes :: body ++ [quoteMark quotes] ++ rest) position tokens
        indents).takeToken (quoteMark quotes) =
      some
        { block false rest (position.afterAll (quoteMark quotes :: body ++ [quoteMark quotes]))
            (.scalar quotes.style text :: tokens) indents with
          candidate :=
            if keys then some ⟨tokens.length, position, indents.head? == some position.column⟩
            else none } := by
  have inside : (position.after (quoteMark quotes)).column ≠ 0 := by
    rw [Position.column_after (startsToken_quoteMark quotes).noBreak]
    omega
  have scan := quoted rest (position.after (quoteMark quotes)) inside ends
  rw [List.append_assoc, List.singleton_append, List.cons_append, takeToken_quoteMark]
  cases keys <;>
    simp [takeQuoted, markKey, forget, block, inFlow, takeTo, emit, column, Cursor.column,
      Cursor.skip, scan]

/-- What stands between quotes for a text spells it with its quotes. -/
theorem spells_quoted {quotes : Quotes} {body text : List Char}
    (quoted : InQuotes quotes body text) :
    Spells (quoteMark quotes :: body ++ [quoteMark quotes]) quotes.style text := by
  refine ⟨_, _, rfl, startsToken_quoteMark quotes,
    fun rest position tokens column outer left lineEnd => ?_⟩
  exact ⟨_, takeToken_quoted quoted lineEnd.noQuote, rfl⟩

theorem scanPlain_replicate {context : PlainContext} {reversed breaks : List Char}
    {first : Option Char} {position : Position} (count : Nat) (rest : List Char) :
    scanPlain context reversed (.breaks first breaks) position
        (List.replicate count ' ' ++ rest) =
      scanPlain context reversed (.breaks first breaks)
        (position.afterAll (List.replicate count ' ')) rest := by
  induction count generalizing position with
  | zero => rfl
  | succ count ih =>
    rw [List.replicate_succ, List.cons_append, Position.afterAll_cons, ← ih]
    simp [scanPlain, isBreak, isSpace, Gap.addSpace]

/-- A plain scalar ends in front of the next line, and the indentation there is skipped. -/
theorem scanPlain_nextLine {least : Nat} {rest : List Char} (nextLine : NextLine least rest)
    (reversed : List Char) (position : Position) (tokens : List Token) (indents : List Nat) :
    ∃ scan, scanPlain ⟨false, least⟩ reversed .none position ('\n' :: rest) = some scan ∧
      scan.text = reversed.reverse ∧
      (block scan.crossesLine scan.after.rest scan.after.position tokens indents).toNext =
        (block true rest (position.after '\n') tokens indents).toNext := by
  have opened : scanPlain ⟨false, least⟩ reversed .none position ('\n' :: rest) =
      scanPlain ⟨false, least⟩ reversed (.breaks (some '\n') []) (position.after '\n') rest := by
    simp [scanPlain, isBreak, Gap.none, Gap.addBreak]
  rw [opened]
  -- the scan sees that the scalar has ended only behind the indentation of the next line
  rcases nextLine with rfl | ⟨indent, c, behind, rfl, starts, outside⟩
  · exact ⟨_, rfl, rfl, rfl⟩
  · have place : ((position.after '\n').afterAll (List.replicate indent ' ')).column = indent := by
      rw [Position.column_afterAll_replicate, Position.after_break rfl, Nat.zero_add]
    refine ⟨⟨reversed.reverse,
      ⟨c :: behind, (position.after '\n').afterAll (List.replicate indent ' ')⟩, true⟩, ?_, rfl, ?_⟩
    · rw [scanPlain_replicate]
      simp [scanPlain, starts.noBreak, starts.noSpace, stopsPlain, Gap.isNone, place, outside,
        Gap.crossesLine]
    · rw [toNext_spaces indent starts]
      exact toNext_token starts

/-- A plain scalar ends with its line. -/
theorem scanPlain_lineEnd {least : Nat} {rest : List Char} (lineEnd : LineEnd least rest)
    (reversed : List Char) (position : Position) (tokens : List Token) (indents : List Nat) :
    ∃ scan, scanPlain ⟨false, least⟩ reversed .none position rest = some scan ∧
      scan.text = reversed.reverse ∧
      (block scan.crossesLine scan.after.rest scan.after.position tokens indents).toNext =
        (block false rest position tokens indents).toNext := by
  rcases lineEnd with rfl | ⟨next, rfl, nextLine⟩
  · exact ⟨_, rfl, rfl, rfl⟩
  · rw [toNext_lineFeed]
    exact scanPlain_nextLine nextLine reversed position tokens indents

/-- A text that may stand plain is taken as a plain scalar. -/
theorem takeToken_isPlain {c : Char} {more : List Char} (plain : IsPlain (c :: more))
    {rest : List Char} (noMark : (Cursor.mk (c :: more ++ rest) position).atDocumentMark = false) :
    (block keys (c :: more ++ rest) position tokens indents).takeToken c =
      (block keys (c :: more ++ rest) position tokens indents).takePlain := by
  obtain ⟨d, behind, shape, -, unreserved, noIndicator⟩ := plain.head
  obtain ⟨rfl, rfl⟩ := List.cons.inj shape
  exact takeToken_plain rfl rfl unreserved noMark (noIndicator '-' (by simp) rest)
    (noIndicator '?' (by simp) rest) (noIndicator ':' (by simp) rest)

/-- A text that may stand plain spells itself. -/
theorem spells_plain {text : List Char} (plain : IsPlain text) : Spells text .plain text := by
  obtain ⟨c, more, rfl, starts, -⟩ := plain.head
  refine ⟨c, more, rfl, starts, fun rest position tokens column outer left lineEnd => ?_⟩
  have inside : position.column ≠ 0 := by omega
  obtain ⟨scan, stopped, same, next⟩ := scanPlain_lineEnd lineEnd (c :: more).reverse
    (position.afterAll (c :: more)) (.scalar .plain (c :: more) :: tokens) (column :: outer)
  have least : column + 1 ≤ position.column + 1 := by omega
  have whole := (plain.scanPlain least rest).trans stopped
  rw [List.reverse_reverse] at same
  refine ⟨_, (takeToken_isPlain plain (Cursor.not_atDocumentMark inside)).trans
    (takePlain_block whole), ?_⟩
  rw [same]
  exact next

/-- What is written for a text spells it. -/
theorem spells_writeText {indent : Nat} (indented : indent ≠ 0) {text : List Char}
    (noFeed : '\n' ∉ text) : Spells (writeText indent text) (Form.ofText text).style text := by
  rcases writeText_cases indent noFeed with
    ⟨form, shape, nonempty, plain⟩ | ⟨form, shape, quotable⟩ | ⟨form, shape⟩
  · rw [form, shape]
    exact spells_plain (isPlain_of_allowsPlain nonempty noFeed plain)
  · rw [form, shape]
    exact spells_quoted (inQuotes_writeSingle indented quotable)
  · rw [form, shape]
    exact spells_quoted (inQuotes_double (doubleQuoted_escapeWritten text))

/-- A plain word spells itself. -/
theorem spells_word {word : List Char} (isWord : IsWord word) : Spells word .plain word :=
  spells_plain (isPlain_of_word isWord)

end Lexer

end RecordDiff.Yaml
