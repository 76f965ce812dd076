import RecordDiff.Proofs.BlockScalars
import RecordDiff.Text.Lines

/-!
Block mappings whose entries stand on lines of their own. Each line gives the tokens of its key and
of its value, and behind it the lexer stands in front of the next line, so the tokens of a mapping
are those of its lines, one after the other. Main statements:

- `Lexer.spellsKey_plain`, `Lexer.spellsKey_quoted`: a text that may stand plain, or between quotes,
  is a key where a colon follows it;
- `Lexer.run_key`: the tokens of a key and its colon, with the mark of a mapping that starts there;
- `Lexer.run_line`, `Lexer.run_lines`: those of a line, and of all lines of a mapping;
- `Lexer.ToLine.dedent`: a line further left ends the mapping in front of it;
- `Outline.tokens?_text`: those of a mapping of which one value is a mapping itself.
-/

namespace RecordDiff.Yaml

/-! ### Entries -/

/-- A scalar as it is written on one line. -/
structure Scalar where
  written : List Char
  style : Style
  text : List Char
  deriving DecidableEq

namespace Scalar

/-- The scalar that stands where nothing is written. -/
def nothing : Scalar :=
  ⟨[], .plain, []⟩

/-- What stands for a scalar behind the colon of its key. -/
def behindColon (scalar : Scalar) : List Char :=
  if scalar.written.isEmpty then [] else ' ' :: scalar.written

/-- The tokens of a scalar, of which there is none where nothing is written. -/
def tokens (scalar : Scalar) : List Token :=
  if scalar.written.isEmpty then [] else [.scalar scalar.style scalar.text]

end Scalar

/-- An entry of a block mapping on a line of its own. -/
structure Entry where
  key : Scalar
  value : Scalar
  deriving DecidableEq

namespace Entry

/-- The line of an entry of a mapping in a column. -/
def line (column : Nat) (entry : Entry) : List Char :=
  List.replicate column ' ' ++ (entry.key.written ++ ':' :: entry.value.behindColon)

/-- The tokens of an entry. -/
def tokens (entry : Entry) : List Token :=
  .key :: .scalar entry.key.style entry.key.text :: .value :: entry.value.tokens

end Entry

/-- Whether a mark between documents stands at the start of a line. -/
def marksDocument (line : List Char) : Bool :=
  startsMark '-' line || startsMark '.' line

namespace Lexer

variable {lexer : Lexer} {position : Position} {tokens : List Token} {indents : List Nat}
  {column : Nat}

/-! ### Keys -/

/-- The mark of a mapping whose first key stands in a column, unless one is open there, and the
columns of the block collections that are open behind it. -/
def opening (indents : List Nat) (column : Nat) : List Token × List Nat :=
  if indents.head? = some column then ([], indents) else ([.blockMapping], column :: indents)

/-- The lexer behind a key and in front of its colon. -/
def keyed (key : Scalar) (rest : List Char) (position : Position) (tokens : List Token)
    (indents : List Nat) : Lexer :=
  { block false (':' :: rest) (position.afterAll key.written)
      (.scalar key.style key.text :: tokens) indents with
    candidate :=
      some ⟨tokens.length, position, indents.head? == some position.column⟩ }

/-- A scalar that is taken as a key in a column, if a colon that ends a token follows. -/
def SpellsKey (column : Nat) (key : Scalar) : Prop :=
  ∃ c behind, key.written = c :: behind ∧ StartsToken c ∧ (∀ d ∈ key.written, isBreak d = false) ∧
    ∀ (rest : List Char) (position : Position) (tokens : List Token) (indents : List Nat),
      endsToken rest = true → position.column = column → (∀ indent ∈ indents, indent ≤ column) →
        (block true (key.written ++ ':' :: rest) position tokens indents).takeToken c =
          some (keyed key rest position tokens indents)

theorem startsMark_colon {mark : Char} (noColon : mark ≠ ':') {text : List Char}
    (some? : text ≠ []) (rest : List Char) :
    startsMark mark (text ++ ':' :: rest) = startsMark mark (text ++ [':']) := by
  have other : (':' == mark) = false := by simpa using noColon.symm
  match text with
  | [] => exact absurd rfl some?
  | [_] => cases rest <;> simp [startsMark, other]
  | [_, _] => simp [startsMark, other]
  | a :: b :: c :: more => cases more <;> rfl

/-- Whether a mark between documents stands at the start of a line is decided up to its colon. -/
theorem marksDocument_colon {text : List Char} (some? : text ≠ []) (rest : List Char) :
    marksDocument (text ++ ':' :: rest) = marksDocument (text ++ [':']) := by
  have dash := startsMark_colon (by decide : '-' ≠ ':') some? rest
  have dot := startsMark_colon (by decide : '.' ≠ ':') some? rest
  rw [marksDocument, marksDocument, dash, dot]

/-- A text that may stand plain is a key where a colon follows it. -/
theorem spellsKey_plain {text : List Char} (plain : IsPlain text)
    (noMark : column = 0 → marksDocument (text ++ [':']) = false) :
    SpellsKey column ⟨text, .plain, text⟩ := by
  obtain ⟨c, more, rfl, starts, -⟩ := plain.head
  refine ⟨c, more, rfl, starts, plain.oneLine,
    fun rest position tokens indents ends place within => ?_⟩
  have unmarked : (Cursor.mk (c :: more ++ ':' :: rest) position).atDocumentMark = false := by
    by_cases lineStart : column = 0
    · have none := noMark lineStart
      rw [← marksDocument_colon (List.cons_ne_nil c more) rest, marksDocument,
        Bool.or_eq_false_iff] at none
      rw [Cursor.atDocumentMark, Cursor.atStartMark, Cursor.atEndMark, none.1, none.2,
        Bool.and_false, Bool.or_false]
    · exact Cursor.not_atDocumentMark (by rwa [place])
  let lexer := block true (c :: more ++ ':' :: rest) position tokens indents
  have least : lexer.least ≤ position.column + 1 := by
    cases indents with
    | nil => exact Nat.zero_le _
    | cons indent outer =>
      have first := within indent List.mem_cons_self
      exact place ▸ Nat.succ_le_succ first
  have scanned : scanPlain ⟨false, lexer.least⟩ [] .none position (c :: more ++ ':' :: rest) =
      some ⟨c :: more, ⟨':' :: rest, position.afterAll (c :: more)⟩, false⟩ := by
    rw [plain.scanPlain least]
    simp [scanPlain, isBreak, isSpace, stopsPlain, ends, Gap.none, Gap.isNone, Gap.crossesLine]
  rw [takeToken_isPlain plain unmarked, takePlain_block scanned]
  rfl

/-- What stands between quotes for a text is a key where a colon follows it. -/
theorem spellsKey_quoted {quotes : Quotes} {body text : List Char}
    (quoted : InQuotes quotes body text) (oneLine : ∀ c ∈ body, isBreak c = false) :
    SpellsKey column ⟨quoteMark quotes :: body ++ [quoteMark quotes], quotes.style, text⟩ := by
  have starts := startsToken_quoteMark quotes
  refine ⟨_, _, rfl, starts, ?_, fun rest position tokens indents _ _ _ =>
    takeToken_quoted quoted (by simp)⟩
  simpa [starts.noBreak, or_imp, forall_and] using oneLine

/-- A colon makes what stands since the place of its candidate a key. -/
theorem takeValue_keyed (key : Scalar) (rest : List Char) (tokens : List Token)
    (within : ∀ indent ∈ indents, indent ≤ position.column) :
    (keyed key rest position tokens indents).takeValue =
      some (block false rest ((position.afterAll key.written).after ':')
        (.value :: .scalar key.style key.text :: .key ::
          ((opening indents position.column).1 ++ tokens))
        (opening indents position.column).2) := by
  have two : tokens.length + 1 + 1 - tokens.length = 2 := by omega
  cases indents with
  | nil =>
    simp [takeValue, keyed, block, insert, openBlock, inFlow, least, opening, take, emit,
      Cursor.skip, two]
  | cons indent outer =>
    have first : indent ≤ position.column := within indent List.mem_cons_self
    by_cases same : indent = position.column
    · simp [takeValue, keyed, block, insert, openBlock, inFlow, least, opening, take, emit,
        Cursor.skip, same]
    · have beyond : ¬position.column < indent + 1 := by omega
      simp [takeValue, keyed, block, insert, openBlock, inFlow, least, opening, take, emit,
        Cursor.skip, same, beyond, two]

theorem afterAll_oneLine {text : List Char} (oneLine : ∀ c ∈ text, isBreak c = false)
    (position : Position) :
    (position.afterAll text).octets = position.octets + (Text.Utf8.encode text).length ∧
      (position.afterAll text).line = position.line := by
  induction text generalizing position with
  | nil => exact ⟨rfl, rfl⟩
  | cons c text ih =>
    obtain ⟨here, others⟩ := List.forall_mem_cons.mp oneLine
    have step := ih others (position.after c)
    have octets : (Text.Utf8.encode (c :: text)).length =
        c.utf8Size + (Text.Utf8.encode text).length := by
      simp [Text.Utf8.encode]
    rw [Position.afterAll_cons, step.1, step.2, octets]
    simp [Position.after, here, Nat.add_assoc]

/-- A key that is short enough is followed by its colon. -/
theorem leads_keyed {key : Scalar} (oneLine : ∀ c ∈ key.written, isBreak c = false)
    (short : (Text.Utf8.encode key.written).length ≤ maxKeyLength) {rest : List Char}
    (ends : endsToken rest = true) (within : ∀ indent ∈ indents, indent ≤ position.column) :
    Leads 1 (keyed key rest position tokens indents)
      (block false rest ((position.afterAll key.written).after ':')
        (.value :: .scalar key.style key.text :: .key ::
          ((opening indents position.column).1 ++ tokens))
        (opening indents position.column).2) := by
  refine ⟨1, Nat.le_refl 1, fun fuel => ?_⟩
  obtain ⟨octets, line⟩ := afterAll_oneLine oneLine position
  have next : (keyed key rest position tokens indents).toNext =
      keyed key rest position tokens indents := by
    simp [toNext, keyed, block, inFlow, skipGap, isBreak, byteOrderMark]
  have fresh : (keyed key rest position tokens indents).forgetStale =
      some (keyed key rest position tokens indents) := by
    simp [forgetStale, keyed, block, octets, line, Nat.not_lt.mpr short]
  have kept : (keyed key rest position tokens indents).dedent
      (position.afterAll key.written).column = keyed key rest position tokens indents := by
    refine dedent_of_within fun indent mem => ?_
    rw [Position.column_afterAll oneLine]
    exact Nat.le_add_right_of_le (within indent mem)
  have taken : (keyed key rest position tokens indents).takeToken ':' =
      (keyed key rest position tokens indents).takeValue := by
    simp [takeToken, keyed, block, Cursor.atStartMark, Cursor.atEndMark, startsMark_of_ne,
      startsIndicator, ends, inFlow]
  have value := taken.trans (takeValue_keyed key rest tokens within)
  have here : (keyed key rest position tokens indents).cursor.rest = ':' :: rest := rfl
  have column : (keyed key rest position tokens indents).column =
      (position.afterAll key.written).column := rfl
  simp only [run, next, fresh, here, column, kept, value]

/-- The tokens of a key and its colon, with the mark of a mapping that starts there. -/
theorem run_key {key : Scalar} (spells : SpellsKey column key)
    (short : (Text.Utf8.encode key.written).length ≤ maxKeyLength) {rest : List Char}
    (ends : endsToken rest = true) (place : position.column = column)
    (within : ∀ indent ∈ indents, indent ≤ column) (tokens : List Token) :
    Leads 2 (block true (key.written ++ ':' :: rest) position tokens indents)
      (block false rest ((position.afterAll key.written).after ':')
        (.value :: .scalar key.style key.text :: .key :: ((opening indents column).1 ++ tokens))
        (opening indents column).2) := by
  subst place
  obtain ⟨c, behind, shape, starts, oneLine, taken⟩ := spells
  have token := taken rest position tokens indents ends rfl within
  have front : Leads 1 (block true (key.written ++ ':' :: rest) position tokens indents)
      (keyed key rest position tokens indents) := by
    rw [shape] at token ⊢
    exact run_take (toNext_token starts) within token
  exact front.trans (leads_keyed oneLine short ends within)

/-! ### Lines -/

/-- The tokens of a scalar behind its colon, up to the end of its line. -/
theorem run_value {written text : List Char} {style : Style} (spells : Spells written style text)
    {rest : List Char} {outer : List Nat} (left : column < position.column)
    (within : ∀ indent ∈ outer, indent ≤ column) (lineEnd : LineEnd (column + 1) rest)
    (tokens : List Token) :
    Leads 1 (block false (' ' :: (written ++ rest)) position tokens (column :: outer))
      (block false rest ((position.after ' ').afterAll written) (.scalar style text :: tokens)
        (column :: outer)) := by
  obtain ⟨c, behind, rfl, starts, taken⟩ := spells
  have further : (position.after ' ').column = position.column + 1 := Position.column_after rfl
  obtain ⟨after, taken, same⟩ :=
    taken rest (position.after ' ') tokens column outer (by omega) lineEnd
  have inside : ∀ indent ∈ column :: outer,
      indent ≤ (position.afterAll (List.replicate 1 ' ')).column := by
    have place : (position.afterAll (List.replicate 1 ' ')).column = position.column + 1 := further
    have here : ∀ indent ∈ column :: outer, indent ≤ column := by simpa using within
    intro indent mem
    have outside := here indent mem
    omega
  exact (run_take (toNext_spaces 1 starts) inside taken).trans (.of_toNext_eq same)

/-- After at most so many steps a lexer stands in front of a line, where a key may start. -/
def ToLine (most : Nat) (lexer : Lexer) (text : List Char) (tokens : List Token)
    (indents : List Nat) : Prop :=
  ∃ position : Position, position.column = 0 ∧
    Leads most lexer (block true text position tokens indents)

theorem toLine_start (text : List Char) : ToLine 0 (start text) text [] [] :=
  ⟨.start, rfl, .of_toNext_eq rfl⟩

theorem Leads.toLine {most : Nat} {keys : Bool} {text : List Char}
    (leads : Leads most lexer (block keys ('\n' :: text) position tokens indents)) :
    ToLine most lexer text tokens indents :=
  ⟨position.after '\n', Position.after_break rfl,
    leads.trans (.of_toNext_eq (toNext_lineFeed text))⟩

end Lexer

namespace Entry

/-- An entry that is read as its key and its value where it stands in a column. -/
structure Proper (column : Nat) (entry : Entry) : Prop where
  key : Lexer.SpellsKey column entry.key
  short : (Text.Utf8.encode entry.key.written).length ≤ Lexer.maxKeyLength
  value : entry.value = .nothing ∨
    Lexer.Spells entry.value.written entry.value.style entry.value.text
  settledKey : ∀ c ∈ entry.key.written, isSettled c = true
  settledValue : ∀ c ∈ entry.value.written, isSettled c = true

/-- What may stand behind the line of an entry: where its value is, the end of the line; otherwise
also the lines of what is its value. -/
def EndsBefore (column : Nat) (entry : Entry) (rest : List Char) : Prop :=
  LineEnd (column + 1) rest ∨ (entry.value = .nothing ∧ endsToken rest = true)

end Entry

namespace Lexer

variable {lexer : Lexer} {position : Position} {tokens : List Token} {indents : List Nat}
  {column : Nat}

theorem opening_self (column : Nat) (outer : List Nat) :
    opening (column :: outer) column = ([], column :: outer) := by
  simp [opening]

/-- Behind its first key a mapping is open, inside those that were open before. -/
theorem opening_open (within : ∀ indent ∈ indents, indent ≤ column) :
    ∃ outer, (opening indents column).2 = column :: outer ∧
      ∀ indent ∈ outer, indent ≤ column := by
  unfold opening
  split
  · rename_i first
    obtain ⟨outer, rfl⟩ := List.head?_eq_some_iff.mp first
    exact ⟨outer, rfl, fun indent mem => within indent (List.mem_cons_of_mem _ mem)⟩
  · exact ⟨indents, rfl, within⟩

/-- What is left of the line of an entry behind its colon. -/
theorem run_behindColon {entry : Entry} (proper : entry.Proper column) {rest : List Char}
    (ends : entry.EndsBefore column rest) (left : column < position.column) {outer : List Nat}
    (within : ∀ indent ∈ outer, indent ≤ column) (tokens : List Token) :
    ∃ behind, Leads entry.value.behindColon.length
      (block false (entry.value.behindColon ++ rest) position tokens (column :: outer))
      (block false rest behind (entry.value.tokens.reverse ++ tokens) (column :: outer)) := by
  rcases proper.value with unwritten | spells
  · refine ⟨position, ?_⟩
    rw [unwritten]
    exact .of_toNext_eq rfl
  · have ⟨c, more, shape, _⟩ := spells
    have lineEnd : LineEnd (column + 1) rest := by
      refine ends.resolve_right fun ⟨unwritten, _⟩ => ?_
      rw [unwritten] at shape
      cases shape
    have value := run_value spells left within lineEnd tokens
    refine ⟨(position.after ' ').afterAll entry.value.written, ?_⟩
    simpa [Scalar.behindColon, Scalar.tokens, shape] using value.mono (Nat.le_add_left 1 _)

/-- The tokens of one line of a mapping. -/
theorem run_line {entry : Entry} (proper : entry.Proper column)
    (within : ∀ indent ∈ indents, indent ≤ column) {rest : List Char}
    (ends : entry.EndsBefore column rest) {most : Nat}
    (toLine : ToLine most lexer (entry.line column ++ rest) tokens indents) :
    ∃ behind, Leads (most + (entry.line column).length) lexer
      (block false rest behind (entry.tokens.reverse ++ ((opening indents column).1 ++ tokens))
        (opening indents column).2) := by
  obtain ⟨position, lineStart, start⟩ := toLine
  obtain ⟨outer, opened, inside⟩ := opening_open within
  obtain ⟨c, more, shape, starts, oneLine, -⟩ := proper.key
  let place := position.afterAll (List.replicate column ' ')
  have here : place.column = column := by
    rw [Position.column_afterAll_replicate, lineStart, Nat.zero_add]
  have endsKey : endsToken (entry.value.behindColon ++ rest) = true := by
    cases unwritten : entry.value.written.isEmpty with
    | false => simp [Scalar.behindColon, unwritten, endsToken, isSpace]
    | true =>
      have behind : endsToken rest = true := ends.elim LineEnd.endsToken And.right
      simpa [Scalar.behindColon, unwritten] using behind
  have indent : Leads most lexer (block true
      (entry.key.written ++ ':' :: (entry.value.behindColon ++ rest)) place tokens indents) := by
    refine start.trans (.of_toNext_eq ?_)
    rw [Entry.line, shape]
    simpa using (toNext_spaces column starts).trans (toNext_token starts).symm
  have key := run_key proper.key proper.short endsKey here within tokens
  have further : column < ((place.afterAll entry.key.written).after ':').column := by
    rw [Position.column_after rfl, Position.column_afterAll oneLine, here]
    omega
  rw [opened] at key
  obtain ⟨behind, value⟩ := run_behindColon proper ends further inside
    (.value :: .scalar entry.key.style entry.key.text :: .key ::
      ((opening indents column).1 ++ tokens))
  have room : most + 2 + entry.value.behindColon.length ≤ most + (entry.line column).length := by
    simp only [Entry.line, shape, List.length_append, List.length_cons]
    omega
  refine ⟨behind, ?_⟩
  rw [opened]
  simpa [Entry.tokens] using ((indent.trans key).trans value).mono room

/-- Lines start with their indentation and a token. -/
theorem exists_lines_eq {entries : List Entry} (some? : entries ≠ [])
    (proper : ∀ entry ∈ entries, entry.Proper column) (rest : List Char) :
    ∃ c behind, Text.joinWith ['\n'] (entries.map (Entry.line column)) ++ rest =
      List.replicate column ' ' ++ c :: behind ∧ StartsToken c := by
  obtain ⟨first, others, rfl⟩ := List.exists_cons_of_ne_nil some?
  obtain ⟨c, key, written, starts, -⟩ := (proper first List.mem_cons_self).key
  obtain ⟨more, shape⟩ := Text.exists_joinWith_cons ['\n'] (first.line column)
    (others.map (Entry.line column))
  refine ⟨c, key ++ ':' :: first.value.behindColon ++ more ++ rest, ?_, starts⟩
  rw [List.map_cons, shape]
  simp [Entry.line, written]

/-- Lines further left end what is in front of them. -/
theorem nextLine_of_lines {entries : List Entry} (some? : entries ≠ [])
    (proper : ∀ entry ∈ entries, entry.Proper column) {least : Nat} (left : column < least)
    (rest : List Char) :
    NextLine least (Text.joinWith ['\n'] (entries.map (Entry.line column)) ++ rest) := by
  obtain ⟨c, behind, shape, starts⟩ := exists_lines_eq some? proper rest
  exact .inr ⟨column, c, behind, shape, starts, left⟩

/-- The tokens of all lines of a mapping, behind its mark if it starts there. -/
theorem run_lines {entries : List Entry} (some? : entries ≠ [])
    (proper : ∀ entry ∈ entries, entry.Proper column)
    (within : ∀ indent ∈ indents, indent ≤ column) {rest : List Char}
    (ends : ∀ last ∈ entries.getLast?, last.EndsBefore column rest)
    {most : Nat} (toLine : ToLine most lexer
      (Text.joinWith ['\n'] (entries.map (Entry.line column)) ++ rest) tokens indents) :
    ∃ behind, Leads (most + (Text.joinWith ['\n'] (entries.map (Entry.line column))).length) lexer
      (block false rest behind
        ((entries.flatMap Entry.tokens).reverse ++ ((opening indents column).1 ++ tokens))
        (opening indents column).2) := by
  -- only the first line can start the mapping; behind it the mapping is open in this column
  induction entries generalizing tokens indents most with
  | nil => exact absurd rfl some?
  | cons first others ih =>
    obtain ⟨properFirst, properOthers⟩ := List.forall_mem_cons.mp proper
    cases others with
    | nil =>
      simpa [Text.joinWith] using run_line properFirst within (ends first rfl) toLine
    | cons second others =>
      obtain ⟨outer, opened, inside⟩ := opening_open within
      let further := Text.joinWith ['\n'] ((second :: others).map (Entry.line column)) ++ rest
      have next : NextLine (column + 1) further :=
        nextLine_of_lines (List.cons_ne_nil second others) properOthers (Nat.lt_succ_self column)
          rest
      have here : ToLine most lexer (first.line column ++ '\n' :: further) tokens indents := by
        simpa [further, Text.joinWith] using toLine
      obtain ⟨place, front⟩ := run_line properFirst within (.inl (.inr ⟨_, rfl, next⟩)) here
      rw [opened] at front ⊢
      have within' : ∀ indent ∈ column :: outer, indent ≤ column := by simpa using inside
      obtain ⟨behind, back⟩ := ih (List.cons_ne_nil second others) properOthers within'
        (by simpa using ends) front.toLine
      have room : most + (first.line column).length +
            (Text.joinWith ['\n'] ((second :: others).map (Entry.line column))).length ≤
          most + (Text.joinWith ['\n']
            ((first :: second :: others).map (Entry.line column))).length := by
        simp only [List.map_cons, Text.joinWith, List.length_append]
        omega
      refine ⟨behind, ?_⟩
      simpa [opening_self] using back.mono room

/-- Lines further left end the mapping in front of them. -/
theorem ToLine.dedent {entries : List Entry} (some? : entries ≠ [])
    (proper : ∀ entry ∈ entries, entry.Proper column) {inner : Nat} {outer : List Nat}
    (left : column < inner) (within : ∀ indent ∈ outer, indent ≤ column) {rest : List Char}
    {most : Nat} (toLine : ToLine most lexer
      (Text.joinWith ['\n'] (entries.map (Entry.line column)) ++ rest) tokens
      (inner :: column :: outer)) :
    ToLine most lexer (Text.joinWith ['\n'] (entries.map (Entry.line column)) ++ rest)
      (.blockEnd :: tokens) (column :: outer) := by
  obtain ⟨c, behind, shape, starts⟩ := exists_lines_eq some? proper rest
  rw [shape] at toLine ⊢
  obtain ⟨position, lineStart, start⟩ := toLine
  refine ⟨position, lineStart, start.trans ⟨0, Nat.le_refl 0, fun fuel => ?_⟩⟩
  let place := position.afterAll (List.replicate column ' ')
  have here : place.column = column := by
    rw [Position.column_afterAll_replicate, lineStart, Nat.zero_add]
  have closed : (block true (c :: behind) place tokens (inner :: column :: outer)).dedent column =
      block true (c :: behind) place (.blockEnd :: tokens) (column :: outer) := by
    simp [Lexer.dedent, block, inFlow, left]
  have kept :
      (block true (c :: behind) place (.blockEnd :: tokens) (column :: outer)).dedent column =
        block true (c :: behind) place (.blockEnd :: tokens) (column :: outer) :=
    dedent_of_within (by simpa [block] using within)
  cases fuel with
  | zero => rfl
  | succ fuel =>
    have fresh (tokens : List Token) (indents : List Nat) :
        (block true (c :: behind) place tokens indents).forgetStale =
          some (block true (c :: behind) place tokens indents) := rfl
    have column_eq (tokens : List Token) (indents : List Nat) :
        (block true (c :: behind) place tokens indents).column = column := here
    have rest_eq (tokens : List Token) (indents : List Nat) :
        (block true (c :: behind) place tokens indents).cursor.rest = c :: behind := rfl
    simp only [run, toNext_spaces column starts]
    simp only [place, fresh, rest_eq, column_eq] at closed kept ⊢
    rw [closed, kept]

/-- At the end of the text all mappings end. -/
theorem tokens?_of_leads {text : List Char} {keys : Bool} {closing : List Char}
    (closes : closing = [] ∨ closing = ['\n']) {most : Nat}
    (leads : Leads most (start text) (block keys closing position tokens indents))
    (room : most ≤ text.length) :
    tokens? text = some (tokens.reverse ++ List.replicate indents.length .blockEnd) := by
  obtain ⟨count, small, same⟩ := leads
  obtain ⟨extra, length⟩ := Nat.exists_eq_add_of_le' (Nat.le_trans small room)
  have enough : text.length + 1 = extra + 1 + count := by omega
  rw [tokens?, enough, same]
  rcases closes with rfl | rfl <;>
    simp [run, toNext, block, inFlow, skipGap, forgetStale, dedentAll, forget, isBreak]

end Lexer

/-! ### Outlines -/

/-- A mapping on lines of its own as the value of a key. -/
structure Section where
  name : Scalar
  column : Nat
  entries : List Entry
  deriving DecidableEq

/-- A block mapping on lines of its own, one of whose values may be such a mapping too. -/
structure Outline where
  column : Nat
  /-- The entries in front of the one whose value is a mapping. -/
  front : List Entry
  nested : Option Section
  back : List Entry
  deriving DecidableEq

namespace Section

/-- The entry of the name, with nothing behind its colon. -/
def header (inner : Section) : Entry :=
  ⟨inner.name, .nothing⟩

def lines (column : Nat) (inner : Section) : List (List Char) :=
  inner.header.line column :: inner.entries.map (Entry.line inner.column)

def tokens (inner : Section) : List Token :=
  inner.header.tokens ++ .blockMapping :: (inner.entries.flatMap Entry.tokens ++ [.blockEnd])

/-- A section of entries of a kind, which may depend on the column; it has an entry at least and
stands further right than its name. -/
structure Of (kind : Nat → Entry → Prop) (column : Nat) (inner : Section) : Prop where
  header : kind column inner.header
  right : column < inner.column
  some? : inner.entries ≠ []
  entries : ∀ entry ∈ inner.entries, kind inner.column entry

end Section

namespace Outline

def lines (outline : Outline) : List (List Char) :=
  outline.front.map (Entry.line outline.column) ++
    (outline.nested.toList.flatMap (Section.lines outline.column) ++
      outline.back.map (Entry.line outline.column))

/-- The text of an outline, with a line feed behind each line. -/
def text (outline : Outline) : List Char :=
  Text.joinWith ['\n'] outline.lines ++ ['\n']

/-- The tokens between the marks of the mapping. -/
def entryTokens (outline : Outline) : List Token :=
  outline.front.flatMap Entry.tokens ++
    (outline.nested.toList.flatMap Section.tokens ++ outline.back.flatMap Entry.tokens)

def tokens (outline : Outline) : List Token :=
  .blockMapping :: (outline.entryTokens ++ [.blockEnd])

/-- An outline of entries of a kind, with an entry at least. -/
structure Of (kind : Nat → Entry → Prop) (outline : Outline) : Prop where
  some? : outline.lines ≠ []
  front : ∀ entry ∈ outline.front, kind outline.column entry
  nested : ∀ inner ∈ outline.nested, inner.Of kind outline.column
  back : ∀ entry ∈ outline.back, kind outline.column entry

end Outline

section Outlines

variable {column : Nat} {front : List Entry} {inner : Section}

/-- The tokens of a mapping up to the end of the mapping that is the value of its last key. -/
theorem leads_section (properFront : ∀ entry ∈ front, entry.Proper column)
    (proper : inner.Of Entry.Proper column) {rest : List Char}
    (lineEnd : LineEnd (inner.column + 1) rest) :
    ∃ behind, Lexer.Leads
      (Text.joinWith ['\n'] (front.map (Entry.line column) ++ inner.lines column)).length
      (.start (Text.joinWith ['\n'] (front.map (Entry.line column) ++ inner.lines column) ++ rest))
      (Lexer.block false rest behind
        ((inner.entries.flatMap Entry.tokens).reverse ++
          (.blockMapping :: (((front ++ [inner.header]).flatMap Entry.tokens).reverse ++
            [.blockMapping])))
        [inner.column, column]) := by
  obtain ⟨properHeader, right, some?, properInner⟩ := proper
  let outerLines := Text.joinWith ['\n'] ((front ++ [inner.header]).map (Entry.line column))
  let innerLines := Text.joinWith ['\n'] (inner.entries.map (Entry.line inner.column))
  have shape : Text.joinWith ['\n'] (front.map (Entry.line column) ++ inner.lines column) =
      outerLines ++ '\n' :: innerLines := by
    have lines : front.map (Entry.line column) ++ inner.lines column =
        (front ++ [inner.header]).map (Entry.line column) ++
          inner.entries.map (Entry.line inner.column) := by
      simp [Section.lines]
    rw [lines, Text.joinWith_append (by simp) (by simpa using some?)]
    rfl
  have properOuter : ∀ entry ∈ front ++ [inner.header], entry.Proper column :=
    List.forall_mem_append.mpr ⟨properFront, by simpa using properHeader⟩
  have headerEnds : ∀ last ∈ (front ++ [inner.header]).getLast?,
      last.EndsBefore column ('\n' :: (innerLines ++ rest)) := by
    simp [Entry.EndsBefore, Section.header, endsToken, isBreak]
  obtain ⟨place, outerLeads⟩ := Lexer.run_lines (by simp) properOuter (List.forall_mem_nil _)
    headerEnds (Lexer.toLine_start _)
  have opened : Lexer.opening [] column = ([.blockMapping], [column]) := rfl
  have openedInner : Lexer.opening [column] inner.column =
      ([.blockMapping], [inner.column, column]) := by
    simp [Lexer.opening, Nat.ne_of_lt right]
  rw [opened] at outerLeads
  have within : ∀ indent ∈ [column], indent ≤ inner.column := by
    simpa using Nat.le_of_lt right
  obtain ⟨behind, innerLeads⟩ := Lexer.run_lines some? properInner within
    (fun _ _ => .inl lineEnd) outerLeads.toLine
  rw [openedInner] at innerLeads
  have room : 0 + outerLines.length + innerLines.length ≤
      (outerLines ++ '\n' :: innerLines).length := by
    simp only [List.length_append, List.length_cons]
    omega
  refine ⟨behind, ?_⟩
  rw [shape]
  simpa [outerLines, innerLines] using innerLeads.mono room

variable {back : List Entry} {closing : List Char} (closes : closing = [] ∨ closing = ['\n'])

include closes

theorem lineEnd_closing (least : Nat) : LineEnd least closing := by
  rcases closes with rfl | rfl
  · exact .inl rfl
  · exact .inr ⟨[], rfl, .inl rfl⟩

/-- The tokens of a mapping without a mapping in it. -/
theorem tokens?_flat {entries : List Entry} (some? : entries ≠ [])
    (proper : ∀ entry ∈ entries, entry.Proper column) :
    tokens? (Text.joinWith ['\n'] (entries.map (Entry.line column)) ++ closing) =
      some (.blockMapping :: (entries.flatMap Entry.tokens ++ [.blockEnd])) := by
  obtain ⟨behind, leads⟩ := Lexer.run_lines some? proper (List.forall_mem_nil _)
    (fun _ _ => .inl (lineEnd_closing closes _)) (Lexer.toLine_start _)
  rw [Lexer.tokens?_of_leads closes leads (by simp)]
  simp [Lexer.opening]

/-- The tokens of a mapping whose last value is a mapping. -/
theorem tokens?_section (properFront : ∀ entry ∈ front, entry.Proper column)
    (proper : inner.Of Entry.Proper column) :
    tokens? (Text.joinWith ['\n'] (front.map (Entry.line column) ++ inner.lines column) ++
        closing) =
      some (.blockMapping :: (front.flatMap Entry.tokens ++ (inner.tokens ++ [.blockEnd]))) := by
  obtain ⟨behind, leads⟩ := leads_section properFront proper (lineEnd_closing closes _)
  rw [Lexer.tokens?_of_leads closes leads (by simp)]
  simp [Section.tokens]

/-- The tokens of a mapping with further entries behind the mapping in it. -/
theorem tokens?_sectionBack (properFront : ∀ entry ∈ front, entry.Proper column)
    (proper : inner.Of Entry.Proper column) (some? : back ≠ [])
    (properBack : ∀ entry ∈ back, entry.Proper column) :
    tokens? (Text.joinWith ['\n'] (front.map (Entry.line column) ++ inner.lines column) ++
        '\n' :: (Text.joinWith ['\n'] (back.map (Entry.line column)) ++ closing)) =
      some (.blockMapping :: (front.flatMap Entry.tokens ++
        (inner.tokens ++ (back.flatMap Entry.tokens ++ [.blockEnd])))) := by
  let further := Text.joinWith ['\n'] (back.map (Entry.line column)) ++ closing
  have next : NextLine (inner.column + 1) further :=
    Lexer.nextLine_of_lines some? properBack (Nat.lt_succ_of_lt proper.right) closing
  obtain ⟨place, leads⟩ := leads_section properFront proper (.inr ⟨further, rfl, next⟩)
  have toBack := leads.toLine.dedent some? properBack proper.right (List.forall_mem_nil _)
  obtain ⟨behind, backLeads⟩ := Lexer.run_lines some? properBack (by simp)
    (fun _ _ => .inl (lineEnd_closing closes _)) toBack
  rw [Lexer.opening_self] at backLeads
  rw [Lexer.tokens?_of_leads closes backLeads
    (by simp only [further, List.length_append, List.length_cons]; omega)]
  simp [Section.tokens]

end Outlines

/-- The tokens of a block mapping on lines of its own, with a line feed behind it or none. -/
theorem Outline.tokens?_text {outline : Outline} (proper : outline.Of Entry.Proper)
    {closing : List Char} (closes : closing = [] ∨ closing = ['\n']) :
    tokens? (Text.joinWith ['\n'] outline.lines ++ closing) = some outline.tokens := by
  obtain ⟨column, front, nested, back⟩ := outline
  obtain ⟨some?, properFront, properNested, properBack⟩ := proper
  cases nested with
  | none =>
    have proper : ∀ entry ∈ front ++ back, entry.Proper column :=
      List.forall_mem_append.mpr ⟨properFront, properBack⟩
    have any : front ++ back ≠ [] := by simpa [lines] using some?
    simpa [lines, Outline.tokens, entryTokens] using tokens?_flat closes any proper
  | some inner =>
    have properInner := properNested inner rfl
    cases back with
    | nil =>
      simpa [lines, Outline.tokens, entryTokens] using
        tokens?_section closes properFront properInner
    | cons first others =>
      have whole := tokens?_sectionBack closes properFront properInner
        (List.cons_ne_nil first others) properBack
      have shape : lines ⟨column, front, some inner, first :: others⟩ =
          (front.map (Entry.line column) ++ inner.lines column) ++
            (first :: others).map (Entry.line column) := by
        simp [lines]
      rw [shape, Text.joinWith_append (by simp [Section.lines]) (by simp)]
      simpa [Outline.tokens, entryTokens] using whole

end RecordDiff.Yaml
