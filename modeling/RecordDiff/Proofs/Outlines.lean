import RecordDiff.Proofs.BlockEntries
import RecordDiff.Proofs.Concatenation

/-!
Block mappings of scalars on one line, as they may be written: plain, between quotes, or not at all.
How a text ends its lines does not matter, so it is known from its lines alone what is read. Main
statements:

- `Entry.Admitted.proper`: such an entry is read as its key and its value if the key is short
  enough;
- `unifyBreaks_of_lines`: with unified line ends a text is its lines, one below the other;
- `Outline.readDocument_of_lines`: what is read is decided by the lines of the text.
-/

namespace RecordDiff.Yaml

/-! ### Scalars on one line -/

/-- A scalar as it may be written on one line: plain, between single quotes with the quotes in it
doubled, or between double quotes with characters escaped. -/
inductive Scalar.OnLine : Scalar → Prop where
  | plain {text : List Char} (isPlain : IsPlain text) : OnLine ⟨text, .plain, text⟩
  | single {text : List Char} (oneLine : ∀ c ∈ text, isBreak c = false) :
      OnLine ⟨'\'' :: text.flatMap quoteWritten ++ ['\''], .single, text⟩
  | double {body text : List Char} (quoted : DoubleQuoted body text) :
      OnLine ⟨'"' :: body ++ ['"'], .double, text⟩

namespace Scalar.OnLine

variable {scalar : Scalar} (onLine : scalar.OnLine)

include onLine

theorem written_ne_nil : scalar.written ≠ [] := by
  cases onLine with
  | plain isPlain =>
    obtain ⟨c, rest, rfl, -⟩ := isPlain.head
    exact List.cons_ne_nil c rest
  | single => exact List.cons_ne_nil _ _
  | double => exact List.cons_ne_nil _ _

theorem spells : Lexer.Spells scalar.written scalar.style scalar.text := by
  cases onLine with
  | plain isPlain => exact Lexer.spells_plain isPlain
  | single oneLine => exact Lexer.spells_quoted (inQuotes_oneLine oneLine)
  | double quoted => exact Lexer.spells_quoted (inQuotes_double quoted)

/-- It is a key where no mark between documents stands. -/
theorem spellsKey {column : Nat}
    (noMark : column = 0 → marksDocument (scalar.written ++ [':']) = false) :
    Lexer.SpellsKey column scalar := by
  cases onLine with
  | plain isPlain => exact Lexer.spellsKey_plain isPlain noMark
  | single oneLine =>
    exact Lexer.spellsKey_quoted (inQuotes_oneLine oneLine)
      (oneLine_flatMap_quoteWritten oneLine)
  | double quoted => exact Lexer.spellsKey_quoted (inQuotes_double quoted) quoted.oneLine

end Scalar.OnLine

/-! ### Entries on one line -/

/-- An entry as it may be written on one line: a key, a colon and a value or nothing. -/
structure Entry.OnLine (column : Nat) (entry : Entry) : Prop where
  key : entry.key.OnLine
  value : entry.value = .nothing ∨ entry.value.OnLine
  noMark : marksDocument (entry.line column) = false
  settled : ∀ c ∈ entry.line column, isSettled c = true

/-- An entry on one line whose key is short enough to be one. -/
structure Entry.Admitted (column : Nat) (entry : Entry) : Prop extends entry.OnLine column where
  short : (Text.Utf8.encode entry.key.written).length ≤ Lexer.maxKeyLength

/-- An entry on one line is read as its key and its value, if its key is short enough. -/
theorem Entry.Admitted.proper {column : Nat} {entry : Entry} (admitted : entry.Admitted column) :
    entry.Proper column := by
  obtain ⟨⟨key, value, noMark, settled⟩, short⟩ := admitted
  have noMarkKey : column = 0 → marksDocument (entry.key.written ++ [':']) = false := by
    rintro rfl
    rw [← Lexer.marksDocument_colon key.written_ne_nil entry.value.behindColon]
    simpa [line] using noMark
  have settledBehind : ∀ c ∈ entry.value.behindColon, isSettled c = true := by
    intro c mem
    exact settled c (by simp [line, mem])
  refine ⟨key.spellsKey noMarkKey, short, value.imp_right fun onLine => onLine.spells, ?_, ?_⟩
  · intro c mem
    exact settled c (by simp [line, mem])
  · intro c mem
    refine settledBehind c ?_
    rw [Scalar.behindColon, if_neg (by simpa using List.ne_nil_of_mem mem)]
    exact List.mem_cons_of_mem ' ' mem

theorem Section.Of.imp {kind other : Nat → Entry → Prop}
    (implies : ∀ {column entry}, kind column entry → other column entry) {column : Nat}
    {inner : Section} (made : inner.Of kind column) : inner.Of other column :=
  ⟨implies made.header, made.right, made.some?, fun entry mem => implies (made.entries entry mem)⟩

theorem Outline.Of.imp {kind other : Nat → Entry → Prop}
    (implies : ∀ {column entry}, kind column entry → other column entry) {outline : Outline}
    (made : outline.Of kind) : outline.Of other :=
  ⟨made.some?, fun entry mem => implies (made.front entry mem),
    fun inner mem => (made.nested inner mem).imp implies,
    fun entry mem => implies (made.back entry mem)⟩

/-- There is a colon on each line. -/
theorem Outline.colon_of_mem_lines {outline : Outline} {line : List Char}
    (member : line ∈ outline.lines) : ':' ∈ line := by
  have colon (column : Nat) (entry : Entry) : ':' ∈ entry.line column := by simp [Entry.line]
  simp only [lines, Section.lines, List.mem_append, List.mem_flatMap, List.mem_cons,
    List.mem_map] at member
  obtain ⟨entry, -, rfl⟩ | ⟨inner, -, rfl | ⟨entry, -, rfl⟩⟩ | ⟨entry, -, rfl⟩ := member <;>
    exact colon _ _

/-! ### Texts line by line -/

/-- With unified line ends a text is its lines, one below the other, with a line feed behind them or
none; all its characters may stand in a document if those of the lines may. -/
theorem unifyBreaks_of_lines {text : List Char}
    (settled : ∀ line ∈ Text.lines text, ∀ c ∈ line, isSettled c = true) :
    (∀ c ∈ text, isAllowed c = true) ∧ ∃ closing, (closing = [] ∨ closing = ['\n']) ∧
      unifyBreaks text = Text.joinWith ['\n'] (Text.lines text) ++ closing := by
  induction text using Text.lineInduction with
  | last line noFeed =>
    by_cases nothing : line = []
    · subst nothing
      exact ⟨List.forall_mem_nil _, [], .inl rfl, rfl⟩
    · rw [Text.lines_of_noFeed noFeed nothing] at settled ⊢
      have here := settled line (List.mem_singleton_self line)
      refine ⟨fun c mem => isAllowed_of_settled (here c mem), [], .inl rfl, ?_⟩
      simpa [Text.joinWith] using unifyBreaks_of_settled here
  | feed line rest noFeed ih =>
    rw [Text.lines_feed noFeed] at settled ⊢
    obtain ⟨here, others⟩ := List.forall_mem_cons.mp settled
    obtain ⟨allowed, closing, closes, unified⟩ := ih others
    obtain ⟨ending, isReturn, shape⟩ := Text.exists_withoutReturn_append line
    generalize Text.withoutReturn line = front at here shape
    subst shape
    have allowedLine : ∀ c ∈ front ++ ending, isAllowed c = true := by
      refine List.forall_mem_append.mpr ⟨fun c mem => isAllowed_of_settled (here c mem), ?_⟩
      rcases isReturn with rfl | rfl <;> simp [isAllowed]
    have first : unifyBreaks (front ++ ending ++ '\n' :: rest) =
        front ++ '\n' :: unifyBreaks rest := by
      rw [List.append_assoc, unifyBreaks_append here]
      rcases isReturn with rfl | rfl <;> simp [unifyBreaks]
    refine ⟨List.forall_mem_append.mpr ⟨allowedLine,
      List.forall_mem_cons.mpr ⟨by decide, allowed⟩⟩, ?_⟩
    cases more : Text.lines rest with
    | nil =>
      rw [Text.lines_eq_nil more] at first ⊢
      exact ⟨['\n'], .inr rfl, first⟩
    | cons next more' =>
      rw [first, unified, more]
      exact ⟨closing, closes, by simp [Text.joinWith]⟩

/-- What is read is decided by the lines of the text, however they end. -/
theorem Outline.readDocument_of_lines {outline : Outline} (admitted : outline.Of Entry.Admitted)
    {text : List Char} (same : Text.lines text = outline.lines) :
    readDocument text = some ⟨.mapping outline.nodes, []⟩ := by
  have proper : outline.Of Entry.Proper := admitted.imp Entry.Admitted.proper
  have settled := proper.settled_lines
  rw [← same] at settled
  obtain ⟨allowed, closing, closes, unified⟩ := unifyBreaks_of_lines settled
  rw [same] at unified
  exact Outline.readDocument_text proper closes allowed unified

end RecordDiff.Yaml
