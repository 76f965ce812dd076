import RecordDiff.Proofs.Numerals
import RecordDiff.Yaml.Scalar
import RecordDiff.Yaml.Writer

/-!
Scalars that are written and scanned again. A scan goes over what is written for a text and comes
out behind it with the very text, whatever follows: plain if the text allows it, between single
quotes if its blanks do, and between double quotes always. Main statements:

- `scanPlain_text`: a text without inner marks is scanned as itself, whatever follows;
- `scanQuoted_single`: so is one between single quotes, across its line breaks;
- `scanQuoted_double`: what stands for a text between double quotes is scanned as that text;
- `doubleQuoted_escapeWritten`: what is written for a text stands for it there, whatever its
  characters;
- `isPrintable_of_mem_writeText`: whatever is written can be printed.
-/

namespace RecordDiff.Yaml

/-! ### Places -/

namespace Position

/-- The place behind a text. -/
def afterAll (position : Position) (text : List Char) : Position :=
  text.foldl after position

variable {position : Position} {c : Char}

@[simp]
theorem afterAll_nil : position.afterAll [] = position := rfl

@[simp]
theorem afterAll_cons {text : List Char} :
    position.afterAll (c :: text) = (position.after c).afterAll text := rfl

theorem afterAll_append (front back : List Char) :
    position.afterAll (front ++ back) = (position.afterAll front).afterAll back :=
  List.foldl_append

theorem column_after (sameLine : isBreak c = false) :
    (position.after c).column = position.column + 1 := by
  simp [after, sameLine]

theorem column_afterAll {text : List Char} (sameLine : ∀ c ∈ text, isBreak c = false) :
    (position.afterAll text).column = position.column + text.length := by
  induction text generalizing position with
  | nil => rfl
  | cons c text ih =>
    rw [afterAll_cons, ih fun d mem => sameLine d (List.mem_cons_of_mem c mem),
      column_after (sameLine c List.mem_cons_self), List.length_cons]
    omega

theorem column_afterAll_replicate (count : Nat) :
    (position.afterAll (List.replicate count ' ')).column = position.column + count := by
  have blanks : ∀ c ∈ List.replicate count ' ', isBreak c = false := by simp [isBreak]
  rw [column_afterAll blanks, List.length_replicate]

end Position

/-- A mark between documents starts a line. -/
theorem Cursor.not_atDocumentMark {text : List Char} {position : Position}
    (inside : position.column ≠ 0) : (Cursor.mk text position).atDocumentMark = false := by
  simp [atDocumentMark, atStartMark, atEndMark, column, inside]

/-! ### Plain scalars -/

/-- A text that ends no token ends none with more behind it. -/
theorem endsToken_append {text : List Char} (goesOn : endsToken text = false) (rest : List Char) :
    endsToken (text ++ rest) = false := by
  cases text with
  | nil => cases goesOn
  | cons c text => exact goesOn

theorem endsIn_of_cons {test : Char → Bool} {c : Char} {text : List Char}
    (ends : endsIn test (c :: text) = false) : endsIn test text = false := by
  cases text with
  | nil => rfl
  | cons d text => simpa [endsIn] using ends

theorem endsIn_append {test : Char → Bool} {front back : List Char} {c : Char} :
    endsIn test (front ++ c :: back) = endsIn test (c :: back) := by
  simp [endsIn, List.getLast?_append, List.getLast?_eq_some_getLast (List.cons_ne_nil c back)]

theorem endsIn_of_forall {test : Char → Bool} {text : List Char}
    (none : ∀ c ∈ text, test c = false) : endsIn test text = false := by
  cases last : text.getLast? with
  | none => simp [endsIn, last]
  | some c => simpa [endsIn, last] using none c (List.mem_of_getLast? last)

/-- A colon that ends no token in a text ends none with more behind the text. -/
theorem noColon_append {c : Char} {text : List Char}
    (noColon : (c == ':' && endsToken text) = false) (rest : List Char) :
    (c == ':' && endsToken (text ++ rest)) = false := by
  rw [Bool.and_eq_false_iff] at noColon ⊢
  exact noColon.imp_right fun goesOn => endsToken_append goesOn rest

/-- A plain scalar goes on where neither a colon nor a comment ends it. -/
theorem stopsPlain_eq_false {context : PlainContext} (block : context.flow = false)
    {spaces : List Char} {position : Position} {c : Char} {rest : List Char}
    (inside : position.column ≠ 0) (within : context.least ≤ position.column)
    (noColon : (c == ':' && endsToken rest) = false)
    (noComment : (c == '#' && !spaces.isEmpty) = false) :
    stopsPlain context (.spaces spaces) position c rest = false := by
  have noMark : (Cursor.mk (c :: rest) position).atDocumentMark = false :=
    Cursor.not_atDocumentMark inside
  have column : ¬position.column < context.least := by omega
  cases spaces with
  | nil => simp [stopsPlain, Gap.isNone, noColon, block]
  | cons _ _ =>
    have otherMark : (c == '#') = false := by simpa using noComment
    simp [stopsPlain, noColon, block, noMark, column, otherMark]

/-- A text without inner marks is scanned as itself, whatever follows. The blanks in front of it,
which are read already, count as part of it. -/
theorem scanPlain_text {context : PlainContext} (block : context.flow = false)
    {text : List Char} (rest reversed spaces : List Char) {position : Position}
    (inside : position.column ≠ 0) (within : context.least ≤ position.column)
    (oneLine : ∀ c ∈ text, isBreak c = false)
    (noMark : hasInnerIndicator (!spaces.isEmpty) text = false)
    (noEnd : text = [] → spaces = []) (noBlank : endsIn isSpace text = false) :
    scanPlain context reversed (.spaces spaces) position (text ++ rest) =
      scanPlain context (text.reverse ++ (spaces ++ reversed)) .none (position.afterAll text)
        rest := by
  induction text generalizing reversed spaces position with
  | nil => simp [noEnd rfl, Gap.none]
  | cons c text ih =>
    have sameLine := oneLine c List.mem_cons_self
    have further := fun d mem => oneLine d (List.mem_cons_of_mem c mem)
    have inside' : (position.after c).column ≠ 0 := by simp [Position.column_after sameLine]
    have within' : context.least ≤ (position.after c).column := by
      rw [Position.column_after sameLine]
      omega
    simp only [hasInnerIndicator, Bool.or_eq_false_iff, sameLine, Bool.or_false] at noMark
    obtain ⟨⟨noColon, noComment⟩, others⟩ := noMark
    cases blank : isSpace c with
    | true =>
      have more : text ≠ [] := by
        rintro rfl
        simp [endsIn, blank] at noBlank
      have step := ih reversed (c :: spaces) inside' within' further
        (by simpa [blank] using others) (fun none => absurd none more) (endsIn_of_cons noBlank)
      simpa [scanPlain, sameLine, blank, Gap.addSpace, Gap.crossesLine] using step
    | false =>
      have goesOn : stopsPlain context (.spaces spaces) position c (text ++ rest) = false :=
        stopsPlain_eq_false block inside within (noColon_append noColon rest) noComment
      have step := ih (c :: (spaces ++ reversed)) [] inside' within' further
        (by simpa [blank] using others) (fun _ => rfl) (endsIn_of_cons noBlank)
      simpa [scanPlain, sameLine, blank, goesOn, isStrayColon, block, Gap.fold, Gap.none]
        using step

/-! ### Single quotes -/

theorem hasPair_cons {first second : Char → Bool} {c : Char} {text : List Char} :
    hasPair first second (c :: text) =
      ((first c && startsIn second text) || hasPair first second text) := by
  cases text <;> simp [hasPair, startsIn]

theorem hasPair_of_forall {first second : Char → Bool} {text : List Char}
    (none : ∀ c ∈ text, first c = false) : hasPair first second text = false := by
  induction text with
  | nil => rfl
  | cons c text ih =>
    rw [hasPair_cons, none c List.mem_cons_self, Bool.false_and, Bool.false_or]
    exact ih fun d mem => none d (List.mem_cons_of_mem c mem)

/-- A text that may stand between single quotes and holds no line feed. -/
structure Quotable (text : List Char) : Prop where
  noFeed : '\n' ∉ text
  printable : text.all isPrintable = true
  noSpaceBreak : hasPair isPlainSpace isBreak text = false
  noBreakSpace : hasPair isBreak isPlainSpace text = false

theorem quotable_of_allowsSingle {text : List Char} (noFeed : '\n' ∉ text)
    (allowed : allowsSingle text = true) : Quotable text := by
  simp only [allowsSingle, needsEscapes, Bool.and_eq_true, Bool.not_eq_true',
    Bool.or_eq_false_iff, Bool.not_eq_false'] at allowed
  exact ⟨noFeed, allowed.1.1, allowed.1.2, allowed.2⟩

section Tail

variable {c : Char} {text : List Char} (quotable : Quotable (c :: text))

include quotable

theorem Quotable.tail : Quotable text := by
  obtain ⟨noFeed, printable, noSpaceBreak, noBreakSpace⟩ := quotable
  rw [hasPair_cons, Bool.or_eq_false_iff] at noSpaceBreak noBreakSpace
  simp only [List.all_cons, Bool.and_eq_true] at printable
  exact ⟨fun mem => noFeed (List.mem_cons_of_mem c mem), printable.2, noSpaceBreak.2,
    noBreakSpace.2⟩

theorem Quotable.head : c ≠ '\n' ∧ isPrintable c = true := by
  have printable := quotable.printable
  simp only [List.all_cons, Bool.and_eq_true] at printable
  exact ⟨fun same => quotable.noFeed (same ▸ List.mem_cons_self), printable.1⟩

theorem Quotable.noBreak_of_space (blank : c = ' ') : startsIn isBreak text = false := by
  have apart := quotable.noSpaceBreak
  rw [hasPair_cons, Bool.or_eq_false_iff] at apart
  simpa [blank, isPlainSpace] using apart.1

theorem Quotable.noSpace_of_break (isEnd : isBreak c = true) :
    startsIn isPlainSpace text = false := by
  have apart := quotable.noBreakSpace
  rw [hasPair_cons, Bool.or_eq_false_iff] at apart
  simpa [isEnd] using apart.1

end Tail

/-- What stands in front of the text that is still to be scanned between single quotes: blanks on
one line, or line breaks, of which the first is no line feed. Neither are followed by the other. -/
inductive Pending (text : List Char) : Bool → Gap → Prop where
  | spaces (reversed : List Char) (noBreak : reversed ≠ [] → startsIn isBreak text = false) :
      Pending text false (.spaces reversed)
  | breaks {first : Char} (noFeed : first ≠ '\n') (reversed : List Char)
      (noSpace : startsIn isPlainSpace text = false) :
      Pending text true (.breaks (some first) reversed)

theorem Pending.none (text : List Char) : Pending text false .none :=
  .spaces [] fun nonempty => absurd rfl nonempty

theorem fold_breaks {first : Char} (noFeed : first ≠ '\n') (reversed : List Char) :
    (Gap.breaks (some first) reversed).fold = first :: reversed.reverse := by
  cases reversed <;> simp [Gap.fold, noFeed]

/-- The indentation in front of a text on a further line. -/
def lead (indent : Nat) (afterBreak : Bool) : List Char :=
  if afterBreak then List.replicate indent ' ' else []

theorem scanQuoted_replicate {quotes : Quotes} {reversed breaks : List Char} {first : Option Char}
    {position : Position} (indent : Nat) (rest : List Char) :
    scanQuoted quotes .text reversed (.breaks first breaks) position
        (List.replicate indent ' ' ++ rest) =
      scanQuoted quotes .text reversed (.breaks first breaks)
        (position.afterAll (List.replicate indent ' ')) rest := by
  induction indent generalizing position with
  | zero => rfl
  | succ indent ih =>
    rw [List.replicate_succ, List.cons_append, Position.afterAll_cons, ← ih]
    simp [scanQuoted, isBreak, isSpace, Gap.addSpace]

/-- The indentation of a further line is passed over. -/
theorem scanQuoted_lead {quotes : Quotes} {reversed : List Char} {afterBreak : Bool} {gap : Gap}
    {position : Position} {text : List Char} (pending : Pending text afterBreak gap) (indent : Nat)
    (rest : List Char) :
    scanQuoted quotes .text reversed gap position (lead indent afterBreak ++ rest) =
      scanQuoted quotes .text reversed gap (position.afterAll (lead indent afterBreak)) rest := by
  cases pending with
  | spaces => rfl
  | breaks => exact scanQuoted_replicate indent rest

/-- Behind the indentation no line starts. -/
theorem column_lead {indent : Nat} (indented : indent ≠ 0) {afterBreak : Bool}
    {position : Position} (inside : afterBreak = false → position.column ≠ 0) :
    (position.afterAll (lead indent afterBreak)).column ≠ 0 := by
  cases afterBreak with
  | false => exact inside rfl
  | true =>
    rw [lead, if_pos rfl, Position.column_afterAll_replicate]
    omega

/-- A character other than a blank or a quote stands for itself. -/
theorem scanQuoted_other {quotes : Quotes} {reversed : List Char} (gap : Gap) {c : Char}
    {position : Position} (inside : position.column ≠ 0) (sameLine : isBreak c = false)
    (noSpace : isSpace c = false) (noSingle : c = '\'' → quotes ≠ .single)
    (noDouble : c = '"' ∨ c = '\\' → quotes ≠ .double) (rest : List Char) :
    scanQuoted quotes .text reversed gap position (c :: rest) =
      scanQuoted quotes .text (c :: (gap.fold.reverse ++ reversed)) .none (position.after c)
        rest := by
  have notDouble : ¬(c = '"' ∧ quotes = .double) := fun both => noDouble (.inl both.1) both.2
  have notSingle : ¬(c = '\'' ∧ quotes = .single) := fun both => noSingle both.1 both.2
  have notEscape : ¬(c = '\\' ∧ quotes = .double) := fun both => noDouble (.inr both.1) both.2
  simp only [scanQuoted, sameLine, noSpace, Cursor.not_atDocumentMark inside, notDouble, notSingle,
    notEscape, if_false, Bool.false_eq_true]

theorem isBreak_of_isSpace {c : Char} (blank : isSpace c = true) : isBreak c = false := by
  simp only [isSpace, Bool.or_eq_true, beq_iff_eq] at blank
  rcases blank with rfl | rfl <;> decide

/-- A blank is pending. -/
theorem scanQuoted_blank {quotes : Quotes} {reversed : List Char} {gap : Gap} {c : Char}
    (blank : isSpace c = true) {position : Position} (rest : List Char) :
    scanQuoted quotes .text reversed gap position (c :: rest) =
      scanQuoted quotes .text reversed (gap.addSpace c) (position.after c) rest := by
  simp [scanQuoted, isBreak_of_isSpace blank, blank]

/-- A printable character other than a space and a line break is no blank. -/
theorem isSpace_of_printable {c : Char} (printable : isPrintable c = true) (noSpace : c ≠ ' ') :
    isSpace c = false := by
  have noTab : c ≠ '\t' := by
    rintro rfl
    exact absurd printable (by decide)
  simp [isSpace, noSpace, noTab]

/-- What is written for a character between single quotes. -/
def quoteWritten (c : Char) : List Char :=
  if c = '\'' then ['\'', '\''] else [c]

theorem mem_quoteWritten {c d : Char} (mem : d ∈ quoteWritten c) : d = c := by
  unfold quoteWritten at mem
  split at mem <;> simp_all

theorem writeSingle_break {indent : Nat} {afterBreak : Bool} {c : Char} {text : List Char}
    (isEnd : isBreak c = true) :
    writeSingle indent afterBreak (c :: text) = c :: writeSingle indent true text := by
  simp [writeSingle, isEnd]

theorem writeSingle_other {indent : Nat} {afterBreak : Bool} {c : Char} {text : List Char}
    (sameLine : isBreak c = false) :
    writeSingle indent afterBreak (c :: text) =
      lead indent afterBreak ++
        (quoteWritten c ++ writeSingle indent false text) := by
  simp [writeSingle, sameLine, lead, quoteWritten]

/-- A line break that follows is pending as well, and stands for itself. -/
theorem Pending.addBreak {afterBreak : Bool} {gap : Gap} {c : Char} {text : List Char}
    (pending : Pending (c :: text) afterBreak gap) (quotable : Quotable (c :: text))
    (isEnd : isBreak c = true) :
    Pending text true (gap.addBreak c) ∧ (gap.addBreak c).fold = gap.fold ++ [c] := by
  have noSpace := quotable.noSpace_of_break isEnd
  cases pending with
  | spaces spaces noBreak =>
    have none : spaces = [] := by
      by_cases nonempty : spaces = []
      · exact nonempty
      · exact absurd (noBreak nonempty) (by simp [startsIn, isEnd])
    subst none
    exact ⟨.breaks quotable.head.1 [] noSpace, fold_breaks quotable.head.1 []⟩
  | breaks noFeed breaks =>
    refine ⟨.breaks noFeed (c :: breaks) noSpace, ?_⟩
    rw [Gap.addBreak, fold_breaks noFeed, fold_breaks noFeed, List.reverse_cons, List.cons_append]

/-- So is a space. -/
theorem Pending.addSpace {afterBreak : Bool} {gap : Gap} {text : List Char}
    (pending : Pending (' ' :: text) afterBreak gap) (quotable : Quotable (' ' :: text)) :
    Pending text false (gap.addSpace ' ') ∧ (gap.addSpace ' ').fold = gap.fold ++ [' '] := by
  cases pending with
  | spaces spaces _ =>
    refine ⟨.spaces (' ' :: spaces) fun _ => quotable.noBreak_of_space rfl, ?_⟩
    simp [Gap.addSpace, Gap.fold]
  | breaks _ _ noSpace => exact absurd noSpace (by simp [startsIn, isPlainSpace])

/-- A character other than a blank is scanned as itself from what is written for it. -/
theorem scanQuoted_quoteWritten (gap : Gap) {c : Char} {position : Position}
    (inside : position.column ≠ 0) (sameLine : isBreak c = false) (noSpace : isSpace c = false)
    (reversed rest : List Char) :
    scanQuoted .single .text reversed gap position (quoteWritten c ++ rest) =
      scanQuoted .single .text (c :: (gap.fold.reverse ++ reversed)) .none
        (position.afterAll (quoteWritten c)) rest := by
  by_cases quote : c = '\''
  · subst quote
    simp [quoteWritten, scanQuoted, sameLine, noSpace, Cursor.not_atDocumentMark inside]
  · simp [quoteWritten, quote, scanQuoted_other gap inside sameLine noSpace]

/-- The quote behind the text ends the scan. -/
theorem scanQuoted_quote (gap : Gap) {position : Position} (inside : position.column ≠ 0)
    {rest : List Char} (ends : rest.head? ≠ some '\'') (reversed : List Char) :
    scanQuoted .single .text reversed gap position ('\'' :: rest) =
      some (reversed.reverse ++ gap.fold, ⟨rest, position.after '\''⟩) := by
  cases rest with
  | nil => simp [scanQuoted, isBreak, isSpace, Cursor.not_atDocumentMark inside]
  | cons d rest =>
    have other : d ≠ '\'' := by simpa using ends
    simp [scanQuoted, isBreak, isSpace, Cursor.not_atDocumentMark inside, other]

/-- A text is scanned as itself between single quotes, across its line breaks. -/
theorem scanQuoted_single {indent : Nat} (indented : indent ≠ 0) {text rest : List Char}
    (ends : rest.head? ≠ some '\'') {afterBreak : Bool} {gap : Gap} (reversed : List Char)
    (position : Position) (quotable : Quotable text) (pending : Pending text afterBreak gap)
    (inside : afterBreak = false → position.column ≠ 0) :
    scanQuoted .single .text reversed gap position
        (writeSingle indent afterBreak text ++ '\'' :: rest) =
      some (reversed.reverse ++ (gap.fold ++ text),
        ⟨rest, position.afterAll (writeSingle indent afterBreak text ++ ['\''])⟩) := by
  -- the text in front is what was scanned and what is pending, which together grow by a character
  induction text generalizing afterBreak gap reversed position with
  | nil =>
    have written : writeSingle indent afterBreak [] = lead indent afterBreak := rfl
    rw [written, scanQuoted_lead pending, scanQuoted_quote gap (column_lead indented inside) ends]
    simp [Position.afterAll_append]
  | cons c text ih =>
    cases isEnd : isBreak c with
    | true =>
      obtain ⟨further, fold⟩ := pending.addBreak quotable isEnd
      have step := ih reversed (position.after c) quotable.tail further (fun no => nomatch no)
      rw [fold] at step
      simpa [writeSingle_break isEnd, scanQuoted, isEnd] using step
    | false =>
      have column := column_lead indented inside
      have further (place : Position) : (place.after c).column ≠ 0 := by
        simp [Position.column_after isEnd]
      rw [writeSingle_other isEnd, List.append_assoc, scanQuoted_lead pending]
      by_cases blank : c = ' '
      · subst blank
        obtain ⟨spaces, fold⟩ := pending.addSpace quotable
        have step := ih reversed ((position.afterAll (lead indent afterBreak)).after ' ')
          quotable.tail spaces fun _ => further _
        rw [fold] at step
        simpa [quoteWritten, scanQuoted_blank (c := ' ') rfl, Position.afterAll_append] using step
      · have noSpace := isSpace_of_printable quotable.head.2 blank
        have step := ih (c :: (gap.fold.reverse ++ reversed))
          ((position.afterAll (lead indent afterBreak)).afterAll (quoteWritten c)) quotable.tail
          (.none text) fun _ => ?_
        · rw [List.append_assoc, scanQuoted_quoteWritten gap column isEnd noSpace, step]
          simp [Gap.fold, Gap.none, Position.afterAll_append]
        · rw [Position.column_afterAll fun d mem => mem_quoteWritten mem ▸ isEnd]
          omega

/-! ### Double quotes -/

theorem digit?_upper {d : Nat} (small : d < 16) :
    Text.digit? 16 (Text.hexDigit d).toUpper = some d ∧
      isPrintable (Text.hexDigit d).toUpper = true ∧
      isBreak (Text.hexDigit d).toUpper = false := by
  have all : ∀ d < 16, Text.digit? 16 (Text.hexDigit d).toUpper = some d ∧
      isPrintable (Text.hexDigit d).toUpper = true ∧
      isBreak (Text.hexDigit d).toUpper = false := by decide
  exact all d small

theorem mem_upperHex {width value : Nat} {c : Char} (mem : c ∈ upperHex width value) :
    isPrintable c = true ∧ isBreak c = false := by
  induction width generalizing value with
  | zero => exact absurd mem List.not_mem_nil
  | succ width ih =>
    rcases List.mem_append.mp mem with front | last
    · exact ih front
    · rw [List.mem_singleton.mp last]
      exact (digit?_upper (Nat.mod_lt value (by decide))).2

/-- The first number that needs more hexadecimal digits. -/
def hexLimit : Nat → Nat
  | 0 => 1
  | width + 1 => 16 * hexLimit width

theorem length_upperHex (width value : Nat) : (upperHex width value).length = width := by
  induction width generalizing value with
  | zero => rfl
  | succ width ih => rw [upperHex, List.length_append, ih, List.length_singleton]

/-- The digits of a number are read one after the other, on top of the value read so far. -/
theorem foldlM_upperHex (width start value : Nat) :
    (upperHex width value).foldlM
        (fun value c => (Text.digit? 16 c).map fun d => value * 16 + d) start =
      some (start * hexLimit width + value % hexLimit width) := by
  induction width generalizing value with
  | zero => simp [upperHex, hexLimit, Nat.mod_one]
  | succ width ih =>
    have digit := (digit?_upper (d := value % 16) (Nat.mod_lt value (by decide))).1
    have whole : (start * hexLimit width + value / 16 % hexLimit width) * 16 + value % 16 =
        start * hexLimit (width + 1) + value % hexLimit (width + 1) := by
      rw [hexLimit, Nat.mod_mul, Nat.mul_left_comm]
      omega
    rw [upperHex, List.foldlM_append, ih]
    simp [digit, whole]

/-- As many digits as hold a number are read as that number. -/
theorem digitsValue?_upperHex {width value : Nat} (holds : value < hexLimit (width + 1)) :
    digitsValue? 16 (upperHex (width + 1) value) = some value := by
  have some? : (upperHex (width + 1) value).isEmpty = false := by
    rw [List.isEmpty_eq_false_iff, ← List.length_pos_iff, length_upperHex]
    exact Nat.succ_pos width
  rw [digitsValue?, some?, if_neg Bool.false_ne_true, foldlM_upperHex, Nat.mod_eq_of_lt holds,
    Nat.zero_mul, Nat.zero_add]

theorem charOfPoint?_toNat (c : Char) : charOfPoint? c.toNat = some c := by
  have valid : c.toNat < 0xD800 ∨ (0xDFFF < c.toNat ∧ c.toNat < 0x110000) := c.valid
  rw [charOfPoint?, if_pos (by omega), Char.ofNat_toNat]

/-- What stands on one line between double quotes for a text: for each character itself, if it is
neither a quote nor a backslash, or a backslash and then its letter or its code point in digits. -/
inductive DoubleQuoted : List Char → List Char → Prop where
  | nil : DoubleQuoted [] []
  | itself {c : Char} {body text : List Char} (sameLine : isBreak c = false) (noQuote : c ≠ '"')
      (noBackslash : c ≠ '\\') (rest : DoubleQuoted body text) :
      DoubleQuoted (c :: body) (c :: text)
  | letter {letter c : Char} {body text : List Char} (known : escapeValue? letter = some c)
      (rest : DoubleQuoted body text) : DoubleQuoted ('\\' :: letter :: body) (c :: text)
  | digits {letter c : Char} {digits body text : List Char} {point : Nat}
      (width : escapeDigits? letter = some digits.length)
      (value : digitsValue? 16 digits = some point) (known : charOfPoint? point = some c)
      (rest : DoubleQuoted body text) :
      DoubleQuoted ('\\' :: letter :: (digits ++ body)) (c :: text)

theorem escapeValue?_of_letter {c letter : Char} (known : escapeLetter? c = some letter) :
    escapeValue? letter = some c ∧ escapeDigits? letter = none ∧ isPrintable letter = true ∧
      isBreak letter = false := by
  unfold escapeLetter? at known
  split at known <;> first | cases known; decide | cases known

/-- The digits behind the letter of a numeric escape. -/
theorem escapePoint_eq (c : Char) :
    ∃ letter width, escapePoint c = letter :: upperHex (width + 1) c.toNat ∧
      c.toNat < hexLimit (width + 1) ∧ escapeDigits? letter = some (width + 1) ∧
      isPrintable letter = true ∧ isBreak letter = false := by
  have valid : c.toNat < 0xD800 ∨ (0xDFFF < c.toNat ∧ c.toNat < 0x110000) := c.valid
  have two : hexLimit (1 + 1) = 0x100 := rfl
  have four : hexLimit (3 + 1) = 0x10000 := rfl
  have eight : hexLimit (7 + 1) = 0x100000000 := rfl
  unfold escapePoint
  split
  · exact ⟨'x', 1, rfl, by omega, by decide⟩
  split
  · exact ⟨'u', 3, rfl, by omega, by decide⟩
  · exact ⟨'U', 7, rfl, by omega, by decide⟩

/-- The ways in which a character is written between double quotes. -/
theorem escapeWritten_cases (c : Char) :
    (escapeWritten c = [c] ∧ isPrintable c = true ∧ isBreak c = false ∧ c ≠ '"' ∧ c ≠ '\\') ∨
      (∃ letter, escapeWritten c = ['\\', letter] ∧ escapeLetter? c = some letter) ∨
      escapeWritten c = '\\' :: escapePoint c := by
  unfold escapeWritten
  split
  · rename_i itself
    simp only [Bool.and_eq_true, Bool.not_eq_true', bne_iff_ne, and_assoc] at itself
    exact .inl ⟨rfl, itself⟩
  · split
    · exact .inr (.inl ⟨_, rfl, ‹_›⟩)
    · exact .inr (.inr rfl)

theorem mem_escapeWritten {c d : Char} (mem : d ∈ escapeWritten c) :
    isPrintable d = true ∧ isBreak d = false := by
  have backslash : isPrintable '\\' = true ∧ isBreak '\\' = false := by decide
  rcases escapeWritten_cases c with ⟨shape, printable, sameLine, -⟩ | ⟨letter, shape, known⟩ | shape
  · rw [shape, List.mem_singleton] at mem
    exact mem ▸ ⟨printable, sameLine⟩
  · rw [shape] at mem
    rcases List.mem_cons.mp mem with rfl | last
    · exact backslash
    · rw [List.mem_singleton.mp last]
      exact (escapeValue?_of_letter known).2.2
  · rw [shape] at mem
    obtain ⟨letter, width, digits, -, -, plain⟩ := escapePoint_eq c
    rw [digits] at mem
    rcases List.mem_cons.mp mem with rfl | mem
    · exact backslash
    rcases List.mem_cons.mp mem with rfl | mem
    · exact plain
    · exact mem_upperHex mem

/-- Behind a backslash stands what is decoded, whatever blanks are in front of it. -/
theorem scanQuoted_backslash {reversed spaces : List Char} {position : Position}
    (inside : position.column ≠ 0) (rest : List Char) :
    scanQuoted .double .text reversed (.spaces spaces) position ('\\' :: rest) =
      scanQuoted .double .escape (spaces ++ reversed) .none (position.after '\\') rest := by
  simp [scanQuoted, isBreak, isSpace, Cursor.not_atDocumentMark inside, Gap.fold]

theorem letter_of_escapeValue? {letter c : Char} (known : escapeValue? letter = some c) :
    escapeDigits? letter = none ∧ isBreak letter = false := by
  unfold escapeValue? at known
  split at known <;> first | cases known; decide | cases known

theorem isBreak_of_escapeDigits? {letter : Char} {width : Nat}
    (known : escapeDigits? letter = some width) : isBreak letter = false := by
  unfold escapeDigits? at known
  split at known <;> first | decide | cases known

theorem isBreak_of_digit? {radix d : Nat} {c : Char} (digit : Text.digit? radix c = some d) :
    isBreak c = false := by
  rw [← Bool.not_eq_true]
  intro isEnd
  have none : Text.digitWorth c = none := by
    simp only [isBreak, Bool.or_eq_true, beq_iff_eq] at isEnd
    rcases isEnd with (rfl | rfl) | rfl <;> decide
  rw [Text.digit?, none] at digit
  cases digit

theorem isBreak_of_mem_digits {digits : List Char} {start point : Nat}
    (value : digits.foldlM (fun value c => (Text.digit? 16 c).map fun d => value * 16 + d) start =
      some point) : ∀ c ∈ digits, isBreak c = false := by
  induction digits generalizing start with
  | nil => exact List.forall_mem_nil _
  | cons first more ih =>
    rw [List.foldlM_cons] at value
    obtain ⟨next, front, back⟩ := Option.bind_eq_some_iff.mp value
    obtain ⟨d, digit, -⟩ := Option.map_eq_some_iff.mp front
    exact List.forall_mem_cons.mpr ⟨isBreak_of_digit? digit, ih back⟩

/-- The digits of an escape are read one after the other, and stand for their character. -/
theorem scanQuoted_digits {quotes : Quotes} {reversed digits : List Char} {start point : Nat}
    {c : Char} (some? : digits ≠ [])
    (value : digits.foldlM (fun value c => (Text.digit? 16 c).map fun d => value * 16 + d) start =
      some point)
    (known : charOfPoint? point = some c) (position : Position) (rest : List Char) :
    scanQuoted quotes (.digits digits.length start) reversed .none position (digits ++ rest) =
      scanQuoted quotes .text (c :: reversed) .none (position.afterAll digits) rest := by
  induction digits generalizing start position with
  | nil => exact absurd rfl some?
  | cons first more ih =>
    rw [List.foldlM_cons] at value
    obtain ⟨next, front, back⟩ := Option.bind_eq_some_iff.mp value
    obtain ⟨d, digit, rfl⟩ := Option.map_eq_some_iff.mp front
    cases more with
    | nil =>
      obtain rfl := Option.some.inj back
      simp [scanQuoted, digit, known]
    | cons second more =>
      have step := ih (List.cons_ne_nil second more) back (position.after first)
      have others : ¬(first :: second :: more).length ≤ 1 := by simp
      rw [List.cons_append, scanQuoted, digit]
      simp only [if_neg others]
      exact step

/-- What stands between double quotes for a text is scanned as that text. -/
theorem scanQuoted_double {body text : List Char} (quoted : DoubleQuoted body text)
    (rest reversed spaces : List Char) {position : Position} (inside : position.column ≠ 0) :
    scanQuoted .double .text reversed (.spaces spaces) position (body ++ '"' :: rest) =
      some ((spaces ++ reversed).reverse ++ text,
        ⟨rest, position.afterAll (body ++ ['"'])⟩) := by
  have further {c : Char} (place : Position) (sameLine : isBreak c = false) :
      (place.after c).column ≠ 0 := by simp [Position.column_after sameLine]
  induction quoted generalizing reversed spaces position with
  | nil => simp [scanQuoted, isBreak, isSpace, Cursor.not_atDocumentMark inside, Gap.fold]
  | @itself c body text sameLine noQuote noBackslash _ ih =>
    cases blank : isSpace c with
    | true =>
      have step := ih reversed (c :: spaces) (further position sameLine)
      simpa [scanQuoted_blank blank, Gap.addSpace] using step
    | false =>
      have step := ih (c :: (spaces ++ reversed)) [] (further position sameLine)
      rw [List.cons_append, scanQuoted_other (.spaces spaces) inside sameLine blank (by simp)
        (by simp [noQuote, noBackslash])]
      simpa [Gap.fold, Gap.none] using step
  | @letter letter c body text known _ ih =>
    obtain ⟨noDigits, sameLine⟩ := letter_of_escapeValue? known
    have step := ih (c :: (spaces ++ reversed)) [] (further (position.after '\\') sameLine)
    rw [List.cons_append, scanQuoted_backslash inside]
    simpa [scanQuoted, sameLine, noDigits, known, Gap.none] using step
  | @digits letter c digits body text point width value known _ ih =>
    have sameLine := isBreak_of_escapeDigits? width
    have some? : digits ≠ [] := by
      rintro rfl
      cases value
    rw [digitsValue?, if_neg (by simpa using some?)] at value
    have place : (((position.after '\\').after letter).afterAll digits).column ≠ 0 := by
      rw [Position.column_afterAll (isBreak_of_mem_digits value), Position.column_after sameLine]
      omega
    have step := ih (c :: (spaces ++ reversed)) [] place
    rw [List.cons_append, scanQuoted_backslash inside, List.cons_append, scanQuoted, sameLine, width,
      List.append_assoc]
    simp only [Bool.false_eq_true, if_false]
    rw [scanQuoted_digits some? value known]
    simpa [Gap.none, Position.afterAll_append] using step

/-- What is written for a text between double quotes stands for it. -/
theorem doubleQuoted_escapeWritten (text : List Char) :
    DoubleQuoted (text.flatMap escapeWritten) text := by
  induction text with
  | nil => exact .nil
  | cons c text ih =>
    rw [List.flatMap_cons]
    rcases escapeWritten_cases c with
      ⟨shape, -, sameLine, noQuote, noBackslash⟩ | ⟨letter, shape, known⟩ | shape
    · rw [shape]
      exact .itself sameLine noQuote noBackslash ih
    · rw [shape]
      exact .letter (escapeValue?_of_letter known).1 ih
    · obtain ⟨letter, width, digits, holds, count, -⟩ := escapePoint_eq c
      rw [shape, digits]
      refine .digits ?_ (digitsValue?_upperHex holds) (charOfPoint?_toNat c) ih
      rw [length_upperHex]
      exact count

/-! ### What is written -/

/-- The way of writing that a form is. -/
def Form.style : Form → Style
  | plain => .plain
  | single => .single
  | double => .double
  | literal => .literal

/-- The ways in which a text without line feeds is written. -/
theorem writeText_cases (indent : Nat) {text : List Char} (noFeed : '\n' ∉ text) :
    (Form.ofText text = .plain ∧ writeText indent text = text ∧ text ≠ [] ∧
        allowsPlain text = true) ∨
      (Form.ofText text = .single ∧
        writeText indent text = '\'' :: writeSingle indent false text ++ ['\''] ∧
        Quotable text) ∨
      (Form.ofText text = .double ∧
        writeText indent text = '"' :: text.flatMap escapeWritten ++ ['"']) := by
  unfold writeText Form.ofText
  rw [if_neg (by simpa using noFeed)]
  by_cases plain : (!readsAsOther text && allowsPlain text) = true
  · rw [if_pos plain]
    simp only [Bool.and_eq_true, Bool.not_eq_true'] at plain
    refine .inl ⟨rfl, rfl, ?_, plain.2⟩
    rintro rfl
    exact absurd plain.1 (by decide)
  · rw [if_neg plain]
    by_cases single : allowsSingle text = true
    · rw [if_pos single]
      exact .inr (.inl ⟨rfl, rfl, quotable_of_allowsSingle noFeed single⟩)
    · rw [if_neg single]
      exact .inr (.inr ⟨rfl, rfl⟩)

/-- What is written never ends in a line break. -/
theorem endsIn_writeText {indent : Nat} {text : List Char} (noFeed : '\n' ∉ text) :
    endsIn isBreak (writeText indent text) = false := by
  rcases writeText_cases indent noFeed with
    ⟨-, shape, -, plain⟩ | ⟨-, shape, -⟩ | ⟨-, shape⟩
  · simp only [allowsPlain, Bool.and_eq_true, Bool.not_eq_true'] at plain
    rw [shape]
    exact endsIn_of_forall fun c mem => by
      simpa using List.any_eq_false.mp plain.1.1.1.2 c mem
  · rw [shape, endsIn_append]
    decide
  · rw [shape, endsIn_append]
    decide

theorem mem_lead {indent : Nat} {afterBreak : Bool} {c : Char} (mem : c ∈ lead indent afterBreak) :
    c = ' ' := by
  cases afterBreak with
  | false => exact absurd mem List.not_mem_nil
  | true => exact List.eq_of_mem_replicate mem

theorem mem_writeSingle {indent : Nat} {afterBreak : Bool} {text : List Char} {c : Char}
    (mem : c ∈ writeSingle indent afterBreak text) : c = ' ' ∨ c ∈ text := by
  induction text generalizing afterBreak with
  | nil =>
    have written : writeSingle indent afterBreak [] = lead indent afterBreak := rfl
    rw [written] at mem
    exact .inl (mem_lead mem)
  | cons d text ih =>
    have further := fun {afterBreak} (mem : c ∈ writeSingle indent afterBreak text) =>
      (ih mem).imp_right (List.mem_cons_of_mem d)
    cases isEnd : isBreak d with
    | true =>
      rw [writeSingle_break isEnd] at mem
      rcases List.mem_cons.mp mem with rfl | mem
      · exact .inr List.mem_cons_self
      · exact further mem
    | false =>
      rw [writeSingle_other isEnd] at mem
      rcases List.mem_append.mp mem with mem | mem
      · exact .inl (mem_lead mem)
      · rcases List.mem_append.mp mem with mem | mem
        · exact .inr (mem_quoteWritten mem ▸ List.mem_cons_self)
        · exact further mem

/-- Whatever is written can be printed. -/
theorem isPrintable_of_mem_writeText {indent : Nat} {text : List Char} (noFeed : '\n' ∉ text)
    {c : Char} (mem : c ∈ writeText indent text) : isPrintable c = true := by
  have marks : isPrintable ' ' = true ∧ isPrintable '\'' = true ∧ isPrintable '"' = true := by
    decide
  rcases writeText_cases indent noFeed with
    ⟨-, shape, -, plain⟩ | ⟨-, shape, quotable⟩ | ⟨-, shape⟩
  · rw [shape] at mem
    simp only [allowsPlain, Bool.and_eq_true] at plain
    have quotable := quotable_of_allowsSingle noFeed plain.1.1.1.1
    exact List.all_eq_true.mp quotable.printable c mem
  · have inside : c = '\'' ∨ c ∈ writeSingle indent false text := by
      rw [shape] at mem
      simpa [or_comm] using mem
    rcases inside with rfl | mem
    · exact marks.2.1
    rcases mem_writeSingle mem with rfl | mem
    · exact marks.1
    · exact List.all_eq_true.mp quotable.printable c mem
  · have inside : c = '"' ∨ c ∈ text.flatMap escapeWritten := by
      rw [shape] at mem
      simpa [or_comm] using mem
    rcases inside with rfl | mem
    · exact marks.2.2
    · obtain ⟨d, -, mem⟩ := List.mem_flatMap.mp mem
      exact (mem_escapeWritten mem).1

end RecordDiff.Yaml
