import RecordDiff.Proofs.Words

/-!
Scalars on one line of block form. A text stands there plain, if no mark at its start or inside it
means something else, or between quotes, with its quotes doubled or its characters escaped. However
it is written, it is scanned as itself up to what follows. Main statements:

- `IsPlain.scanPlain`: a text that may stand plain is scanned as itself;
- `isPlain_of_allowsPlain`, `isPlain_of_word`: so may what is written plain, and any word;
- `inQuotes_oneLine`, `inQuotes_double`: so is what stands between quotes for a text.
-/

namespace RecordDiff.Yaml

/-! ### Plain scalars -/

/-- Whether a plain scalar may start like a text: with no mark that means something else, and with a
dash or a question mark only if it does not stand alone. -/
def startsPlain : List Char → Bool
  | [] => false
  | c :: rest =>
    !Lexer.isReserved c && c != byteOrderMark && !((c == '-' || c == '?') && endsToken rest)

/-- A text that may stand plain on one line of block form. -/
structure IsPlain (text : List Char) : Prop where
  starts : startsPlain text = true
  oneLine : ∀ c ∈ text, isBreak c = false
  /-- No colon ends a token in it, and no number sign follows a blank. -/
  noMark : hasInnerIndicator false text = false
  noBlank : endsIn isSpace text = false

theorem isPlain_iff {text : List Char} :
    (startsPlain text && !text.any isBreak && !hasInnerIndicator false text &&
      !endsIn isSpace text) = true ↔ IsPlain text := by
  simp only [Bool.and_eq_true, Bool.not_eq_true', List.any_eq_false, Bool.not_eq_true, and_assoc]
  exact ⟨fun ⟨starts, oneLine, noMark, noBlank⟩ => ⟨starts, oneLine, noMark, noBlank⟩,
    fun plain => ⟨plain.starts, plain.oneLine, plain.noMark, plain.noBlank⟩⟩

instance (text : List Char) : Decidable (IsPlain text) :=
  decidable_of_iff _ isPlain_iff

section Plain

variable {text : List Char} (plain : IsPlain text)

include plain

/-- What a plain scalar starts with, and that nothing behind it makes a mark of that. -/
theorem IsPlain.head :
    ∃ c rest, text = c :: rest ∧ StartsToken c ∧ Lexer.isReserved c = false ∧
      ∀ mark, mark = '-' ∨ mark = '?' ∨ mark = ':' →
        ∀ behind, Lexer.startsIndicator mark false (text ++ behind) = false := by
  obtain ⟨starts, oneLine, noMark, -⟩ := plain
  cases text with
  | nil => cases starts
  | cons c rest =>
    simp only [startsPlain, Bool.and_eq_true, Bool.not_eq_true', bne_iff_ne] at starts
    obtain ⟨⟨unreserved, noOrder⟩, noLone⟩ := starts
    have reserved := unreserved
    simp only [Lexer.isReserved, Bool.or_eq_false_iff, beq_eq_false_iff_ne] at reserved
    have noSpace : isSpace c = false := reserved.1.2
    have noComment : c ≠ '#' := by
      rintro rfl
      exact absurd unreserved (by decide)
    refine ⟨c, rest, rfl, ⟨oneLine c List.mem_cons_self, noSpace, noComment, noOrder⟩, unreserved,
      fun mark known behind => ?_⟩
    rw [List.cons_append, Lexer.startsIndicator, Bool.false_or]
    by_cases same : c = mark
    · have goesOn : endsToken rest = false := by
        subst same
        simp only [hasInnerIndicator, Bool.or_eq_false_iff] at noMark
        rcases known with rfl | rfl | rfl
        · simpa using noLone
        · simpa using noLone
        · simpa using noMark.1.1
      rw [endsToken_append goesOn, Bool.and_false]
    · rw [beq_eq_false_iff_ne.mpr same, Bool.false_and]

/-- A text that may stand plain is scanned as itself, whatever follows. -/
theorem IsPlain.scanPlain {least : Nat} {position : Position} (within : least ≤ position.column + 1)
    (rest : List Char) :
    scanPlain ⟨false, least⟩ [] .none position (text ++ rest) =
      Yaml.scanPlain ⟨false, least⟩ text.reverse .none (position.afterAll text) rest := by
  obtain ⟨c, more, rfl, starts, -⟩ := plain.head
  obtain ⟨-, oneLine, noMark, noBlank⟩ := plain
  have column : (position.after c).column = position.column + 1 :=
    Position.column_after starts.noBreak
  simp only [hasInnerIndicator, Bool.or_eq_false_iff, starts.noBreak, starts.noSpace] at noMark
  obtain ⟨⟨noColon, -⟩, inner⟩ := noMark
  -- in front of the first character there is no gap yet, so only a colon could stop there
  have goesOn : stopsPlain ⟨false, least⟩ (.spaces []) position c (more ++ rest) = false := by
    simp [stopsPlain, Gap.isNone, noColon_append noColon rest]
  have first : Yaml.scanPlain ⟨false, least⟩ [] .none position (c :: more ++ rest) =
      Yaml.scanPlain ⟨false, least⟩ [c] (.spaces []) (position.after c) (more ++ rest) := by
    simp [Yaml.scanPlain, starts.noBreak, starts.noSpace, goesOn, isStrayColon, Gap.fold, Gap.none]
  rw [first, scanPlain_text rfl rest [c] [] (by omega) (by rw [column]; exact within)
    (fun d mem => oneLine d (List.mem_cons_of_mem c mem)) (by simpa using inner) (fun _ => rfl)
    (endsIn_of_cons noBlank)]
  simp

end Plain

/-- A text that is written plain may stand plain. -/
theorem isPlain_of_allowsPlain {text : List Char} (nonempty : text ≠ []) (noFeed : '\n' ∉ text)
    (allowed : allowsPlain text = true) : IsPlain text := by
  obtain ⟨c, rest, rfl⟩ := List.exists_cons_of_ne_nil nonempty
  simp only [allowsPlain, Bool.and_eq_true, Bool.not_eq_true', hasIndicator, isIndicator,
    Bool.or_eq_false_iff, beq_eq_false_iff_ne] at allowed
  obtain ⟨⟨⟨⟨single, noBreak⟩, noFront⟩, noEnd⟩, ⟨⟨-, noIndicator⟩, noLone⟩, inner⟩ := allowed
  have quotable := quotable_of_allowsSingle noFeed single
  have printable := quotable.head.2
  have oneLine : ∀ d ∈ c :: rest, isBreak d = false := fun d mem => by
    simpa using List.any_eq_false.mp noBreak d mem
  have noSpace : isSpace c = false :=
    isSpace_of_printable printable (by simpa [startsIn, isPlainSpace] using noFront)
  have noOrder : c ≠ byteOrderMark := by
    rintro rfl
    exact absurd printable (by decide)
  refine ⟨?_, oneLine, ?_, ?_⟩
  · have unreserved : Lexer.isReserved c = false := by
      simp [Lexer.isReserved, isFlowMark, noIndicator, noSpace, oneLine c List.mem_cons_self]
    have together : ((c == '-' || c == '?') && endsToken rest) = false := by
      rw [Bool.and_eq_false_iff] at noLone ⊢
      exact noLone.imp_left fun none => by simp_all
    simp [startsPlain, unreserved, noOrder, together]
  · have noColon : (c == ':' && endsToken rest) = false := by
      rw [Bool.and_eq_false_iff] at noLone ⊢
      exact noLone.imp_left fun none => by simp_all
    simp [hasInnerIndicator, noColon, inner]
  · -- the last character is printable, so it is no tab either
    cases last : (c :: rest).getLast? with
    | none => simp [endsIn, last]
    | some d =>
      have member := List.mem_of_getLast? last
      have printableLast := List.all_eq_true.mp quotable.printable d member
      have noSpaceLast : d ≠ ' ' := by simpa [endsIn, last, isPlainSpace] using noEnd
      simpa [endsIn, last] using isSpace_of_printable printableLast noSpaceLast

/-- A plain word may stand plain. -/
theorem isPlain_of_word {word : List Char} (isWord : IsWord word) : IsPlain word := by
  refine isPlain_of_allowsPlain isWord.nonempty (fun mem => ?_) (allowsPlain_of_word isWord.plain)
  exact absurd (isWord.plain '\n' mem) (by decide)

/-! ### Quoted scalars -/

/-- The mark of quotes. -/
def quoteMark : Quotes → Char
  | .single => '\''
  | .double => '"'

/-- What stands between quotes for a text: there it is scanned as that text, wherever it stands on a
line. -/
def InQuotes (quotes : Quotes) (body text : List Char) : Prop :=
  ∀ (rest : List Char) (position : Position), position.column ≠ 0 → rest.head? ≠ some '\'' →
    scanQuoted quotes .text [] .none position (body ++ quoteMark quotes :: rest) =
      some (text, ⟨rest, position.afterAll (body ++ [quoteMark quotes])⟩)

/-- A text on one line is scanned as itself between single quotes, with its quotes doubled. -/
theorem scanQuoted_oneLine {text : List Char} (oneLine : ∀ c ∈ text, isBreak c = false)
    {rest : List Char} (ends : rest.head? ≠ some '\'') (reversed spaces : List Char)
    {position : Position} (inside : position.column ≠ 0) :
    scanQuoted .single .text reversed (.spaces spaces) position
        (text.flatMap quoteWritten ++ '\'' :: rest) =
      some ((spaces ++ reversed).reverse ++ text,
        ⟨rest, position.afterAll (text.flatMap quoteWritten ++ ['\''])⟩) := by
  induction text generalizing reversed spaces position with
  | nil => simp [scanQuoted_quote (.spaces spaces) inside ends, Gap.fold]
  | cons c text ih =>
    obtain ⟨sameLine, others⟩ := List.forall_mem_cons.mp oneLine
    rw [List.flatMap_cons, List.append_assoc]
    cases blank : isSpace c with
    | true =>
      have noQuote : c ≠ '\'' := by
        rintro rfl
        cases blank
      have further : (position.after c).column ≠ 0 := by simp [Position.column_after sameLine]
      have step := ih others reversed (c :: spaces) further
      simpa [quoteWritten, noQuote, scanQuoted_blank blank, Gap.addSpace] using step
    | false =>
      have further : (position.afterAll (quoteWritten c)).column ≠ 0 := by
        rw [Position.column_afterAll fun d mem => mem_quoteWritten mem ▸ sameLine]
        omega
      have step := ih others (c :: (spaces ++ reversed)) [] further
      rw [scanQuoted_quoteWritten (.spaces spaces) inside sameLine blank]
      simpa [Gap.fold, Gap.none, Position.afterAll_append] using step

theorem inQuotes_oneLine {text : List Char} (oneLine : ∀ c ∈ text, isBreak c = false) :
    InQuotes .single (text.flatMap quoteWritten) text :=
  fun _ _ inside ends => scanQuoted_oneLine oneLine ends [] [] inside

theorem inQuotes_writeSingle {indent : Nat} (indented : indent ≠ 0) {text : List Char}
    (quotable : Quotable text) : InQuotes .single (writeSingle indent false text) text :=
  fun _ position inside ends =>
    scanQuoted_single indented ends [] position quotable (.none text) fun _ => inside

theorem inQuotes_double {body text : List Char} (quoted : DoubleQuoted body text) :
    InQuotes .double body text :=
  fun rest _ inside _ => scanQuoted_double quoted rest [] [] inside

theorem oneLine_flatMap_quoteWritten {text : List Char} (oneLine : ∀ c ∈ text, isBreak c = false) :
    ∀ c ∈ text.flatMap quoteWritten, isBreak c = false := by
  intro c mem
  obtain ⟨d, inside, written⟩ := List.mem_flatMap.mp mem
  exact mem_quoteWritten written ▸ oneLine d inside

theorem DoubleQuoted.oneLine {body text : List Char} (quoted : DoubleQuoted body text) :
    ∀ c ∈ body, isBreak c = false := by
  have backslash : isBreak '\\' = false := by decide
  induction quoted with
  | nil => exact List.forall_mem_nil _
  | itself sameLine _ _ _ ih => exact List.forall_mem_cons.mpr ⟨sameLine, ih⟩
  | letter known _ ih =>
    exact List.forall_mem_cons.mpr
      ⟨backslash, List.forall_mem_cons.mpr ⟨(letter_of_escapeValue? known).2, ih⟩⟩
  | @digits _ _ digits _ _ _ width value known _ ih =>
    have some? : digits ≠ [] := by
      rintro rfl
      cases value
    rw [digitsValue?, if_neg (by simpa using some?)] at value
    refine List.forall_mem_cons.mpr ⟨backslash, List.forall_mem_cons.mpr
      ⟨isBreak_of_escapeDigits? width, List.forall_mem_append.mpr
        ⟨isBreak_of_mem_digits value, ih⟩⟩⟩

end RecordDiff.Yaml
