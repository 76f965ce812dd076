import RecordDiff.Proofs.Printing

/-!
What logical lines can hold. A line is cut at its first two slashes, and its code at each semicolon
and brace, so none of these marks is left in a declaration, whatever the text; and as declarations are
trimmed, they have no blanks at their ends. Main statements:

- `splitComment_spec`: a line is its code, which has no two slashes in a row, and its comment;
- `declared_of_mem_pieces`: a declaration is a part of the code without marks, trimmed;
- `isTidy_of_mem_ofText`: what is left is true of every declaration of every text, and so is the form
  of comments.
-/

namespace RecordDiff.Schema

open Text (isBlank trim trimStart trimEnd)

/-! ### Texts of declarations -/

/-- A text without the marks that end a declaration: line feeds, semicolons, braces, and two slashes
in a row. -/
structure Unmarked (text : List Char) : Prop where
  noFeed : '\n' ∉ text
  uncut : ';' ∉ text ∧ '{' ∉ text ∧ '}' ∉ text
  noSlashes : ¬['/', '/'] <:+: text

/-- A text that can be declared: there is some, it has no blanks at its ends and no marks in it. -/
structure IsTidy (text : List Char) : Prop where
  inked : text ≠ []
  front : ∀ c ∈ text.head?, isBlank c = false
  back : ∀ c ∈ text.getLast?, isBlank c = false
  unmarked : Unmarked text

section Marks

variable {text part front back code : List Char} {c : Char}

theorem Unmarked.of_isInfix (unmarked : Unmarked text) (inside : part <:+: text) : Unmarked part where
  noFeed member := unmarked.noFeed (inside.mem member)
  uncut := by
    obtain ⟨semicolon, opening, closing⟩ := unmarked.uncut
    exact ⟨fun member => semicolon (inside.mem member), fun member => opening (inside.mem member),
      fun member => closing (inside.mem member)⟩
  noSlashes slashes := unmarked.noSlashes (slashes.trans inside)

theorem IsTidy.of_trim (unmarked : Unmarked text) (inked : trim text ≠ []) : IsTidy (trim text) where
  inked := inked
  front _ first := Text.isBlank_of_head?_trim first
  back _ last := Text.isBlank_of_getLast?_trimEnd last
  unmarked := unmarked.of_isInfix (Text.trim_isInfix text)

/-- What is left of a tidy text behind some part of it is tidy, if it does not start with a blank. -/
theorem IsTidy.of_suffix (tidy : IsTidy text) (behind : part <:+ text) (inked : part ≠ [])
    (front : ∀ c ∈ part.head?, isBlank c = false) : IsTidy part where
  inked := inked
  front := front
  back := by
    obtain ⟨before, rfl⟩ := behind
    have back := tidy.back
    rwa [List.getLast?_append_of_ne_nil _ inked] at back
  unmarked := tidy.unmarked.of_isInfix behind.isInfix

/-- Two slashes in a row do not come about where texts are put together around another character. -/
theorem noSlashes_append (other : c ≠ '/') (noFront : ¬['/', '/'] <:+: front)
    (noBack : ¬['/', '/'] <:+: back) : ¬['/', '/'] <:+: front ++ c :: back := by
  induction front with
  | nil =>
    rw [List.nil_append, List.infix_cons_iff, not_or]
    refine ⟨fun starts => ?_, noBack⟩
    exact other (List.cons_prefix_cons.1 starts).1.symm
  | cons d front ih =>
    rw [List.infix_cons_iff, not_or] at noFront
    rw [List.cons_append, List.infix_cons_iff, not_or]
    refine ⟨fun starts => ?_, ih noFront.2⟩
    obtain ⟨rfl, next⟩ := List.cons_prefix_cons.1 starts
    cases front with
    | nil => exact other (List.cons_prefix_cons.1 next).1.symm
    | cons e front =>
      obtain ⟨rfl, -⟩ := List.cons_prefix_cons.1 next
      exact noFront.1 ⟨front, rfl⟩

end Marks

/-! ### Code and comments -/

section Pieces

variable {line code text comment note part : List Char} {number : Nat}

/-- A line is its code and then its comment, if it has one; there are no two slashes in a row in the
code, and the comment starts with the first two. -/
theorem splitComment_spec (line : List Char) :
    (splitComment line).1 ++ (splitComment line).2.getD [] = line ∧
      ¬['/', '/'] <:+: (splitComment line).1 ∧
      ∀ comment ∈ (splitComment line).2, ∃ rest, comment = '/' :: '/' :: rest := by
  fun_induction splitComment line with
  | case1 => simp
  | case2 rest => simp
  | case3 c rest noSlashes cut ih =>
    obtain ⟨whole, noneInside, starts⟩ := ih
    refine ⟨congrArg (c :: ·) whole, ?_, starts⟩
    rw [List.infix_cons_iff, not_or]
    refine ⟨fun begins => ?_, noneInside⟩
    obtain ⟨rfl, next⟩ := List.cons_prefix_cons.1 begins
    obtain ⟨more, front⟩ := next
    refine noSlashes (more ++ cut.2.getD []) rfl ?_
    rw [← whole, ← front]
    rfl

theorem isCut_eq_false_iff {c : Char} : isCut c = false ↔ c ≠ ';' ∧ c ≠ '{' ∧ c ≠ '}' := by
  simp [isCut, and_assoc]

theorem isCut_of_isBlank {c : Char} (blank : isBlank c = true) : isCut c = false := by
  rw [isCut_eq_false_iff]
  refine ⟨?_, ?_, ?_⟩ <;> rintro rfl <;> exact absurd blank (by decide)

theorem cutCode_cons_of_uncut {c : Char} (uncut : isCut c = false) (rest : List Char) :
    cutCode (c :: rest) = (c :: (cutCode rest).1, (cutCode rest).2) := by
  obtain ⟨noSemicolon, noOpening, noClosing⟩ := isCut_eq_false_iff.1 uncut
  simp only [cutCode, if_neg noSemicolon, if_neg noOpening, if_neg noClosing]

/-- The text is what remains of a part of the code, without cuts in it, that is not blank. -/
def RemainsOf (code text : List Char) : Prop :=
  text ≠ [] ∧ ∃ part, part <:+: code ∧ (∀ c ∈ part, isCut c = false) ∧ text = trim part

theorem RemainsOf.cons {c : Char} (remains : RemainsOf code text) : RemainsOf (c :: code) text := by
  obtain ⟨inked, part, inside, uncut, trimmed⟩ := remains
  exact ⟨inked, part, List.infix_cons inside, uncut, trimmed⟩

theorem declared_of_mem_pieceBefore {pieces : List Piece} {comment : String}
    (inside : part <:+: code) (uncut : ∀ c ∈ part, isCut c = false)
    (later : ∀ text comment, .declaration text comment ∈ pieces →
      RemainsOf code text ∧ comment = "")
    (member : .declaration text comment ∈ pieceBefore part pieces) :
    RemainsOf code text ∧ comment = "" := by
  unfold pieceBefore at member
  split at member
  · exact later text comment member
  · rename_i inked
    rcases List.mem_cons.1 member with here | behind
    · obtain ⟨rfl, rfl⟩ := Piece.declaration.inj here
      exact ⟨⟨by simpa using inked, part, inside, uncut, rfl⟩, rfl⟩
    · exact later text comment behind

theorem cutCode_spec (code : List Char) :
    (cutCode code).1 <+: code ∧ (∀ c ∈ (cutCode code).1, isCut c = false) ∧
      ∀ text comment, .declaration text comment ∈ (cutCode code).2 →
        RemainsOf code text ∧ comment = "" := by
  induction code with
  | nil => simp [cutCode]
  | cons c rest ih =>
    obtain ⟨front, uncut, later⟩ := ih
    have behind : ∀ text comment,
        .declaration text comment ∈ pieceBefore (cutCode rest).1 (cutCode rest).2 →
          RemainsOf (c :: rest) text ∧ comment = "" := by
      intro text comment member
      obtain ⟨remains, noComment⟩ := declared_of_mem_pieceBefore front.isInfix uncut later member
      exact ⟨remains.cons, noComment⟩
    have nothing : [] <+: c :: rest := List.nil_prefix
    rw [cutCode]
    split
    · exact ⟨nothing, by simp, behind⟩
    · rename_i noSemicolon
      split
      · refine ⟨nothing, by simp, fun text comment member => behind text comment ?_⟩
        simpa using member
      · rename_i noOpening
        split
        · refine ⟨nothing, by simp, fun text comment member => behind text comment ?_⟩
          simpa using member
        · rename_i noClosing
          refine ⟨List.cons_prefix_cons.2 ⟨rfl, front⟩, ?_, ?_⟩
          · intro d member
            rcases List.mem_cons.1 member with rfl | inside
            · exact isCut_eq_false_iff.2 ⟨noSemicolon, noOpening, noClosing⟩
            · exact uncut d inside
          · intro text comment member
            obtain ⟨remains, noComment⟩ := later text comment member
            exact ⟨remains.cons, noComment⟩

/-- A declaration is what remains of a part of the code, and has no comment of its own. -/
theorem declared_of_mem_pieces {comment : String}
    (member : .declaration text comment ∈ pieces code) : RemainsOf code text ∧ comment = "" := by
  obtain ⟨front, uncut, later⟩ := cutCode_spec code
  exact declared_of_mem_pieceBefore front.isInfix uncut later member

/-- Handing out a comment changes no text, and no other comment. -/
theorem mem_attachComment {note comment : String} {pieces : List Piece}
    (member : .declaration text comment ∈ attachComment note pieces) :
    ∃ before, .declaration text before ∈ pieces ∧ (comment = before ∨ comment = note) := by
  induction pieces with
  | nil => cases member
  | cons piece rest ih =>
    unfold attachComment at member
    split at member
    · rcases List.mem_cons.1 member with rfl | later
      · exact ⟨comment, List.mem_cons_self, .inl rfl⟩
      · obtain ⟨before, found, same⟩ := ih later
        exact ⟨before, List.mem_cons_of_mem _ found, same⟩
    · split at member
      · rename_i before
        rcases List.mem_cons.1 member with here | later
        · obtain ⟨rfl, rfl⟩ := Piece.declaration.inj here
          exact ⟨before, List.mem_cons_self, .inr rfl⟩
        · exact ⟨comment, List.mem_cons_of_mem _ later, .inl rfl⟩
      · exact ⟨comment, member, .inl rfl⟩

/-! ### Comments -/

theorem isComment_commentText {cut : Option (List Char)} (noFeed : ∀ comment ∈ cut, '\n' ∉ comment)
    (starts : ∀ comment ∈ cut, ∃ rest, comment = '/' :: '/' :: rest) :
    IsComment (commentText cut).toList := by
  cases cut with
  | none => exact .inl rfl
  | some comment =>
    obtain ⟨rest, rfl⟩ := starts comment rfl
    have ink : isBlank '/' = false := by decide
    have whole : trimEnd ('/' :: '/' :: rest) = '/' :: '/' :: trimEnd rest := by
      rw [Text.trimEnd_cons_of_ink ink, Text.trimEnd_cons_of_ink ink]
    refine .inr ⟨trimEnd rest, ?_, ?_, fun c last => Text.isBlank_of_getLast?_trimEnd last⟩
    · rw [commentText, String.toList_ofList, whole]
    · intro feed
      have inside : '\n' ∈ rest := (Text.trimEnd_isPrefix rest).mem feed
      exact noFeed _ rfl (List.mem_cons_of_mem _ (List.mem_cons_of_mem _ inside))

/-! ### Lines -/

/-- On a line without line feeds declarations are tidy, and comments have their form. -/
theorem isTidy_of_mem_ofLine {comment : String} {logical : LogicalLine} (noFeed : '\n' ∉ line)
    (member : logical ∈ LogicalLine.ofLine number line)
    (piece : logical.piece = .declaration text comment) :
    IsTidy text ∧ IsComment comment.toList := by
  obtain ⟨found, attached, rfl⟩ := List.mem_map.1 member
  obtain rfl : found = .declaration text comment := piece
  obtain ⟨whole, noSlashes, starts⟩ := splitComment_spec line
  obtain ⟨before, cut, note⟩ := mem_attachComment attached
  obtain ⟨⟨inked, part, inside, uncut, rfl⟩, rfl⟩ := declared_of_mem_pieces cut
  have noFeedCode : '\n' ∉ (splitComment line).1 := by
    intro feed
    exact noFeed (whole ▸ List.mem_append_left _ feed)
  constructor
  · have unmarked : Unmarked part := by
      refine ⟨fun feed => noFeedCode (inside.mem feed), ⟨?_, ?_, ?_⟩,
        fun slashes => noSlashes (slashes.trans inside)⟩
      · exact fun mark => (isCut_eq_false_iff.1 (uncut _ mark)).1 rfl
      · exact fun mark => (isCut_eq_false_iff.1 (uncut _ mark)).2.1 rfl
      · exact fun mark => (isCut_eq_false_iff.1 (uncut _ mark)).2.2 rfl
    exact .of_trim unmarked inked
  · rcases note with rfl | rfl
    · exact .inl rfl
    · refine isComment_commentText (fun comment found feed => noFeed ?_) starts
      rw [Option.mem_def.1 found] at whole
      exact whole ▸ List.mem_append_right _ feed

theorem isTidy_of_mem_ofLines {comment : String} {logical : LogicalLine} {lines : List (List Char)}
    (noFeed : ∀ line ∈ lines, '\n' ∉ line) (member : logical ∈ LogicalLine.ofLines number lines)
    (piece : logical.piece = .declaration text comment) :
    IsTidy text ∧ IsComment comment.toList := by
  induction lines generalizing number with
  | nil => cases member
  | cons line rest ih =>
    obtain ⟨noFeedHere, noFeedBehind⟩ := List.forall_mem_cons.1 noFeed
    rcases List.mem_append.1 member with here | behind
    · exact isTidy_of_mem_ofLine noFeedHere here piece
    · exact ih noFeedBehind behind

/-- Whatever a text is, its declarations are tidy, and their comments have their form. -/
theorem isTidy_of_mem_ofText {source : List Char} {comment : String} {logical : LogicalLine}
    (member : logical ∈ LogicalLine.ofText source)
    (piece : logical.piece = .declaration text comment) :
    IsTidy text ∧ IsComment comment.toList := by
  refine isTidy_of_mem_ofLines ?_ member piece
  intro line inside
  exact Text.noFeed_of_mem_lines inside

end Pieces

end RecordDiff.Schema
