import Mathlib.Data.List.Induction
import Mathlib.Logic.Relation
import RecordDiff.Proofs.Concatenation

/-!
The layout of a schema on lines. A declaration ends at a line feed as it ends at a semicolon, and a
brace ends what stands in front of it and starts what stands behind it. So a text without comments can
be put on one line, with semicolons for its line feeds, and has the same pieces there; what leaves the
pieces of that line as they are is no more than another layout. Main statements:

- `pieces_append_cut`: code is cut where a mark stands, whatever stands on its two sides;
- `LogicalLine.map_piece_ofText`: a text without comments has the pieces that it has on one line;
- `Relayout.pieces_eq`: a change of the layout changes no piece;
- `LogicalLine.ofText_withReturns`: carriage returns in front of line feeds change no logical line;
- `ofString_relaid`: a schema is read the same under any layout, and with either kind of line ends.
-/

namespace RecordDiff.Schema

open Text (isBlank isAllBlank)

/-! ### Texts laid out -/

/-- A line feed or a semicolon: what ends a declaration and leaves no piece of its own. -/
def isEnd (c : Char) : Bool :=
  c == '\n' || c == ';'

/-- One change of the layout of a text: a line feed or a semicolon takes the place of the other, or is
put in directly before or directly behind a brace or a semicolon. -/
inductive Relayout : List Char → List Char → Prop where
  | exchange {old new : Char} (front back : List Char) (oldEnds : isEnd old = true)
      (newEnds : isEnd new = true) : Relayout (front ++ old :: back) (front ++ new :: back)
  | before {mark new : Char} (front back : List Char) (cut : isCut mark = true)
      (newEnds : isEnd new = true) : Relayout (front ++ mark :: back) (front ++ new :: mark :: back)
  | behind {mark new : Char} (front back : List Char) (cut : isCut mark = true)
      (newEnds : isEnd new = true) : Relayout (front ++ mark :: back) (front ++ mark :: new :: back)

/-- A text on one line: a semicolon stands for each line feed. -/
def oneLine (text : List Char) : List Char :=
  text.map fun c => if c = '\n' then ';' else c

/-- A text with a carriage return in front of each line feed. -/
def withReturns (text : List Char) : List Char :=
  text.flatMap fun c => if c = '\n' then ['\r', '\n'] else [c]

/-! ### Pieces of code -/

/-- The piece that a mark leaves: a brace is a piece of its own, and a semicolon is none. -/
def Piece.ofMark (mark : Char) : List Piece :=
  if mark = '{' then [.opening] else if mark = '}' then [.closing] else []

section Pieces

variable {c mark : Char} {line : List Char}

theorem eq_of_isCut (cut : isCut c = true) : c = ';' ∨ c = '{' ∨ c = '}' := by
  simpa [isCut, or_assoc] using cut

theorem eq_of_isEnd (ends : isEnd c = true) : c = '\n' ∨ c = ';' := by
  simpa [isEnd] using ends

theorem cutCode_cons_of_cut (cut : isCut c = true) (rest : List Char) :
    cutCode (c :: rest) = ([], Piece.ofMark c ++ pieces rest) := by
  rcases eq_of_isCut cut with rfl | rfl | rfl <;> rfl

theorem pieceBefore_append (part : List Char) (first later : List Piece) :
    pieceBefore part (first ++ later) = pieceBefore part first ++ later := by
  unfold pieceBefore
  split <;> rfl

/-- A mark ends what stands in front of it, and nothing behind it reaches over it. -/
theorem cutCode_append_cut (cut : isCut mark = true) (front back : List Char) :
    cutCode (front ++ mark :: back) =
      ((cutCode front).1, (cutCode front).2 ++ (Piece.ofMark mark ++ pieces back)) := by
  induction front with
  | nil => exact cutCode_cons_of_cut cut back
  | cons c rest ih =>
    rw [List.cons_append]
    by_cases first : isCut c = true
    · have behind : pieces (rest ++ mark :: back) =
          pieces rest ++ (Piece.ofMark mark ++ pieces back) := by
        rw [pieces, ih, pieceBefore_append]
        rfl
      rw [cutCode_cons_of_cut first, cutCode_cons_of_cut first, behind, List.append_assoc]
    · rw [Bool.not_eq_true] at first
      rw [cutCode_cons_of_uncut first, cutCode_cons_of_uncut first, ih]

/-- Code is cut where a mark stands, whatever stands on its two sides. -/
theorem pieces_append_cut (cut : isCut mark = true) (front back : List Char) :
    pieces (front ++ mark :: back) = pieces front ++ (Piece.ofMark mark ++ pieces back) := by
  rw [pieces, cutCode_append_cut cut, pieceBefore_append]
  rfl

theorem pieces_cons_cut (cut : isCut mark = true) (back : List Char) :
    pieces (mark :: back) = Piece.ofMark mark ++ pieces back :=
  pieces_append_cut cut [] back

/-- Pieces that have no comments are left without one where there is none to hand out. -/
theorem attachComment_empty {pieces : List Piece}
    (plain : ∀ text comment, .declaration text comment ∈ pieces → comment = "") :
    attachComment "" pieces = pieces := by
  induction pieces with
  | nil => rfl
  | cons piece rest ih =>
    have behind := ih fun text comment member => plain text comment (List.mem_cons_of_mem _ member)
    unfold attachComment
    split
    · rw [behind]
    · split
      · rename_i text comment
        rw [plain text comment List.mem_cons_self]
      · rfl

theorem splitComment_of_noSlashes (noSlashes : ¬['/', '/'] <:+: line) :
    splitComment line = (line, none) := by
  obtain ⟨whole, -, starts⟩ := splitComment_spec line
  cases cut : splitComment line with
  | mk code comment =>
    rw [cut] at whole starts
    cases comment with
    | none => rw [← whole, Option.getD_none, List.append_nil]
    | some comment =>
      obtain ⟨rest, rfl⟩ := starts comment rfl
      exact absurd ⟨code, rest, by rw [← whole]; simp⟩ noSlashes

end Pieces

/-! ### Logical lines -/

namespace LogicalLine

variable {line : List Char}

theorem ofLine_of_noSlashes (noSlashes : ¬['/', '/'] <:+: line) (number : Nat) :
    ofLine number line = (pieces line).map (LogicalLine.mk number) := by
  have plain : attachComment "" (pieces line) = pieces line :=
    attachComment_empty fun text comment member => (declared_of_mem_pieces member).2
  simp only [ofLine, splitComment_of_noSlashes noSlashes, commentText, plain]

theorem map_piece_ofLine (noSlashes : ¬['/', '/'] <:+: line) (number : Nat) :
    (ofLine number line).map piece = pieces line := by
  rw [ofLine_of_noSlashes noSlashes, List.map_map]
  exact List.map_id _

end LogicalLine

theorem oneLine_of_noFeed {line : List Char} (noFeed : '\n' ∉ line) : oneLine line = line := by
  have same : ∀ c ∈ line, (if c = '\n' then ';' else c) = c := by
    intro c member
    refine if_neg ?_
    rintro rfl
    exact noFeed member
  rw [oneLine, List.map_congr_left same, List.map_id']

theorem oneLine_append (front back : List Char) :
    oneLine (front ++ back) = oneLine front ++ oneLine back :=
  List.map_append

theorem withReturns_of_noFeed {line : List Char} (noFeed : '\n' ∉ line) :
    withReturns line = line := by
  induction line with
  | nil => rfl
  | cons c rest ih =>
    simp only [List.mem_cons, not_or] at noFeed
    have rest := ih noFeed.2
    rw [withReturns] at rest ⊢
    rw [List.flatMap_cons, rest, if_neg (Ne.symm noFeed.1), List.singleton_append]

theorem withReturns_append (front back : List Char) :
    withReturns (front ++ back) = withReturns front ++ withReturns back :=
  List.flatMap_append

namespace LogicalLine

theorem map_piece_ofLines_oneLine {text : List Char} (noSlashes : ¬['/', '/'] <:+: text)
    (number : Nat) : (ofLines number (Text.lines text)).map piece = pieces (oneLine text) := by
  induction text using Text.lineInduction generalizing number with
  | last line noFeed =>
    rw [oneLine_of_noFeed noFeed]
    by_cases none : line = []
    · rw [none]
      rfl
    · rw [Text.lines_of_noFeed noFeed none, ofLines, ofLines, List.append_nil,
        map_piece_ofLine noSlashes]
  | feed line rest noFeed ih =>
    have noSlashesLine : ¬['/', '/'] <:+: line := fun slashes =>
      noSlashes (slashes.trans (List.prefix_append _ _).isInfix)
    have noSlashesRest : ¬['/', '/'] <:+: rest := fun slashes =>
      noSlashes (slashes.trans ⟨line ++ ['\n'], [], by simp⟩)
    have semicolon : oneLine ('\n' :: rest) = ';' :: oneLine rest := rfl
    have leavesNone : Piece.ofMark ';' = [] := rfl
    rw [Text.lines_feed noFeed, ofLines, List.map_append, ofLine_withoutReturn,
      map_piece_ofLine noSlashesLine, ih noSlashesRest, oneLine_append, oneLine_of_noFeed noFeed,
      semicolon, pieces_append_cut rfl, leavesNone, List.nil_append]

/-- A text without comments has the pieces that it has on one line. -/
theorem map_piece_ofText {text : List Char} (noSlashes : ¬['/', '/'] <:+: text) :
    (ofText text).map piece = pieces (oneLine text) :=
  map_piece_ofLines_oneLine noSlashes 1

theorem ofLines_withReturns (number : Nat) (text : List Char) :
    ofLines number (Text.lines (withReturns text)) = ofLines number (Text.lines text) := by
  induction text using Text.lineInduction generalizing number with
  | last line noFeed => rw [withReturns_of_noFeed noFeed]
  | feed line rest noFeed ih =>
    have whole : withReturns (line ++ '\n' :: rest) =
        (line ++ ['\r']) ++ '\n' :: withReturns rest := by
      rw [withReturns_append, withReturns_of_noFeed noFeed, List.append_assoc]
      rfl
    have noFeedNow : '\n' ∉ line ++ ['\r'] := by
      rw [List.mem_append]
      exact fun feed => feed.elim noFeed (by decide)
    -- the line loses the carriage return that was put in, but may have had one of its own before
    have returned : Text.withoutReturn (line ++ ['\r']) = line := by
      simp [Text.withoutReturn]
    rw [whole, Text.lines_feed noFeedNow, Text.lines_feed noFeed, ofLines, ofLines, returned,
      ofLine_withoutReturn, ih]

/-- Carriage returns in front of line feeds change no logical line, and no line number. -/
theorem ofText_withReturns (text : List Char) : ofText (withReturns text) = ofText text :=
  ofLines_withReturns 1 text

theorem ofLine_of_isAllBlank {line : List Char} (blank : isAllBlank line = true) (number : Nat) :
    ofLine number line = [] := by
  induction line using List.reverseRecOn with
  | nil => rfl
  | append_singleton rest c ih =>
    rw [isAllBlank, List.all_append, Bool.and_eq_true] at blank
    have last : isBlank c = true := by simpa using blank.2
    rw [ofLine_append_blank last]
    exact ih blank.1

/-- A blank text has no logical lines. -/
theorem ofLines_of_isAllBlank {text : List Char} (blank : isAllBlank text = true) (number : Nat) :
    ofLines number (Text.lines text) = [] := by
  induction text using Text.lineInduction generalizing number with
  | last line noFeed =>
    by_cases none : line = []
    · rw [none]
      rfl
    · rw [Text.lines_of_noFeed noFeed none, ofLines, ofLine_of_isAllBlank blank]
      rfl
  | feed line rest noFeed ih =>
    rw [isAllBlank, List.all_append, List.all_cons, Bool.and_eq_true, Bool.and_eq_true] at blank
    rw [Text.lines_feed noFeed, ofLines, ofLine_withoutReturn, ofLine_of_isAllBlank blank.1,
      ih blank.2.2]
    rfl

end LogicalLine

/-! ### Changes of the layout -/

namespace Relayout

variable {text other : List Char}

/-- A change of the layout brings no two slashes together. -/
theorem noSlashes (relayout : Relayout text other) (noSlashes : ¬['/', '/'] <:+: text) :
    ¬['/', '/'] <:+: other := by
  have noEnd : ∀ {c : Char}, isEnd c = true → c ≠ '/' := by
    rintro c ends rfl
    cases ends
  cases relayout with
  | @exchange old new front back oldEnds newEnds =>
    have inFront : front <:+: front ++ old :: back := (List.prefix_append _ _).isInfix
    have inBack : back <:+: front ++ old :: back := ⟨front ++ [old], [], by simp⟩
    exact noSlashes_append (noEnd newEnds) (fun slashes => noSlashes (slashes.trans inFront))
      fun slashes => noSlashes (slashes.trans inBack)
  | @before mark new front back cut newEnds =>
    have inFront : front <:+: front ++ mark :: back := (List.prefix_append _ _).isInfix
    have inBack : mark :: back <:+: front ++ mark :: back := (List.suffix_append _ _).isInfix
    exact noSlashes_append (noEnd newEnds) (fun slashes => noSlashes (slashes.trans inFront))
      fun slashes => noSlashes (slashes.trans inBack)
  | @behind mark new front back cut newEnds =>
    have noMark : mark ≠ '/' := by
      rintro rfl
      cases cut
    have inFront : front <:+: front ++ mark :: back := (List.prefix_append _ _).isInfix
    have inBack : back <:+: front ++ mark :: back := ⟨front ++ [mark], [], by simp⟩
    have noSlashesBehind : ¬['/', '/'] <:+: [] ++ new :: back :=
      noSlashes_append (noEnd newEnds) (by simp) fun slashes => noSlashes (slashes.trans inBack)
    exact noSlashes_append noMark (fun slashes => noSlashes (slashes.trans inFront)) noSlashesBehind

/-- A change of the layout changes no piece. -/
theorem pieces_eq (relayout : Relayout text other) :
    pieces (oneLine other) = pieces (oneLine text) := by
  have ended : ∀ {c : Char} (rest : List Char), isEnd c = true →
      oneLine (c :: rest) = ';' :: oneLine rest := by
    intro c rest ends
    rcases eq_of_isEnd ends with rfl | rfl <;> rfl
  have marked : ∀ {c : Char} (rest : List Char), isCut c = true →
      oneLine (c :: rest) = c :: oneLine rest := by
    intro c rest cut
    rcases eq_of_isCut cut with rfl | rfl | rfl <;> rfl
  have semicolon : isCut ';' = true := rfl
  have leavesNone : Piece.ofMark ';' = [] := rfl
  cases relayout with
  | exchange front back oldEnds newEnds =>
    rw [oneLine_append, oneLine_append, ended back oldEnds, ended back newEnds]
  | before front back cut newEnds =>
    rw [oneLine_append, oneLine_append, ended _ newEnds, marked back cut,
      pieces_append_cut semicolon, pieces_cons_cut cut, pieces_append_cut cut, leavesNone,
      List.nil_append]
  | behind front back cut newEnds =>
    rw [oneLine_append, oneLine_append, marked back cut, marked _ cut, ended back newEnds,
      pieces_append_cut cut, pieces_cons_cut semicolon, pieces_append_cut cut, leavesNone,
      List.nil_append]

/-- However many changes of the layout are made, the logical lines hold the same pieces. -/
theorem map_piece_ofText (relaid : Relation.ReflTransGen Relayout text other)
    (noSlashes : ¬['/', '/'] <:+: text) :
    (LogicalLine.ofText other).map LogicalLine.piece =
      (LogicalLine.ofText text).map LogicalLine.piece := by
  suffices kept : ¬['/', '/'] <:+: other ∧ pieces (oneLine other) = pieces (oneLine text) by
    rw [LogicalLine.map_piece_ofText noSlashes, LogicalLine.map_piece_ofText kept.1, kept.2]
  induction relaid with
  | refl => exact ⟨noSlashes, rfl⟩
  | tail _ step ih => exact ⟨step.noSlashes ih.1, step.pieces_eq.trans ih.2⟩

end Relayout

/-! ### Schemas -/

section Schemas

variable {source other : String} {registry : Registry}

/-- A text whose logical lines hold what those of a schema hold is read as the same schema, whatever
the numbers of its lines. -/
theorem ofString_of_map_piece
    (same : (LogicalLine.ofText source.toList).map LogicalLine.piece =
      (LogicalLine.ofText other.toList).map LogicalLine.piece)
    (read : Registry.ofString source = .ok registry) : Registry.ofString other = .ok registry := by
  have lines : Pass.start.run (LogicalLine.ofText source.toList) = .ok registry :=
    Pass.run_readLines.trans (readLines_of_ofString read)
  have filled : registry.isEmpty = false :=
    List.isEmpty_eq_false_iff.2 (structs_ne_nil_of_ofString read)
  have run : Pass.start.run (LogicalLine.ofText other.toList) = .ok registry := by
    have onto : Pass.run ⟨[], .empty⟩ (LogicalLine.ofText other.toList) =
        .ok (Registry.empty.merge registry) := Pass.run_onto same lines
    rwa [Registry.empty_merge] at onto
  have inked : isAllBlank other.toList = false := by
    rw [← Bool.not_eq_true]
    intro blank
    have none : LogicalLine.ofText other.toList = [] := LogicalLine.ofLines_of_isAllBlank blank 1
    rw [none] at run
    cases run
    cases filled
  exact ofString_of_run inked run filled

theorem isAllBlank_withReturns (text : List Char) :
    isAllBlank (withReturns text) = isAllBlank text := by
  have same : ∀ c : Char, (if c = '\n' then ['\r', '\n'] else [c]).all isBlank = isBlank c := by
    intro c
    split
    · rename_i feed
      rw [feed]
      rfl
    · simp
  rw [isAllBlank, isAllBlank, withReturns, List.all_flatMap]
  simp only [same]

/-- The layout of a schema on lines does not matter. A text without comments, and any text that comes
from it when line feeds and semicolons take each other's places or are put in beside braces and
semicolons, are read as the same registry or are both refused. And any text, with its comments, is
read the same with carriage returns in front of its line feeds, down to the fault and its line. -/
theorem ofString_relaid :
    (∀ source other : String, ¬['/', '/'] <:+: source.toList →
        Relation.ReflTransGen Relayout source.toList other.toList →
          (∃ registry, Registry.ofString source = .ok registry ∧
            Registry.ofString other = .ok registry) ∨
          ∃ fault another, Registry.ofString source = .error fault ∧
            Registry.ofString other = .error another) ∧
      ∀ source : String,
        Registry.ofString (String.ofList (withReturns source.toList)) = Registry.ofString source := by
  constructor
  · intro source other noSlashes relaid
    have same := Relayout.map_piece_ofText relaid noSlashes
    cases read : Registry.ofString source with
    | ok registry => exact .inl ⟨registry, rfl, ofString_of_map_piece same.symm read⟩
    | error fault =>
      cases readOther : Registry.ofString other with
      | error another => exact .inr ⟨fault, another, rfl, rfl⟩
      | ok registry =>
        rw [ofString_of_map_piece same readOther] at read
        cases read
  · intro source
    rw [Registry.ofString, Registry.ofString, String.toList_ofList, readText, readText,
      isAllBlank_withReturns, LogicalLine.ofText_withReturns]

/-- A struct over four lines, with a semicolon between its fields. -/
def spreadText : String :=
  "struct P\n\x7b\nchar x[2]; uint16le y\n\x7d"

/-- The struct of `spreadText` with its brace behind a semicolon and each field on its own line. -/
def relaidText : String :=
  "struct P;\x7b\nchar x[2]\n uint16le y\n\x7d;"

theorem ofString_relaid_of_spreadText :
    Relation.ReflTransGen Relayout spreadText.toList relaidText.toList ∧
      Registry.ofString relaidText =
        .ok (Registry.empty.insert ⟨"P", [⟨"x", .text, 2, ""⟩, ⟨"y", .word, 1, ""⟩]⟩) ∧
      Registry.ofString (String.ofList (withReturns spreadText.toList)) =
        .ok (Registry.empty.insert ⟨"P", [⟨"x", .text, 2, ""⟩, ⟨"y", .word, 1, ""⟩]⟩) := by
  obtain ⟨inked, noSlashes⟩ : isAllBlank spreadText.toList = false ∧
      ¬['/', '/'] <:+: spreadText.toList := by decide +kernel
  have read : Registry.ofString spreadText =
      .ok (Registry.empty.insert ⟨"P", [⟨"x", .text, 2, ""⟩, ⟨"y", .word, 1, ""⟩]⟩) :=
    ofString_of_run inked rfl rfl
  -- the two texts and the two between them, cut where they are changed
  obtain ⟨first, second, third, fourth⟩ :
      spreadText.toList = "struct P".toList ++ '\n' :: "\x7b\nchar x[2]; uint16le y\n\x7d".toList ∧
      "struct P".toList ++ ';' :: "\x7b\nchar x[2]; uint16le y\n\x7d".toList =
        "struct P;\x7b\nchar x[2]".toList ++ ';' :: " uint16le y\n\x7d".toList ∧
      "struct P;\x7b\nchar x[2]".toList ++ '\n' :: " uint16le y\n\x7d".toList =
        "struct P;\x7b\nchar x[2]\n uint16le y\n".toList ++ ['\x7d'] ∧
      relaidText.toList = "struct P;\x7b\nchar x[2]\n uint16le y\n".toList ++ ['\x7d', ';'] := by
    decide +kernel
  have relaid : Relation.ReflTransGen Relayout spreadText.toList relaidText.toList := by
    rw [first, fourth]
    refine .head (@Relayout.exchange '\n' ';' _ _ rfl rfl) ?_
    rw [second]
    refine .head (@Relayout.exchange ';' '\n' _ _ rfl rfl) ?_
    rw [third]
    exact .single (.behind _ [] rfl rfl)
  obtain ⟨sameRelaid, sameReturns⟩ := ofString_relaid
  refine ⟨relaid, ?_, (sameReturns spreadText).trans read⟩
  obtain ⟨registry, first, second⟩ | ⟨fault, -, refused, -⟩ := sameRelaid _ _ noSlashes relaid
  · rw [second, ← first, read]
  · rw [read] at refused
    cases refused

end Schemas

end RecordDiff.Schema
