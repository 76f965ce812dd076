import Mathlib.Data.List.Sort
import RecordDiff.Proofs.WellFormed

/-!
Schemas put one behind the other. A line feed between two texts keeps their lines apart, so that the
logical lines of the whole are those of the one and then those of the other; a reader that has no
struct open in between reads the second text as it would by itself. Main statements:

- `LogicalLine.ofText_append_feed`: the logical lines of two texts with a line feed between them;
- `Registry.get?_merge`: what a registry finds when the structs of another one are added;
- `Pass.step_onto`: a step does the same on top of structs that are registered already;
- `ofString_append`: schemas compose, if every struct of the first one is closed.
-/

namespace RecordDiff.Schema

open Text (isBlank trim trimEnd)

/-! ### Logical lines -/

section LogicalLines

variable {code comment line : List Char} {c : Char} {number other : Nat}

theorem splitComment_append_blank (blank : isBlank c = true) (line : List Char) :
    splitComment (line ++ [c]) =
      match (splitComment line).2 with
      | none => ((splitComment line).1 ++ [c], none)
      | some comment => ((splitComment line).1, some (comment ++ [c])) := by
  have noSlash : c ≠ '/' := by
    rintro rfl
    exact absurd blank (by decide)
  fun_induction splitComment line with
  | case1 => exact splitComment_of_noSlash (by simpa using noSlash.symm)
  | case2 rest => rfl
  | case3 d rest noSlashes cut ih =>
    rw [List.cons_append, splitComment, ih]
    · cases (splitComment rest).2 <;> rfl
    · rintro more rfl starts
      cases rest with
      | nil => exact noSlash (List.cons.inj starts).1
      | cons e rest =>
        rw [List.cons_append, List.cons.injEq] at starts
        exact noSlashes rest rfl (starts.1 ▸ rfl)

/-- The part in front of the first cut can be any longer, so that the induction goes through. -/
theorem pieceBefore_cutCode_append_blank (blank : isBlank c = true) (front code : List Char) :
    pieceBefore (front ++ (cutCode (code ++ [c])).1) (cutCode (code ++ [c])).2 =
      pieceBefore (front ++ (cutCode code).1) (cutCode code).2 := by
  have uncut : isCut c = false := isCut_of_isBlank blank
  induction code generalizing front with
  | nil =>
    have alone : cutCode [c] = ([c], []) := cutCode_of_uncut (by simpa using uncut)
    rw [List.nil_append, alone]
    simp [pieceBefore, cutCode, Text.trim_append_of_blank blank]
  | cons d rest ih =>
    have behind := ih []
    rw [List.nil_append, List.nil_append] at behind
    rw [List.cons_append, cutCode, cutCode]
    split
    · simp only [behind]
    · split
      · simp only [behind]
      · split
        · simp only [behind]
        · rw [List.append_cons, ih, ← List.append_cons]

theorem pieces_append_blank (blank : isBlank c = true) (code : List Char) :
    pieces (code ++ [c]) = pieces code :=
  pieceBefore_cutCode_append_blank blank [] code

theorem commentText_append_blank (blank : isBlank c = true) (comment : List Char) :
    commentText (some (comment ++ [c])) = commentText (some comment) := by
  have allBlank : Text.isAllBlank [c] = true := by simp [Text.isAllBlank, blank]
  rw [commentText, commentText, Text.trimEnd_append_of_blank allBlank]

namespace LogicalLine

theorem ofLine_append_blank (blank : isBlank c = true) (number : Nat) (line : List Char) :
    ofLine number (line ++ [c]) = ofLine number line := by
  simp only [ofLine, splitComment_append_blank blank]
  cases (splitComment line).2 with
  | none => simp only [pieces_append_blank blank]
  | some comment => simp only [commentText_append_blank blank]

theorem ofLine_withoutReturn (number : Nat) (line : List Char) :
    ofLine number (Text.withoutReturn line) = ofLine number line := by
  rw [Text.withoutReturn]
  split
  · rename_i ends
    have whole : line.dropLast ++ ['\r'] = line := List.dropLast_append_getLast? '\r' ends
    conv => rhs; rw [← whole]
    exact (ofLine_append_blank (by decide) number _).symm
  · rfl

theorem ofLines_append (number : Nat) (front back : List (List Char)) :
    ofLines number (front ++ back) =
      ofLines number front ++ ofLines (number + front.length) back := by
  induction front generalizing number with
  | nil => rfl
  | cons line rest ih =>
    rw [List.cons_append, ofLines, ofLines, ih, List.append_assoc, List.length_cons,
      Nat.add_right_comm, Nat.add_assoc]

/-- A line feed at the end of a text changes no logical line. -/
theorem ofLines_feed (number : Nat) (text : List Char) :
    ofLines number (Text.lines (text ++ ['\n'])) = ofLines number (Text.lines text) := by
  induction text using Text.lineInduction generalizing number with
  | last line noFeed =>
    rw [Text.lines_feed noFeed]
    by_cases none : line = []
    · rw [none]
      rfl
    · rw [Text.lines_of_noFeed noFeed none, ofLines, ofLines, ofLine_withoutReturn]
      rfl
  | feed line rest noFeed ih =>
    rw [List.append_assoc, List.cons_append, Text.lines_feed noFeed, Text.lines_feed noFeed,
      ofLines, ofLines, ih]

/-- The logical lines of two texts with a line feed between them: those of the first, and those of
the second with other numbers. -/
theorem ofText_append_feed (front back : List Char) :
    ofText (front ++ '\n' :: back) =
      ofText front ++ ofLines (1 + (Text.lines (front ++ ['\n'])).length) (Text.lines back) := by
  rw [ofText, Text.lines_append_feed, ofLines_append, ofLines_feed]
  rfl

/-- What logical lines hold does not depend on their numbers. -/
theorem map_piece_ofLines (number other : Nat) (lines : List (List Char)) :
    (ofLines number lines).map piece = (ofLines other lines).map piece := by
  induction lines generalizing number other with
  | nil => rfl
  | cons line rest ih =>
    rw [ofLines, ofLines, List.map_append, List.map_append, ih (number + 1) (other + 1)]
    simp [ofLine]

end LogicalLine

end LogicalLines

/-! ### Adding the structs of a registry -/

/-- A registry with the structs of another one added, each in place of one of the same name. -/
def Registry.merge (base added : Registry) : Registry :=
  added.structs.foldl Registry.insert base

namespace Registry

variable {base registry other added : Registry} {struct : Struct}

/-- A registry is what it finds under each name. -/
theorem ext_get? (same : ∀ name, registry.get? name = other.get? name) : registry = other := by
  have irreflexive : Std.Irrefl fun left right : Struct => left.name < right.name :=
    ⟨fun struct => String.lt_irrefl struct.name⟩
  have antisymmetric : Std.Antisymm fun left right : Struct => left.name < right.name :=
    ⟨fun left right before after => absurd after (String.lt_asymm before)⟩
  have members : ∀ struct, struct ∈ registry.structs ↔ struct ∈ other.structs := by
    intro struct
    have found := same struct.name
    constructor
    · intro member
      rw [get?_eq_some_iff.2 ⟨member, rfl⟩] at found
      exact (get?_eq_some_iff.1 found.symm).1
    · intro member
      rw [get?_eq_some_iff.2 ⟨member, rfl⟩] at found
      exact (get?_eq_some_iff.1 found).1
  have structs : registry.structs = other.structs :=
    registry.ascending.eq_of_mem_iff other.ascending members
  cases registry
  cases other
  rwa [Registry.mk.injEq]

/-- What is found under a name is what was added under it, or else what was there before. -/
theorem get?_merge (base added : Registry) (name : String) :
    (base.merge added).get? name = (added.get? name).or (base.get? name) := by
  cases found : added.get? name with
  | none =>
    rw [Option.none_or]
    exact get?_foldl_insert_of_ne (get?_eq_none_iff.1 found)
  | some struct =>
    obtain ⟨member, rfl⟩ := get?_eq_some_iff.1 found
    obtain ⟨front, back, structs⟩ := List.append_of_mem member
    have ascending : Ascending (front ++ struct :: back) := structs ▸ added.ascending
    have others : ∀ other ∈ back, other.name ≠ struct.name := by
      intro other behind same
      have least := (List.pairwise_cons.1 (List.pairwise_append.1 ascending).2.1).1 other behind
      exact String.lt_irrefl _ (same ▸ least)
    rw [Option.some_or, merge, structs]
    exact get?_foldl_insert_append others

theorem empty_merge (registry : Registry) : Registry.empty.merge registry = registry := by
  refine ext_get? fun name => ?_
  rw [get?_merge, get?_empty, Option.or_none]

/-- Adding structs and then one more is adding them with that one among them. -/
theorem merge_insert (base added : Registry) (struct : Struct) :
    base.merge (added.insert struct) = (base.merge added).insert struct := by
  refine ext_get? fun name => ?_
  rw [get?_merge]
  by_cases same : struct.name = name
  · subst same
    rw [get?_insert_self, get?_insert_self, Option.some_or]
  · rw [get?_insert_of_ne _ same, get?_insert_of_ne _ same, get?_merge]

end Registry

/-! ### Passes over what is registered already -/

/-- How many structs are open behind a logical line, where so many are open in front of it: a closing
brace closes the innermost one, if there is one. -/
def LogicalLine.openBehind (count : Nat) (line : LogicalLine) : Nat :=
  match line.piece with
  | .opening => count
  | .closing => count - 1
  | .declaration text _ => if (structName? text).isSome then count + 1 else count

/-- Every struct that a schema opens is closed by a brace of its own. -/
def EveryStructClosed (source : String) : Prop :=
  (LogicalLine.ofText source.toList).foldl LogicalLine.openBehind 0 = 0

instance (source : String) : Decidable (EveryStructClosed source) :=
  inferInstanceAs (Decidable (_ = 0))

/-- A declaration that can be read on one line can be read on any other. -/
theorem readDeclaration_of_ok {line other : Nat} {text : List Char}
    {declared : String × String × Nat} (read : readDeclaration line text = .ok declared) :
    readDeclaration other text = .ok declared :=
  readDeclaration_eq_ok_iff.2 (readDeclaration_eq_ok_iff.1 read)

namespace Pass

variable {pass next last : Pass} {line other : LogicalLine} {lines others : List LogicalLine}
  {base : Registry}

/-- As many structs are open behind a line as its brace or its declaration makes it. -/
theorem length_opened_of_step (stepped : pass.step line = .ok next) :
    next.opened.length = line.openBehind pass.opened.length := by
  rw [LogicalLine.openBehind]
  cases piece : line.piece with
  | opening =>
    rw [step_opening piece] at stepped
    cases stepped
    rfl
  | closing =>
    rw [step_closing piece] at stepped
    cases stepped
    rw [closeStruct]
    cases opened : pass.opened with
    | nil => rw [opened]; rfl
    | cons top below => rfl
  | declaration text comment =>
    simp only
    cases opens : structName? text with
    | some bare =>
      rw [step_declaration_some piece opens] at stepped
      cases stepped
      rfl
    | none =>
      rw [step_declaration_none piece opens, declareField] at stepped
      split at stepped
      · cases stepped
        rfl
      · rename_i top below opened
        split at stepped
        · cases stepped
        · cases stepped
          rw [opened]
          rfl

theorem run_eq_ok {registry : Registry} (read : pass.run lines = .ok registry) :
    ∃ last, lines.foldlM step pass = .ok last ∧ last.finish = registry := by
  rw [run] at read
  cases found : lines.foldlM step pass with
  | error fault =>
    rw [found] at read
    cases read
  | ok last =>
    rw [found] at read
    exact ⟨last, rfl, Except.ok.inj read⟩

theorem foldlM_append_eq_ok (read : (lines ++ others).foldlM step pass = .ok last) :
    ∃ next, lines.foldlM step pass = .ok next ∧ others.foldlM step next = .ok last := by
  rw [List.foldlM_append] at read
  cases found : lines.foldlM step pass with
  | error fault =>
    rw [found] at read
    cases read
  | ok next =>
    rw [found] at read
    exact ⟨next, rfl, read⟩

theorem foldlM_cons_eq_ok (read : (line :: lines).foldlM step pass = .ok last) :
    ∃ next, pass.step line = .ok next ∧ lines.foldlM step next = .ok last := by
  rw [List.foldlM_cons] at read
  cases stepped : pass.step line with
  | error fault =>
    rw [stepped] at read
    cases read
  | ok next =>
    rw [stepped] at read
    exact ⟨next, rfl, read⟩

theorem length_opened_of_foldlM (read : lines.foldlM step pass = .ok last) :
    last.opened.length = lines.foldl LogicalLine.openBehind pass.opened.length := by
  induction lines generalizing pass with
  | nil =>
    cases read
    rfl
  | cons line rest ih =>
    obtain ⟨next, stepped, later⟩ := foldlM_cons_eq_ok read
    rw [List.foldl_cons, ← length_opened_of_step stepped]
    exact ih later

/-- The pass as it would be if structs had been registered before it. -/
def onto (pass : Pass) (base : Registry) : Pass :=
  ⟨pass.opened, base.merge pass.registry⟩

theorem start_onto (base : Registry) : start.onto base = ⟨[], base⟩ := rfl

/-- A step that can be done does the same on top of structs that are registered already, on a line of
any number. -/
theorem step_onto (same : line.piece = other.piece) (stepped : pass.step line = .ok next) :
    (pass.onto base).step other = .ok (next.onto base) := by
  obtain ⟨opened, registry⟩ := pass
  cases piece : line.piece with
  | opening =>
    rw [step_opening piece] at stepped
    cases stepped
    exact step_opening (same ▸ piece)
  | closing =>
    rw [step_closing piece] at stepped
    cases stepped
    rw [step_closing (same ▸ piece)]
    cases opened with
    | nil => rfl
    | cons top below =>
      simp only [closeStruct, onto, Registry.merge_insert]
  | declaration text comment =>
    cases opens : structName? text with
    | some bare =>
      rw [step_declaration_some piece opens] at stepped
      cases stepped
      rw [step_declaration_some (same ▸ piece) opens]
      rfl
    | none =>
      rw [step_declaration_none piece opens, declareField] at stepped
      rw [step_declaration_none (same ▸ piece) opens, declareField]
      cases opened with
      | nil =>
        cases stepped
        rfl
      | cons top below =>
        simp only [onto] at stepped ⊢
        cases declared : readDeclaration line.number text with
        | error fault =>
          rw [declared] at stepped
          cases stepped
        | ok declaration =>
          rw [declared] at stepped
          rw [readDeclaration_of_ok declared]
          cases stepped
          rfl

theorem foldlM_step_onto (same : lines.map LogicalLine.piece = others.map LogicalLine.piece)
    (read : lines.foldlM step pass = .ok last) :
    others.foldlM step (pass.onto base) = .ok (last.onto base) := by
  induction lines generalizing others pass with
  | nil =>
    obtain rfl : others = [] := List.map_eq_nil_iff.1 same.symm
    cases read
    rfl
  | cons line rest ih =>
    obtain ⟨other, more, rfl, piece, pieces⟩ := List.map_eq_cons_iff.1 same.symm
    obtain ⟨next, stepped, later⟩ := foldlM_cons_eq_ok read
    rw [List.foldlM_cons, step_onto piece.symm stepped]
    exact ih pieces.symm later

theorem finish_onto (pass : Pass) (base : Registry) :
    (pass.onto base).finish = base.merge pass.finish := by
  obtain ⟨opened, registry⟩ := pass
  induction opened generalizing registry with
  | nil => rfl
  | cons top below ih =>
    have rest := ih (registry.insert top.struct)
    simp only [finish, onto, List.foldl_cons, Registry.merge_insert] at rest ⊢
    exact rest

/-- Lines that can be read give the same structs behind others. -/
theorem run_onto {registry : Registry}
    (same : lines.map LogicalLine.piece = others.map LogicalLine.piece)
    (read : start.run lines = .ok registry) :
    run ⟨[], base⟩ others = .ok (base.merge registry) := by
  obtain ⟨last, found, rfl⟩ := run_eq_ok read
  rw [run, ← start_onto base, foldlM_step_onto same found]
  exact congrArg Except.ok (finish_onto last base)

end Pass

/-! ### Schemas -/

section Schemas

variable {source more : String} {registry added : Registry}

theorem isAllBlank_of_ofString (read : Registry.ofString source = .ok registry) :
    Text.isAllBlank source.toList = false := by
  rw [← Bool.not_eq_true]
  intro blank
  rw [Registry.ofString, readText_of_blank blank] at read
  cases read

/-- Nothing is open behind a schema of which every struct is closed. -/
theorem foldlM_step_of_everyStructClosed (closed : EveryStructClosed source)
    (read : Registry.ofString source = .ok registry) :
    (LogicalLine.ofText source.toList).foldlM Pass.step Pass.start = .ok ⟨[], registry⟩ := by
  have run : Pass.start.run (LogicalLine.ofText source.toList) = .ok registry :=
    Pass.run_readLines.trans (readLines_of_ofString read)
  obtain ⟨last, found, rfl⟩ := Pass.run_eq_ok run
  have opened : last.opened = [] := by
    rw [← List.length_eq_zero_iff, Pass.length_opened_of_foldlM found]
    exact closed
  rw [found]
  obtain ⟨_, registry⟩ := last
  cases opened
  rfl

/-- Schemas compose. Where every struct of a schema is closed, a line feed and any other schema can be
put behind it: the whole is read as the first schema with the structs of the second one added, so that
under each name the struct of the second is found if it has one, and else that of the first. -/
theorem ofString_append (closed : EveryStructClosed source)
    (read : Registry.ofString source = .ok registry)
    (readMore : Registry.ofString more = .ok added) :
    Registry.ofString (source ++ "\n" ++ more) = .ok (registry.merge added) ∧
      ∀ name, (registry.merge added).get? name = (added.get? name).or (registry.get? name) := by
  refine ⟨?_, registry.get?_merge added⟩
  have whole : (source ++ "\n" ++ more).toList = source.toList ++ '\n' :: more.toList := by
    rw [String.toList_append, String.toList_append, List.append_assoc]
    rfl
  have inked : Text.isAllBlank (source ++ "\n" ++ more).toList = false := by
    have front := isAllBlank_of_ofString read
    rw [Text.isAllBlank] at front ⊢
    rw [whole, List.all_append, front, Bool.false_and]
  have run : Pass.start.run (LogicalLine.ofText (source ++ "\n" ++ more).toList) =
      .ok (registry.merge added) := by
    have later : Pass.start.run (LogicalLine.ofText more.toList) = .ok added :=
      Pass.run_readLines.trans (readLines_of_ofString readMore)
    have first := foldlM_step_of_everyStructClosed closed read
    -- the second text is read behind the first as by itself, with other line numbers
    rw [whole, LogicalLine.ofText_append_feed, Pass.run, List.foldlM_append, first]
    exact Pass.run_onto (LogicalLine.map_piece_ofLines 1 _ _) later
  have filled : (registry.merge added).isEmpty = false := by
    obtain ⟨struct, rest, structs⟩ := List.exists_cons_of_ne_nil (structs_ne_nil_of_ofString readMore)
    have member : struct ∈ added.structs := structs ▸ List.mem_cons_self
    have found : (registry.merge added).get? struct.name = some struct := by
      rw [Registry.get?_merge, Registry.get?_eq_some_iff.2 ⟨member, rfl⟩, Option.some_or]
    exact List.isEmpty_eq_false_iff.2 (List.ne_nil_of_mem (Registry.get?_eq_some_iff.1 found).1)
  exact ofString_of_run inked run filled

/-- A schema that ends in a comment and a carriage return. -/
def seamText : String :=
  "struct A \x7b struct B \x7b uint8_t x; \x7d \x7d // end\r"

/-- A schema that has a struct of the same name, and neither ends its declarations nor its structs. -/
def followingText : String :=
  "\x7d struct A \x7b char y[3]\n struct C"

theorem ofString_append_of_seamText :
    EveryStructClosed seamText ∧
      Registry.ofString (seamText ++ "\n" ++ followingText) =
        .ok (((Registry.empty.insert ⟨"A", [⟨"y", .text, 3, ""⟩]⟩).insert
          ⟨"A::B", [⟨"x", .byte, 1, " // end"⟩]⟩).insert ⟨"A::C", []⟩) := by
  obtain ⟨closed, inked, inkedMore⟩ : EveryStructClosed seamText ∧
      Text.isAllBlank seamText.toList = false ∧ Text.isAllBlank followingText.toList = false := by
    decide +kernel
  have read : Registry.ofString seamText =
      .ok ((Registry.empty.insert ⟨"A::B", [⟨"x", .byte, 1, " // end"⟩]⟩).insert ⟨"A", []⟩) :=
    ofString_of_run inked rfl rfl
  have readMore : Registry.ofString followingText =
      .ok ((Registry.empty.insert ⟨"A::C", []⟩).insert ⟨"A", [⟨"y", .text, 3, ""⟩]⟩) :=
    ofString_of_run inkedMore rfl rfl
  refine ⟨closed, (ofString_append closed read readMore).1.trans ?_⟩
  decide +kernel

end Schemas

end RecordDiff.Schema
