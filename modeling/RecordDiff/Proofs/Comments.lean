import RecordDiff.Proofs.Concatenation
import RecordDiff.Proofs.Extension

/-!
Comments and what depends on them. A comment goes along with a declaration to a field, and from there
to a row of a comparison, and no step on the way looks into it. So erasing comments commutes with each
step: with reading a logical line, with entering, finding and sizing a struct, and with walking over
records. Main statements:

- `LogicalLine.map_plain_ofLine`: without its comment, a line has the pieces of its trimmed code;
- `Pass.map_plain_run`: a pass reads lines without comments as it reads them with comments;
- `Registry.byteSize_plain`: comments are no part of a size;
- `compareLabeled_plain`: a comparison under a registry without comments has the same rows, without
  comments;
- `ofString_sameCode`: two schemas with the same code on each line are refused for the same fault, or
  have the same structs, sizes and comparisons up to comments.
-/

namespace RecordDiff.Schema

open Text (isBlank isAllBlank trim)

/-! ### Erasing comments from schemas -/

/-- The field without its comment. -/
def Field.plain (field : Field) : Field :=
  { field with comment := "" }

/-- The struct without the comments of its fields. -/
def Struct.plain (struct : Struct) : Struct :=
  { struct with fields := struct.fields.map Field.plain }

/-- The registry without comments. -/
def Registry.plain (registry : Registry) : Registry :=
  ⟨registry.structs.map Struct.plain, List.pairwise_map.2 registry.ascending⟩

/-- The piece without its comment. -/
def Piece.plain : Piece → Piece
  | .declaration text _ => .declaration text ""
  | brace => brace

/-- The logical line without its comment. -/
def LogicalLine.plain (line : LogicalLine) : LogicalLine :=
  { line with piece := line.piece.plain }

/-- The pass without the comments that it has read. -/
def Pass.plain (pass : Pass) : Pass where
  opened := pass.opened.map fun top => { top with struct := top.struct.plain }
  registry := pass.registry.plain

/-- The code of a line: what stands in front of its comment, without blanks at its ends. -/
def codeOf (line : List Char) : List Char :=
  trim (splitComment line).1

/-- The texts have equally many lines, with the same code on each of them. -/
def SameCode (text other : List Char) : Prop :=
  (Text.lines text).map codeOf = (Text.lines other).map codeOf

instance (text other : List Char) : Decidable (SameCode text other) :=
  inferInstanceAs (Decidable (_ = _))

/-- Steps that commute with a change can be taken before it or behind it. -/
theorem map_bind_comm {α β γ δ : Type} {outcome : Except Fault α} {next : α → Except Fault β}
    {later : γ → Except Fault δ} {change : α → γ} {changeNext : β → δ}
    (nexts : ∀ value, (next value).map changeNext = later (change value)) :
    (outcome.bind next).map changeNext = (outcome.map change).bind later := by
  cases outcome with
  | error fault => rfl
  | ok value => exact nexts value

/-- Outcomes that a change makes equal are the same fault, or values that it makes equal. -/
theorem eq_or_map_eq {α β : Type} {first second : Except Fault α} {change : α → β}
    (same : first.map change = second.map change) :
    (∃ fault, first = .error fault ∧ second = .error fault) ∨
      ∃ value other, first = .ok value ∧ second = .ok other ∧ change value = change other := by
  cases first with
  | error fault =>
    cases second with
    | error other => exact .inl ⟨fault, rfl, congrArg Except.error (Except.error.inj same).symm⟩
    | ok other => cases same
  | ok value =>
    cases second with
    | error fault => cases same
    | ok other => exact .inr ⟨value, other, rfl, rfl, Except.ok.inj same⟩

/-! ### Logical lines -/

section Lines

variable {blanks : List Char} {c : Char}

theorem pieces_cons_blank (blank : isBlank c = true) (code : List Char) :
    pieces (c :: code) = pieces code := by
  have trimmed : trim (c :: (cutCode code).1) = trim (cutCode code).1 := by
    rw [trim, trim, Text.trimStart, Text.trimStart, List.dropWhile_cons_of_pos blank]
  rw [pieces, pieces, cutCode_cons_of_uncut (isCut_of_isBlank blank), pieceBefore, pieceBefore,
    trimmed]

theorem pieces_of_blank_append (blank : isAllBlank blanks = true) (code : List Char) :
    pieces (blanks ++ code) = pieces code := by
  induction blanks with
  | nil => rfl
  | cons c rest ih =>
    rw [isAllBlank, List.all_cons, Bool.and_eq_true] at blank
    rw [List.cons_append, pieces_cons_blank blank.1, ih blank.2]

theorem pieces_of_append_blank (blank : isAllBlank blanks = true) (code : List Char) :
    pieces (code ++ blanks) = pieces code := by
  induction blanks generalizing code with
  | nil => rw [List.append_nil]
  | cons c rest ih =>
    rw [isAllBlank, List.all_cons, Bool.and_eq_true] at blank
    rw [List.append_cons, ih blank.2, pieces_append_blank blank.1]

/-- Blanks at the ends of code are in no piece. -/
theorem pieces_trim (code : List Char) : pieces (trim code) = pieces code := by
  obtain ⟨front, blankFront, whole⟩ := Text.exists_append_trimStart code
  obtain ⟨back, blankBack, inner⟩ := Text.exists_trimEnd_append (Text.trimStart code)
  calc pieces (trim code)
      = pieces (trim code ++ back) := (pieces_of_append_blank blankBack _).symm
    _ = pieces (Text.trimStart code) := congrArg pieces inner
    _ = pieces (front ++ Text.trimStart code) := (pieces_of_blank_append blankFront _).symm
    _ = pieces code := congrArg pieces whole

theorem map_plain_attachComment (comment : String) (pieces : List Piece) :
    (attachComment comment pieces).map Piece.plain = pieces.map Piece.plain := by
  induction pieces with
  | nil => rfl
  | cons piece rest ih =>
    unfold attachComment
    split
    · rw [List.map_cons, List.map_cons, ih]
    · cases piece <;> rfl

/-- Code has no comments in it. -/
theorem map_plain_pieces (code : List Char) : (pieces code).map Piece.plain = pieces code := by
  have same : ∀ piece ∈ pieces code, piece.plain = piece := by
    intro piece member
    cases piece with
    | opening => rfl
    | closing => rfl
    | declaration text comment =>
      rw [(declared_of_mem_pieces member).2]
      rfl
  rw [List.map_congr_left same, List.map_id']

namespace LogicalLine

/-- Without its comment, a line has the pieces of its trimmed code. -/
theorem map_plain_ofLine (number : Nat) (line : List Char) :
    (ofLine number line).map plain = (pieces (codeOf line)).map (LogicalLine.mk number) := by
  have plainMk : plain ∘ LogicalLine.mk number = LogicalLine.mk number ∘ Piece.plain := rfl
  rw [ofLine, List.map_map, plainMk, ← List.map_map, map_plain_attachComment, map_plain_pieces,
    codeOf, pieces_trim]

theorem map_plain_ofLines {lines others : List (List Char)}
    (same : lines.map codeOf = others.map codeOf) (number : Nat) :
    (ofLines number lines).map plain = (ofLines number others).map plain := by
  induction lines generalizing others number with
  | nil =>
    obtain rfl : others = [] := List.map_eq_nil_iff.1 same.symm
    rfl
  | cons line rest ih =>
    obtain ⟨other, more, rfl, here, behind⟩ := List.map_eq_cons_iff.1 same.symm
    rw [ofLines, ofLines, List.map_append, List.map_append, map_plain_ofLine, map_plain_ofLine, here,
      ih behind.symm]

end LogicalLine

end Lines

/-! ### Reading -/

namespace Registry

theorem map_plain_insertByName (struct : Struct) (structs : List Struct) :
    (insertByName struct structs).map Struct.plain =
      insertByName struct.plain (structs.map Struct.plain) := by
  induction structs with
  | nil => rfl
  | cons first rest ih =>
    have names : struct.plain.name = struct.name ∧ first.plain.name = first.name := ⟨rfl, rfl⟩
    rw [List.map_cons, insertByName, insertByName, names.1, names.2]
    split
    · rfl
    · split
      · rfl
      · rw [List.map_cons, ih]

theorem plain_insert (registry : Registry) (struct : Struct) :
    (registry.insert struct).plain = registry.plain.insert struct.plain := by
  simp only [plain, insert, map_plain_insertByName]

end Registry

namespace Pass

theorem plain_openStruct (pass : Pass) (bare : String) :
    (pass.openStruct bare).plain = pass.plain.openStruct bare := by
  obtain ⟨opened, registry⟩ := pass
  cases opened <;> rfl

theorem plain_closeStruct (pass : Pass) : pass.closeStruct.plain = pass.plain.closeStruct := by
  obtain ⟨opened, registry⟩ := pass
  cases opened with
  | nil => rfl
  | cons top below =>
    simp only [plain, closeStruct, List.map_cons, Registry.plain_insert]

theorem map_plain_declareField (pass : Pass) (number : Nat) (text : List Char) (comment : String) :
    (pass.declareField number text comment).map plain =
      pass.plain.declareField number text "" := by
  obtain ⟨opened, registry⟩ := pass
  cases opened with
  | nil => rfl
  | cons top below =>
    simp only [declareField, plain, List.map_cons]
    cases readDeclaration number text with
    | error fault => rfl
    | ok declared => simp [Except.map, plain, Struct.push, Struct.plain, Field.plain]

theorem map_plain_step (pass : Pass) (line : LogicalLine) :
    (pass.step line).map plain = pass.plain.step line.plain := by
  obtain ⟨number, piece⟩ := line
  cases piece with
  | opening => rfl
  | closing => exact congrArg Except.ok pass.plain_closeStruct
  | declaration text comment =>
    cases opens : structName? text with
    | some bare =>
      rw [step_declaration_some rfl opens, step_declaration_some rfl opens]
      exact congrArg Except.ok (pass.plain_openStruct _)
    | none =>
      rw [step_declaration_none rfl opens, step_declaration_none rfl opens]
      exact map_plain_declareField pass number text comment

theorem plain_finish (pass : Pass) : pass.finish.plain = pass.plain.finish := by
  rw [finish, finish, plain, List.foldl_map]
  exact (List.foldl_hom Registry.plain fun registry top =>
    (registry.plain_insert top.struct).symm).symm

/-- A pass reads lines without comments as it reads them with comments. -/
theorem map_plain_run (pass : Pass) (lines : List LogicalLine) :
    (pass.run lines).map Registry.plain = pass.plain.run (lines.map LogicalLine.plain) := by
  induction lines generalizing pass with
  | nil => exact congrArg Except.ok pass.plain_finish
  | cons line rest ih =>
    rw [List.map_cons, run_cons, run_cons, ← map_plain_step]
    exact map_bind_comm ih

end Pass

theorem map_plain_nonEmptyRegistry (registry : Registry) :
    (nonEmptyRegistry registry).map Registry.plain = nonEmptyRegistry registry.plain := by
  have same : registry.plain.isEmpty = registry.isEmpty := List.isEmpty_map
  rw [nonEmptyRegistry, nonEmptyRegistry, same]
  split <;> rfl

/-- What is read from a text, up to comments, is settled by the code of its lines. -/
theorem map_plain_ofString {source other : String} (inked : isAllBlank source.toList = false)
    (inkedOther : isAllBlank other.toList = false) (same : SameCode source.toList other.toList) :
    (Registry.ofString source).map Registry.plain = (Registry.ofString other).map Registry.plain := by
  rw [ofString_eq_bind inked, ofString_eq_bind inkedOther, map_bind_comm map_plain_nonEmptyRegistry,
    map_bind_comm map_plain_nonEmptyRegistry, Pass.map_plain_run, Pass.map_plain_run,
    LogicalLine.ofText, LogicalLine.ofText, LogicalLine.map_plain_ofLines same]

/-! ### Names and sizes -/

theorem sizeFields_plain (sizeOf : String → Except Fault Nat) (struct : String) (total : Nat)
    (fields : List Field) :
    sizeFields sizeOf struct total (fields.map Field.plain) =
      sizeFields sizeOf struct total fields := by
  induction fields generalizing total with
  | nil => rfl
  | cons field rest ih =>
    have size : field.plain.size sizeOf = field.size sizeOf := rfl
    rw [List.map_cons, sizeFields_cons, sizeFields_cons, size]
    simp only [ih]

namespace Registry

theorem get?_plain (registry : Registry) (name : String) :
    registry.plain.get? name = (registry.get? name).map Struct.plain :=
  List.find?_map

theorem find?_plain (registry : Registry) (name : String) :
    registry.plain.find? name = (registry.find? name).map Struct.plain := by
  have ends :
      registry.plain.structs.find? (fun struct => unqualified struct.name == unqualified name) =
        (registry.structs.find? fun struct => unqualified struct.name == unqualified name).map
          Struct.plain := List.find?_map
  rw [find?, find?, getUnqualified?, getUnqualified?, get?_plain, get?_plain, ends, Option.map_or,
    Option.map_or]

theorem resolve_plain (registry : Registry) (name : String) :
    registry.plain.resolve name = (registry.resolve name).map Struct.plain := by
  rw [resolve, resolve, find?_plain]
  cases registry.find? name <;> rfl

theorem sizeWithin_plain (registry : Registry) (levels : Nat) (name : String) :
    registry.plain.sizeWithin levels name = registry.sizeWithin levels name := by
  induction levels generalizing name with
  | zero => rfl
  | succ levels ih =>
    have inner : registry.plain.sizeWithin levels = registry.sizeWithin levels := funext ih
    rw [sizeWithin_succ_eq_bind, sizeWithin_succ_eq_bind, resolve_plain, inner]
    cases registry.resolve name with
    | error fault => rfl
    | ok struct => exact sizeFields_plain _ struct.name 0 struct.fields

/-- Comments are no part of a size. -/
theorem byteSize_plain (registry : Registry) (name : String) :
    registry.plain.byteSize name = registry.byteSize name :=
  sizeWithin_plain registry levelLimit name

end Registry

end RecordDiff.Schema

namespace RecordDiff.Comparison

open RecordDiff.Schema

/-! ### Erasing comments from rows -/

mutual

/-- The row without its comment and those of the rows below. -/
def Row.plain : Row → Row
  | ⟨label, _, left, right, children⟩ => ⟨label, "", left, right, plainRows children⟩

/-- The rows without comments. -/
def plainRows : List Row → List Row
  | [] => []
  | row :: rest => row.plain :: plainRows rest

end

/-- The tree without the comments of its rows. -/
def Tree.plain (tree : Tree) : Tree :=
  { tree with root := tree.root.plain }

theorem plainRows_append (front back : List Row) :
    plainRows (front ++ back) = plainRows front ++ plainRows back := by
  induction front with
  | nil => simp [plainRows]
  | cons row rest ih => simp [plainRows, ih]

theorem isEmpty_plainRows (rows : List Row) : (plainRows rows).isEmpty = rows.isEmpty := by
  cases rows <;> simp [plainRows]

theorem Row.plain_branch (label : String) (children : List Row) :
    (branch label children).plain = branch label (plainRows children) := by
  simp [branch, plain]

/-! ### Walks -/

section Walks

variable {registry : Registry} {sides : Sides} {filter : Filter}

theorem leafRows_plain (field : Field) (left right : Option String) :
    leafRows filter field.plain left right = plainRows (leafRows filter field left right) := by
  have kept : filter.keepsLeaf field.plain.name left right =
      filter.keepsLeaf field.name left right := rfl
  rw [leafRows, leafRows, kept]
  split
  · simp [plainRows, Row.plain, Row.leaf, Field.plain]
  · simp [plainRows]

theorem sectionRows_plain (field : Field) (index : Nat) (children : List Row) :
    sectionRows filter field.plain index (plainRows children) =
      plainRows (sectionRows filter field index children) := by
  have kept : filter.keepsSection field.plain.name (plainRows children) =
      filter.keepsSection field.name children := by
    rw [Filter.keepsSection, Filter.keepsSection, isEmpty_plainRows]
    rfl
  have label : field.plain.elementLabel index = field.elementLabel index := rfl
  rw [sectionRows, sectionRows, kept, label]
  split
  · simp [plainRows, Row.plain_branch]
  · simp [plainRows]

theorem walkScalar_plain (field : Field) (cursor : Nat) :
    walkScalar sides filter field.plain cursor =
      changeRows plainRows (walkScalar sides filter field cursor) := by
  have supported : field.plain.checkSupported = field.checkSupported := rfl
  have decoded : ∀ record, decodeSide record cursor field.plain = decodeSide record cursor field :=
    fun _ => rfl
  have width : field.plain.scalarWidth = field.scalarWidth := rfl
  rw [walkScalar, walkScalar, supported, decoded, decoded, width]
  cases field.checkSupported with
  | error fault => rfl
  | ok =>
    cases decodeSide sides.left cursor field with
    | error fault => rfl
    | ok left =>
      cases decodeSide sides.right cursor field with
      | error fault => rfl
      | ok right =>
        simp only [leafRows_plain]
        rfl

theorem walkElements_plain {field : Field} {walk plainWalk : Nat → Except Fault Walked}
    (walks : ∀ cursor, plainWalk cursor = changeRows plainRows (walk cursor))
    (remaining index cursor : Nat) :
    walkElements filter field.plain plainWalk remaining index cursor =
      changeRows plainRows (walkElements filter field walk remaining index cursor) := by
  induction remaining generalizing index cursor with
  | zero => simp [walkElements, changeRows, Except.map, plainRows]
  | succ remaining ih =>
    have sections : sectionRows filter field.plain index ∘ plainRows =
        plainRows ∘ sectionRows filter field index :=
      funext (sectionRows_plain field index)
    rw [walkElements_succ, walkElements_succ, changeRows_followedBy plainRows_append, walks,
      changeRows_changeRows, changeRows_changeRows, sections]
    congr 1
    funext behind
    exact ih (index + 1) behind

theorem walkField_plain {walk plainWalk : String → Nat → Except Fault Walked}
    (walks : ∀ name cursor, plainWalk name cursor = changeRows plainRows (walk name cursor))
    (field : Field) (cursor : Nat) :
    walkField registry.plain sides filter plainWalk field.plain cursor =
      changeRows plainRows (walkField registry sides filter walk field cursor) := by
  rcases field.nested_or_primitive with ⟨name, kind⟩ | primitive
  · have plainKind : field.plain.kind = .nested name := kind
    rw [walkField_eq_bind kind, walkField_eq_bind plainKind, Registry.byteSize_plain]
    cases registry.byteSize name with
    | error fault => rfl
    | ok size =>
      simp only [Except.bind]
      split
      · simp [changeRows, Except.map, plainRows]
      · exact walkElements_plain (walks name) field.count 0 cursor
  · have plainPrimitive : ∀ name, field.plain.kind ≠ .nested name := primitive
    rw [walkField_of_primitive primitive, walkField_of_primitive plainPrimitive]
    exact walkScalar_plain field cursor

theorem walkFields_plain {walk plainWalk : Field → Nat → Except Fault Walked}
    (walks : ∀ field cursor,
      plainWalk field.plain cursor = changeRows plainRows (walk field cursor))
    (fields : List Field) (cursor : Nat) :
    walkFields plainWalk (fields.map Field.plain) cursor =
      changeRows plainRows (walkFields walk fields cursor) := by
  induction fields generalizing cursor with
  | nil => simp [walkFields, changeRows, Except.map, plainRows]
  | cons field rest ih =>
    rw [List.map_cons, walkFields_cons, walkFields_cons, changeRows_followedBy plainRows_append,
      walks]
    congr 1
    funext behind
    exact ih behind

theorem walkWithin_plain (levels : Nat) (name : String) (cursor : Nat) :
    walkWithin registry.plain sides filter levels name cursor =
      changeRows plainRows (walkWithin registry sides filter levels name cursor) := by
  induction levels generalizing name cursor with
  | zero => rfl
  | succ levels ih =>
    rw [walkWithin_succ_eq_bind, walkWithin_succ_eq_bind, Registry.resolve_plain]
    cases registry.resolve name with
    | error fault => rfl
    | ok struct => exact walkFields_plain (walkField_plain ih) struct.fields cursor

/-- A comparison under a registry without comments has the same rows, without comments. -/
theorem compareLabeled_plain (registry : Registry) (sides : Sides) (filter : Filter)
    (root label : String) :
    compareLabeled registry.plain sides filter root label =
      (compareLabeled registry sides filter root label).map Tree.plain := by
  rw [compareLabeled_eq_bind, compareLabeled_eq_bind, Registry.byteSize_plain]
  split
  · simp [Except.map, nothingToShow, Tree.plain, Row.leaf, Row.plain, plainRows]
  · cases registry.byteSize root with
    | error fault => rfl
    | ok size =>
      simp only [Except.bind, walkWithin_plain]
      cases walkWithin registry sides (filter.against sides.right.isSome) Registry.levelLimit
        root 0 with
      | error fault => rfl
      | ok walked => simp [changeRows, rootTree, Except.map, Tree.plain, Row.plain_branch]

end Walks

/-! ### Schemas with the same code -/

section Schemas

variable {source other : String}

/-- Comments decide nothing. Two schemas that are not blank and have the same code on each line are
refused for the same fault, or they are read as registries that are equal up to comments; then each
name has the same size under both, or the same fault, and each comparison has the same outcome up to
the comments of its rows. -/
theorem ofString_sameCode (inked : ∃ c ∈ source.toList, Text.isBlank c = false)
    (inkedOther : ∃ c ∈ other.toList, Text.isBlank c = false)
    (same : SameCode source.toList other.toList) :
    (∃ fault, Registry.ofString source = .error fault ∧ Registry.ofString other = .error fault) ∨
    ∃ registry another, Registry.ofString source = .ok registry ∧
      Registry.ofString other = .ok another ∧
      registry.plain = another.plain ∧
      (∀ name, registry.byteSize name = another.byteSize name) ∧
      ∀ sides filter root label,
        (compareLabeled registry sides filter root label).map Tree.plain =
          (compareLabeled another sides filter root label).map Tree.plain := by
  have plain := map_plain_ofString (Text.isAllBlank_eq_false inked)
    (Text.isAllBlank_eq_false inkedOther) same
  obtain refused | ⟨registry, another, read, readOther, equal⟩ := eq_or_map_eq plain
  · exact .inl refused
  · refine .inr ⟨registry, another, read, readOther, equal, ?_, ?_⟩
    · intro name
      rw [← registry.byteSize_plain, equal, another.byteSize_plain]
    · intro sides filter root label
      rw [← compareLabeled_plain, equal, compareLabeled_plain]

/-- A schema with marks, words and slashes in its comments. -/
def notedText : String :=
  "struct A \x7b char x[2]; // \x7d struct B \x7b;\n\tuint8_t y // a; // b\n\x7d"

/-- The schema of `notedText` with other blanks and other comments. -/
def barelyNotedText : String :=
  " struct A \x7b char x[2];\nuint8_t y\r\n\x7d // \x7d"

theorem ofString_sameCode_of_notedText :
    SameCode notedText.toList barelyNotedText.toList ∧
      ∃ registry another, Registry.ofString notedText = .ok registry ∧
        Registry.ofString barelyNotedText = .ok another ∧ registry ≠ another ∧
        registry.plain = another.plain ∧ registry.byteSize "A" = another.byteSize "A" ∧
        another.byteSize "A" = .ok 3 ∧
        (compare registry ⟨some [65, 66, 7], none⟩ .showAll "A").map Tree.plain =
          (compare another ⟨some [65, 66, 7], none⟩ .showAll "A").map Tree.plain := by
  obtain ⟨inked, inkedOther, same⟩ : Text.isAllBlank notedText.toList = false ∧
      Text.isAllBlank barelyNotedText.toList = false ∧
      SameCode notedText.toList barelyNotedText.toList := by decide +kernel
  have readNoted : Registry.ofString notedText = .ok (Registry.empty.insert
      ⟨"A", [⟨"x", .text, 2, " // \x7d struct B \x7b;"⟩, ⟨"y", .byte, 1, " // a; // b"⟩]⟩) :=
    ofString_of_run inked rfl rfl
  have readBarely : Registry.ofString barelyNotedText = .ok (Registry.empty.insert
      ⟨"A", [⟨"x", .text, 2, ""⟩, ⟨"y", .byte, 1, ""⟩]⟩) :=
    ofString_of_run inkedOther rfl rfl
  refine ⟨same, ?_⟩
  obtain ⟨fault, refused, -⟩ | ⟨registry, another, read, readOther, equal, sizes, compared⟩ :=
    ofString_sameCode ⟨'s', by decide +kernel, by decide⟩ ⟨'s', by decide +kernel, by decide⟩ same
  · rw [readNoted] at refused
    cases refused
  · rw [readNoted] at read
    rw [readBarely] at readOther
    cases read
    cases readOther
    exact ⟨_, _, readNoted, readBarely, by decide +kernel, equal, sizes "A", by decide +kernel,
      compared _ _ "A" "A"⟩

end Schemas

end RecordDiff.Comparison
