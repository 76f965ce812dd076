import Mathlib.Data.List.Basic
import RecordDiff.Proofs.Numerals
import RecordDiff.Proofs.OnePass
import RecordDiff.Proofs.Resolution
import RecordDiff.Proofs.Spelling

/-!
Printing a schema. A registry is printed struct by struct in its order, each field on a line of its
own as the field renders itself. Reading goes through comments, logical lines and the three forms of
a declaration, none of which the printer knows of; where the names, counts and comments have the
shapes that declarations can spell, reading gives the printed registry back. Main statements:

- `lines_joinLines`: the lines of a printed text are the lines that were printed;
- `ofLine_render`: a printed field is one logical line, with the comment of the field;
- `readDeclaration_code`: the declaration on that line is that of the field;
- `Pass.run_fields`, `Pass.run_structs`: fields are put back behind one another, and structs into
  the registry;
- `ofString_render`: a printed registry is read as the same registry.
-/

namespace RecordDiff.Schema

open Text (isBlank isTypeName isPlainName trim)

/-! ### Printed schemas -/

/-- The lines of a struct: the line that opens it, and between braces a line for each field. -/
def Struct.lines (struct : Struct) : List String :=
  ("struct " ++ struct.name) :: "\x7b" :: (struct.fields.map Field.render ++ ["\x7d"])

/-- The lines of the structs in order. -/
def Registry.lines (registry : Registry) : List String :=
  registry.structs.flatMap Struct.lines

/-- Lines as one text, a line feed behind each. -/
def joinLines : List String → String
  | [] => ""
  | line :: rest => line ++ "\n" ++ joinLines rest

/-- The text of a registry. -/
def Registry.render (registry : Registry) : String :=
  joinLines registry.lines

/-! ### What can be spelled -/

/-- A kind that can be spelled from anywhere: a nested struct is named with a separator, so that no
name is put in front of it. -/
def Kind.Spelled : Kind → Prop
  | .nested name => isTypeName name.toList = true ∧ separator.toList <:+: name.toList
  | _ => True

/-- A comment as a line can carry it: nothing, or two slashes behind a space, and then a text on the
same line with no blank at its end. -/
def IsComment (comment : List Char) : Prop :=
  comment = [] ∨ ∃ text, comment = ' ' :: '/' :: '/' :: text ∧ '\n' ∉ text ∧
    ∀ c ∈ text.getLast?, isBlank c = false

/-- A field that a line can declare. -/
structure Field.Spelled (field : Field) : Prop where
  name : isPlainName field.name.toList = true
  kind : field.kind.Spelled
  positive : 0 < field.count
  fits : field.count < Text.wordLimit
  comment : IsComment field.comment.toList

/-- A struct that lines can declare. -/
structure Struct.Spelled (struct : Struct) : Prop where
  name : isTypeName struct.name.toList = true
  fields : ∀ field ∈ struct.fields, field.Spelled

/-- A registry of structs that lines can declare. -/
def Registry.Spelled (registry : Registry) : Prop :=
  ∀ struct ∈ registry.structs, struct.Spelled

/-! ### Kinds -/

section Kinds

variable {kind : Kind} {name : String}

theorem ofToken?_of_isQualified (qualified : isQualified name = true) :
    Kind.ofToken? name = none := by
  have noByte : name ≠ "uint8_t" := by
    rintro rfl
    exact absurd qualified (by decide)
  have noWord : name ≠ "uint16le" := by
    rintro rfl
    exact absurd qualified (by decide)
  have noText : name ≠ "char" := by
    rintro rfl
    exact absurd qualified (by decide)
  rw [Kind.ofToken?, if_neg noByte, if_neg noWord, if_neg noText]

theorem isTypeName_token (spelled : kind.Spelled) : isTypeName kind.token.toList = true := by
  cases kind with
  | nested name => exact spelled.1
  | byte => decide
  | word => decide
  | text => decide

theorem token_ne_structKeyword (spelled : kind.Spelled) : kind.token.toList ≠ structKeyword := by
  cases kind with
  | nested name =>
    intro keyword
    have qualified := isQualified_iff.2 spelled.2
    rw [Kind.token] at keyword
    rw [isQualified, keyword] at qualified
    cases qualified
  | byte => decide
  | word => decide
  | text => decide

/-- A kind is read back from its token, whatever struct the field stands in. -/
theorem qualify_token (spelled : kind.Spelled) (enclosing : String) :
    qualify enclosing kind.token = kind := by
  cases kind with
  | nested name =>
    have qualified := isQualified_iff.2 spelled.2
    simp [qualify, Kind.token, ofToken?_of_isQualified qualified, qualified]
  | byte => rfl
  | word => rfl
  | text => rfl

end Kinds

/-! ### Code on a line -/

/-- The marks that a line is cut at, or ends at. -/
def lineMarks : List Char := ['/', ';', '{', '}', '\n', '\r']

/-- Code that stays whole on its line: there is some, no mark is in it and no blank at its ends. -/
structure IsCode (code : List Char) : Prop where
  inked : code ≠ []
  front : ∀ c ∈ code.head?, isBlank c = false
  back : ∀ c ∈ code.getLast?, isBlank c = false
  unmarked : ∀ c ∈ code, c ∉ lineMarks

section Code

variable {code comment : List Char} {number : Nat} {c : Char}

theorem not_mem_lineMarks_of_isTypeChar (inside : Text.isTypeChar c = true) : c ∉ lineMarks := by
  have outside : lineMarks.any Text.isTypeChar = false := by decide
  intro member
  exact absurd inside (List.any_eq_false.1 outside c member)

theorem not_mem_lineMarks_of_isWord (word : Text.isWord c = true) : c ∉ lineMarks :=
  not_mem_lineMarks_of_isTypeChar (Text.isTypeChar_of_isWord word)

theorem isCut_of_not_mem_lineMarks (unmarked : c ∉ lineMarks) : isCut c = false := by
  simp only [lineMarks, List.mem_cons, not_or] at unmarked
  simp [isCut, unmarked]

theorem pieces_of_isCode (whole : IsCode code) {blanks : List Char}
    (blank : Text.isAllBlank blanks = true) (uncut : ∀ c ∈ blanks, isCut c = false) :
    pieces (code ++ blanks) = [.declaration code ""] := by
  have trimmed : trim (code ++ blanks) = code := by
    have front : Text.trimStart (code ++ blanks) = code ++ blanks := by
      apply Text.trimStart_of_ink
      rw [List.head?_append_of_ne_nil _ whole.inked]
      exact whole.front
    rw [trim, front, Text.trimEnd_append_of_blank blank, Text.trimEnd_of_ink whole.back]
  have uncutAll : ∀ c ∈ code ++ blanks, isCut c = false := by
    intro c member
    rcases List.mem_append.1 member with inside | behind
    · exact isCut_of_not_mem_lineMarks (whole.unmarked c inside)
    · exact uncut c behind
  rw [pieces_of_uncut uncutAll (trimmed.symm ▸ whole.inked), trimmed]

theorem trimEnd_comment {text : List Char} (ink : ∀ c ∈ text.getLast?, isBlank c = false) :
    Text.trimEnd ('/' :: '/' :: text) = '/' :: '/' :: text := by
  apply Text.trimEnd_of_ink
  intro c last
  cases text with
  | nil =>
    obtain rfl : '/' = c := Option.some.inj last
    decide
  | cons d text =>
    rw [List.getLast?_cons_cons, List.getLast?_cons_cons] at last
    exact ink c last

/-- Code with a comment behind it is one logical line. -/
theorem ofLine_of_isCode (whole : IsCode code) (shaped : IsComment comment) :
    LogicalLine.ofLine number (code ++ comment) =
      [⟨number, .declaration code (String.ofList comment)⟩] := by
  have noSlash : '/' ∉ code := fun member => whole.unmarked '/' member (by decide)
  rcases shaped with rfl | ⟨text, rfl, -, ink⟩
  · have alone : pieces (code ++ []) = [.declaration code ""] :=
      pieces_of_isCode whole rfl (by simp)
    rw [List.append_nil] at alone ⊢
    rw [LogicalLine.ofLine, splitComment_of_noSlash noSlash, alone]
    rfl
  · -- the space belongs to the code, and the comment gets one of its own
    have noSlashBehind : '/' ∉ code ++ [' '] := by simpa using noSlash
    have line : code ++ ' ' :: '/' :: '/' :: text = (code ++ [' ']) ++ '/' :: '/' :: text := by simp
    rw [line, LogicalLine.ofLine, splitComment_append noSlashBehind,
      pieces_of_isCode whole rfl (List.forall_mem_singleton.2 rfl), commentText,
      trimEnd_comment ink]
    rfl

/-- A line that can be told from the lines around it. -/
def Unbroken (line : List Char) : Prop :=
  '\n' ∉ line ∧ line.getLast? ≠ some '\r'

theorem unbroken_of_isCode (whole : IsCode code) (shaped : IsComment comment) :
    Unbroken (code ++ comment) := by
  have noFeed : '\n' ∉ code := fun member => whole.unmarked '\n' member (by decide)
  rcases shaped with rfl | ⟨text, rfl, noFeedBehind, ink⟩
  · rw [List.append_nil]
    refine ⟨noFeed, fun last => ?_⟩
    exact whole.unmarked '\r' (List.mem_of_getLast? last) (by decide)
  · constructor
    · simp [noFeed, noFeedBehind]
    · intro last
      rw [List.getLast?_append_of_ne_nil _ (List.cons_ne_nil _ _)] at last
      cases text with
      | nil => cases last
      | cons d text =>
        simp only [List.getLast?_cons_cons] at last
        exact absurd (ink '\r' last) (by decide)

/-- The lines of a printed text are the lines that were printed. -/
theorem lines_joinLines {lines : List String} (unbroken : ∀ line ∈ lines, Unbroken line.toList) :
    Text.lines (joinLines lines).toList = lines.map String.toList := by
  induction lines with
  | nil => rfl
  | cons line rest ih =>
    have text : (joinLines (line :: rest)).toList =
        line.toList ++ '\n' :: (joinLines rest).toList := by simp [joinLines]
    have whole := unbroken line List.mem_cons_self
    rw [text, Text.lines_feed whole.1, Text.withoutReturn_of_noReturn whole.2,
      ih fun other member => unbroken other (List.mem_cons_of_mem line member)]
    rfl

end Code

/-! ### Lines of a struct -/

/-- The count of a field in brackets, if there is more than one element. -/
def Field.brackets (field : Field) : List Char :=
  if field.isArray then '[' :: (Text.decimal field.count ++ [']']) else []

/-- The code of a field, in front of its comment. -/
def Field.code (field : Field) : List Char :=
  field.kind.token.toList ++ ' ' :: (field.name.toList ++ field.brackets)

/-- The code that opens a struct. -/
def Struct.code (struct : Struct) : List Char :=
  structKeyword ++ ' ' :: struct.name.toList

section Lines

variable {field : Field} {struct : Struct} {number : Nat} {c : Char}

theorem toList_render (field : Field) :
    field.render.toList = field.code ++ field.comment.toList := by
  by_cases array : field.isArray = true
  · simp [Field.render, Field.code, Field.brackets, array, Text.decimal]
  · simp [Field.render, Field.code, Field.brackets, array]

theorem Field.Spelled.isBlank_of_last (spelled : field.Spelled) :
    ∀ c ∈ field.code.getLast?, isBlank c = false := by
  intro c last
  by_cases array : field.isArray = true
  · have bracket : field.code.getLast? = some ']' := by
      simp [Field.code, Field.brackets, array, List.getLast?_append, List.getLast?_cons]
    rw [bracket] at last
    obtain rfl : ']' = c := Option.some.inj last
    decide
  · obtain ⟨first, rest, name, -, -⟩ := Text.exists_of_isName spelled.name
    have ofName : field.code.getLast? = field.name.toList.getLast? := by
      simp [Field.code, Field.brackets, array, name, List.getLast?_append, List.getLast?_cons]
    rw [ofName] at last
    exact Text.isBlank_of_isWord (Text.isWord_of_mem spelled.name (List.mem_of_getLast? last))

theorem not_mem_lineMarks_of_mem_brackets (member : c ∈ field.brackets) : c ∉ lineMarks := by
  rw [Field.brackets] at member
  split at member
  · simp only [List.mem_cons, List.mem_append, List.not_mem_nil, or_false] at member
    rcases member with rfl | digit | rfl
    · decide
    · exact not_mem_lineMarks_of_isWord (Text.isWord_of_mem_decimal digit)
    · decide
  · cases member

theorem Field.Spelled.isCode (spelled : field.Spelled) : IsCode field.code where
  inked := by
    obtain ⟨first, rest, token, -, -⟩ := Text.exists_of_isName (isTypeName_token spelled.kind)
    rw [Field.code, token, List.cons_append]
    exact List.cons_ne_nil _ _
  front := by
    obtain ⟨first, rest, token, start, -⟩ := Text.exists_of_isName (isTypeName_token spelled.kind)
    rw [Field.code, token]
    intro c head
    obtain rfl : first = c := Option.some.inj head
    exact Text.isBlank_of_isNameStart start
  back := spelled.isBlank_of_last
  unmarked := by
    intro c member
    simp only [Field.code, List.mem_append, List.mem_cons] at member
    rcases member with token | rfl | name | brackets
    · exact not_mem_lineMarks_of_isTypeChar
        (Text.isTypeChar_of_mem (isTypeName_token spelled.kind) token)
    · decide
    · exact not_mem_lineMarks_of_isWord (Text.isWord_of_mem spelled.name name)
    · exact not_mem_lineMarks_of_mem_brackets brackets

theorem Struct.Spelled.isCode (spelled : struct.Spelled) : IsCode struct.code where
  inked := List.cons_ne_nil _ _
  front := by
    intro c head
    obtain rfl : 's' = c := Option.some.inj head
    decide
  back := by
    intro c last
    obtain ⟨first, rest, name, -, -⟩ := Text.exists_of_isName spelled.name
    rw [Struct.code, name, List.getLast?_append_of_ne_nil _ (List.cons_ne_nil _ _),
      List.getLast?_cons_cons, ← name] at last
    exact Text.isBlank_of_isTypeChar
      (Text.isTypeChar_of_mem spelled.name (List.mem_of_getLast? last))
  unmarked := by
    intro c member
    rcases List.mem_append.1 member with keyword | behind
    · have shaped : isTypeName structKeyword = true := by decide
      exact not_mem_lineMarks_of_isTypeChar (Text.isTypeChar_of_mem shaped keyword)
    · rcases List.mem_cons.1 behind with rfl | name
      · decide
      · exact not_mem_lineMarks_of_isTypeChar (Text.isTypeChar_of_mem spelled.name name)

/-- A printed field is one logical line, with the comment of the field. -/
theorem ofLine_render (spelled : field.Spelled) :
    LogicalLine.ofLine number field.render.toList =
      [⟨number, .declaration field.code field.comment⟩] := by
  rw [toList_render, ofLine_of_isCode spelled.isCode spelled.comment, String.ofList_toList]

/-- The declaration on a printed line is that of the field. -/
theorem readDeclaration_code (spelled : field.Spelled) :
    readDeclaration number field.code = .ok (field.kind.token, field.name, field.count) := by
  have shapedToken := isTypeName_token spelled.kind
  have space : Text.isAllBlank [' '] = true := rfl
  have nothing : Text.isAllBlank [] = true := rfl
  by_cases array : field.isArray = true
  · have unclosed : ']' ∉ Text.decimal field.count := fun member =>
      absurd (Text.isWord_of_mem_decimal member) (by decide)
    have draft : Draft.ofText? field.code = some ⟨field.kind.token.toList, field.name.toList,
        some (trim (Text.decimal field.count))⟩ := by
      rw [Field.code, Field.brackets, if_pos array]
      exact Draft.ofText?_array shapedToken spelled.name space (List.cons_ne_nil _ _) nothing
        unclosed
    have count : readCount number (trim (Text.decimal field.count)) = .ok field.count := by
      rw [Text.trim_decimal]
      exact readCount_decimal spelled.positive spelled.fits
    simp only [readDeclaration, draft, count, String.ofList_toList]
  · have single : field.count = 1 := by
      have positive := spelled.positive
      simp only [Field.isArray, decide_eq_true_eq] at array
      omega
    have draft : Draft.ofText? field.code =
        some ⟨field.kind.token.toList, field.name.toList, none⟩ := by
      rw [Field.code, Field.brackets, if_neg array, List.append_nil]
      exact Draft.ofText?_scalar shapedToken spelled.name space (List.cons_ne_nil _ _)
    simp only [readDeclaration, draft, single, String.ofList_toList]

theorem toList_header (struct : Struct) :
    ("struct " ++ struct.name).toList = struct.code ++ [] := by
  simp [Struct.code, structKeyword]

/-- The line that opens a printed struct is one logical line. -/
theorem ofLine_header (spelled : struct.Spelled) :
    LogicalLine.ofLine number ("struct " ++ struct.name).toList =
      [⟨number, .declaration struct.code ""⟩] := by
  rw [toList_header, ofLine_of_isCode spelled.isCode (.inl rfl)]

/-- No line of a struct is broken in two, or runs into the next. -/
theorem unbroken_of_mem_lines (spelled : struct.Spelled) {line : String}
    (member : line ∈ struct.lines) : Unbroken line.toList := by
  simp only [Struct.lines, List.mem_cons, List.mem_append, List.mem_map, List.not_mem_nil,
    or_false] at member
  rcases member with rfl | rfl | ⟨field, declared, rfl⟩ | rfl
  · rw [toList_header]
    exact unbroken_of_isCode spelled.isCode (.inl rfl)
  · exact ⟨by decide, by decide⟩
  · rw [toList_render]
    have spelledField := spelled.fields field declared
    exact unbroken_of_isCode spelledField.isCode spelledField.comment
  · exact ⟨by decide, by decide⟩

end Lines

/-! ### Reading what was printed -/

section Reading

variable {field : Field} {fields : List Field} {struct : Struct} {structs : List Struct}
  {registry : Registry} {top : OpenStruct} {below : List OpenStruct} {number : Nat}
  {behind : List (List Char)}

/-- The line of a field adds the field to the innermost open struct. -/
theorem Pass.run_field (spelled : field.Spelled) :
    Pass.run ⟨top :: below, registry⟩
        (LogicalLine.ofLines number (field.render.toList :: behind)) =
      Pass.run ⟨⟨top.bare, top.struct.push field⟩ :: below, registry⟩
        (LogicalLine.ofLines (number + 1) behind) := by
  rw [LogicalLine.ofLines, ofLine_render spelled, List.singleton_append]
  apply Pass.run_of_step
  have opensNone : structName? field.code = none :=
    structName?_field (isTypeName_token spelled.kind) (token_ne_structKeyword spelled.kind)
      (rfl : Text.isAllBlank [' '] = true) (List.cons_ne_nil _ _) _
  rw [Pass.step_declaration_none rfl opensNone]
  simp only [Pass.declareField, readDeclaration_code spelled, qualify_token spelled.kind]

/-- The lines of fields add the fields in their order. -/
theorem Pass.run_fields (spelled : ∀ field ∈ fields, field.Spelled) :
    Pass.run ⟨top :: below, registry⟩
        (LogicalLine.ofLines number (fields.map (·.render.toList) ++ behind)) =
      Pass.run ⟨⟨top.bare, ⟨top.struct.name, top.struct.fields ++ fields⟩⟩ :: below, registry⟩
        (LogicalLine.ofLines (number + fields.length) behind) := by
  induction fields generalizing top number with
  | nil =>
    rw [List.append_nil]
    rfl
  | cons field rest ih =>
    have spelledRest : ∀ field ∈ rest, field.Spelled := fun other member =>
      spelled other (List.mem_cons_of_mem field member)
    rw [List.map_cons, List.cons_append, Pass.run_field (spelled field List.mem_cons_self),
      ih spelledRest, Struct.push, List.append_assoc, List.singleton_append, List.length_cons,
      Nat.add_assoc, Nat.add_comm 1]

/-- The lines of a struct enter it into the registry, and nothing stays open. -/
theorem Pass.run_struct (spelled : struct.Spelled) :
    Pass.run ⟨[], registry⟩
        (LogicalLine.ofLines number (struct.lines.map String.toList ++ behind)) =
      Pass.run ⟨[], registry.insert struct⟩
        (LogicalLine.ofLines (number + struct.lines.length) behind) := by
  have opens : structName? struct.code = some struct.name.toList := structName?_header spelled.name
  have opened : Pass.step ⟨[], registry⟩ ⟨number, .declaration struct.code ""⟩ =
      .ok ⟨[⟨struct.name, ⟨struct.name, []⟩⟩], registry⟩ := by
    rw [Pass.step_declaration_some rfl opens, String.ofList_toList, Pass.openStruct_nil]
  have lines : struct.lines.map String.toList ++ behind =
      ("struct " ++ struct.name).toList :: ['{'] ::
        (struct.fields.map (·.render.toList) ++ ['}'] :: behind) := by
    simp [Struct.lines]
  have count : number + struct.lines.length = number + 1 + 1 + struct.fields.length + 1 := by
    simp only [Struct.lines, List.length_cons, List.length_append, List.length_map, List.length_nil]
    omega
  rw [lines, count, LogicalLine.ofLines, ofLine_header spelled, List.singleton_append,
    Pass.run_of_step opened, LogicalLine.ofLines]
  -- the opening brace is skipped, the closing one ends the struct
  refine (Pass.run_of_step (Pass.step_opening rfl)).trans ?_
  refine (Pass.run_fields spelled.fields).trans ?_
  rw [LogicalLine.ofLines]
  exact Pass.run_of_step (Pass.step_closing rfl)

/-- The lines of structs enter them in their order. -/
theorem Pass.run_structs (spelled : ∀ struct ∈ structs, struct.Spelled) :
    Pass.run ⟨[], registry⟩
        (LogicalLine.ofLines number ((structs.flatMap Struct.lines).map String.toList)) =
      .ok (structs.foldl Registry.insert registry) := by
  induction structs generalizing registry number with
  | nil => rfl
  | cons struct rest ih =>
    have spelledRest : ∀ struct ∈ rest, struct.Spelled := fun other member =>
      spelled other (List.mem_cons_of_mem struct member)
    rw [List.flatMap_cons, List.map_append, Pass.run_struct (spelled struct List.mem_cons_self),
      ih spelledRest, List.foldl_cons]

/-- A struct behind all others goes to the end. -/
theorem insertByName_of_last (last : ∀ other ∈ structs, other.name < struct.name) :
    insertByName struct structs = structs ++ [struct] := by
  induction structs with
  | nil => rfl
  | cons first rest ih =>
    have before : first.name < struct.name := last first List.mem_cons_self
    have notBefore : ¬struct.name < first.name := String.lt_asymm before
    have notSame : struct.name ≠ first.name := by
      intro same
      rw [same] at before
      exact String.lt_irrefl _ before
    rw [insertByName, if_neg notBefore, if_neg notSame,
      ih fun other member => last other (List.mem_cons_of_mem first member), List.cons_append]

/-- Structs that are entered in ascending order stand in that order. -/
theorem structs_foldl_insert (ascending : Ascending (registry.structs ++ structs)) :
    (structs.foldl Registry.insert registry).structs = registry.structs ++ structs := by
  induction structs generalizing registry with
  | nil => rw [List.foldl_nil, List.append_nil]
  | cons struct rest ih =>
    have entered : (registry.insert struct).structs = registry.structs ++ [struct] := by
      apply insertByName_of_last
      intro other member
      exact (List.pairwise_append.1 ascending).2.2 other member struct List.mem_cons_self
    have whole : (registry.insert struct).structs ++ rest = registry.structs ++ struct :: rest := by
      rw [entered, List.append_assoc, List.singleton_append]
    rw [List.foldl_cons, ih (whole ▸ ascending), whole]

theorem foldl_insert_empty (registry : Registry) :
    registry.structs.foldl Registry.insert .empty = registry := by
  have same : (registry.structs.foldl Registry.insert .empty).structs = registry.structs :=
    structs_foldl_insert registry.ascending
  obtain ⟨structs, ascending⟩ := registry
  rw [Registry.mk.injEq]
  exact same

end Reading

/-! ### Printing and reading -/

section Schemas

variable {registry : Registry}

theorem readLines_render (spelled : registry.Spelled) :
    readLines .empty (LogicalLine.ofText registry.render.toList) = .ok registry := by
  have unbroken : ∀ line ∈ registry.lines, Unbroken line.toList := by
    intro line member
    obtain ⟨struct, declared, inside⟩ := List.mem_flatMap.1 member
    exact unbroken_of_mem_lines (spelled struct declared) inside
  rw [LogicalLine.ofText, Registry.render, lines_joinLines unbroken, ← Pass.run_readLines,
    Registry.lines, Pass.run_structs spelled, foldl_insert_empty]

theorem inked_render (defined : registry.structs ≠ []) :
    ∃ c ∈ registry.render.toList, isBlank c = false := by
  refine ⟨'s', ?_, by decide⟩
  obtain ⟨first, rest, structs⟩ := List.exists_cons_of_ne_nil defined
  simp [Registry.render, Registry.lines, structs, Struct.lines, joinLines]

/-- A printed registry is read as the same registry. -/
theorem ofString_render (spelled : registry.Spelled) (defined : registry.structs ≠ []) :
    Registry.ofString registry.render = .ok registry := by
  have filled : registry.isEmpty = false := by
    rw [Registry.isEmpty, List.isEmpty_eq_false_iff]
    exact defined
  rw [Registry.ofString, readText, Text.isAllBlank_eq_false (inked_render defined),
    readLines_render spelled]
  simp only [nonEmptyRegistry, filled]
  rfl

theorem ofString_render_of_nested :
    ∃ registry : Registry,
      registry.structs = [⟨"A::B", [⟨"v", .word, 1, ""⟩]⟩,
        ⟨"P", [⟨"parts", .nested "A::B", 3, " // both"⟩]⟩] ∧
      registry.Spelled ∧ registry.structs ≠ [] ∧
      registry.render =
        "struct A::B\n\x7b\nuint16le v\n\x7d\nstruct P\n\x7b\nA::B parts[3] // both\n\x7d\n" ∧
      Registry.ofString registry.render = .ok registry := by
  have inner : Struct.Spelled ⟨"A::B", [⟨"v", .word, 1, ""⟩]⟩ := by
    refine ⟨by decide, List.forall_mem_singleton.2 ?_⟩
    exact ⟨by decide, trivial, by decide, by decide, .inl rfl⟩
  have outer : Struct.Spelled ⟨"P", [⟨"parts", .nested "A::B", 3, " // both"⟩]⟩ := by
    have comment : IsComment " // both".toList := by
      refine .inr ⟨" both".toList, by decide, by decide, ?_⟩
      intro c last
      obtain rfl : 'h' = c := Option.some.inj last
      decide
    refine ⟨by decide, List.forall_mem_singleton.2 ?_⟩
    exact ⟨by decide, ⟨by decide, by decide⟩, by decide, by decide, comment⟩
  have ascending : Ascending [⟨"A::B", [⟨"v", .word, 1, ""⟩]⟩,
      ⟨"P", [⟨"parts", .nested "A::B", 3, " // both"⟩]⟩] := List.pairwise_pair.2 (by decide)
  have spelled : Registry.Spelled ⟨_, ascending⟩ :=
    List.forall_mem_cons.2 ⟨inner, List.forall_mem_singleton.2 outer⟩
  have defined : (Registry.mk _ ascending).structs ≠ [] := List.cons_ne_nil _ _
  have read := ofString_render spelled defined
  refine ⟨_, rfl, spelled, defined, ?_, read⟩
  rfl

end Schemas

end RecordDiff.Schema
