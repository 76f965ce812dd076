import RecordDiff.Proofs.BlockEntries
import RecordDiff.Settings.Document

/-!
Settings that survive their document. Each setting is written on a line of its own, as a word or as
a text in whatever way carries it, so the document reads back as those very settings; whether they
are valid is decided afterwards, by the settings alone. Main statements:

- `toText_eq`: settings are written line by line, the filters under a key of their own;
- `entries?_mapping`: the entries of a mapping without aliases are the ones it has;
- `ofDocument?_lines`: the mapping of these lines is those settings;
- `ofText_toText`: what is written for settings is read as them, or refused just as they are.
-/

namespace RecordDiff

open RecordDiff.Yaml

namespace Settings

/-! ### Lines -/

/-- The entry of a key whose value is a text. -/
def textLine (key value : String) : Entry :=
  ⟨.word key.toList,
    ⟨writeText indentStep value.toList, (Form.ofText value.toList).style, value.toList⟩⟩

/-- The entry of a key whose value is a word. -/
def wordLine (key : String) (word : List Char) : Entry :=
  ⟨.word key.toList, .word word⟩

/-- The entries of settings. -/
def settingLines (settings : Settings) : List Entry :=
  [textLine "schema" settings.schema, textLine "root_struct" settings.rootStruct,
    textLine "root_label" settings.rootLabel, wordLine "offset" (Text.decimal settings.offset),
    wordLine "format" settings.format.word.toList]

/-- The entries of a filter. -/
def filterLines (filter : Comparison.Filter) : List Entry :=
  [wordLine "diff_only" (switchText filter.diffOnly),
    wordLine "show_unknown" (switchText filter.showUnknown),
    wordLine "show_precomputed" (switchText filter.showPrecomputed)]

/-- Settings whose texts hold no line feed and whose offset fits into a word. -/
structure Writable (settings : Settings) : Prop where
  fits : settings.offset < Text.wordLimit
  schema : '\n' ∉ settings.schema.toList
  rootStruct : '\n' ∉ settings.rootStruct.toList
  rootLabel : '\n' ∉ settings.rootLabel.toList

theorem isWord_switchText (value : Bool) : IsWord (switchText value) := by
  cases value <;> decide

theorem isWord_format (format : Format) : IsWord format.word.toList := by
  cases format <;> decide

/-- An entry on a line of its own is written with its line feed. -/
theorem writeEntry_eq {key written : List Char} (inLine : endsIn isBreak written = false) :
    writeEntry key written = key ++ ':' :: ' ' :: (written ++ ['\n']) := by
  have inLine' : endsIn isBreak (key ++ [':', ' '] ++ written) = false := by
    cases written with
    | nil => simp [endsIn, isBreak]
    | cons c written => rwa [endsIn_append]
  rw [writeEntry, inLine']
  simp

theorem line_of_written {key value : Scalar} (written : value.written ≠ []) (column : Nat) :
    Entry.line column ⟨key, value⟩ =
      List.replicate column ' ' ++ (key.written ++ ':' :: ' ' :: value.written) := by
  simp [Entry.line, Scalar.behindColon, written]

theorem textEntry_eq (key : String) {value : String} (noFeed : '\n' ∉ value.toList) :
    textEntry key value = (textLine key value).line 0 ++ ['\n'] := by
  obtain ⟨c, behind, written, -⟩ : Lexer.Spells (writeText indentStep value.toList) _ _ :=
    Lexer.spells_writeText (by decide) noFeed
  have someText : writeText indentStep value.toList ≠ [] := by simp [written]
  rw [textEntry, writeEntry_eq (endsIn_writeText noFeed), textLine, line_of_written someText]
  simp [Scalar.word]

theorem wordEntry_eq (key : String) {word : List Char} (isWord : IsWord word) (column : Nat) :
    List.replicate column ' ' ++ writeEntry key.toList word =
      (wordLine key word).line column ++ ['\n'] := by
  have inLine : endsIn isBreak word = false := endsIn_of_forall fun c mem =>
    (KeyChar.of_isKeyChar (isWord.plain c mem)).starts.noBreak
  have someWord : (Scalar.word word).written ≠ [] := isWord.nonempty
  rw [writeEntry_eq inLine, wordLine, line_of_written someWord]
  simp [Scalar.word]

/-- Settings are written line by line, the filters under a key of their own. -/
theorem toText_eq {settings : Settings} (writable : settings.Writable) :
    settings.toText =
      nestedText settings.settingLines "filters".toList (filterLines settings.filters) := by
  have offset := wordEntry_eq "offset" (isWord_decimal settings.offset) 0
  have format := wordEntry_eq "format" (isWord_format settings.format) 0
  have switch := fun key value => wordEntry_eq key (isWord_switchText value) indentStep
  have header : "filters:\n".toList = "filters".toList ++ [':', '\n'] := by decide
  rw [List.replicate_zero, List.nil_append] at offset format
  rw [toText, textEntry_eq _ writable.schema, textEntry_eq _ writable.rootStruct,
    textEntry_eq _ writable.rootLabel, offset, format, header]
  have named (entries : List Entry) :
      (Section.header ⟨.word "filters".toList, indentStep, entries⟩).line 0 =
        "filters".toList ++ [':'] := by
    simp [Section.header, Entry.line, Scalar.word, Scalar.behindColon, Scalar.nothing]
  simp only [filterText, List.flatMap_cons, List.flatMap_nil, switch, nestedText, nestedOutline,
    Outline.text, Outline.lines, Section.lines, Option.toList_some, named, settingLines, filterLines,
    List.map_cons, List.map_nil, Text.joinWith, List.append_assoc, List.append_nil,
    List.cons_append, List.nil_append]

theorem textLine_proper {key value : String} (isKey : IsKey key.toList)
    (noFeed : '\n' ∉ value.toList) (column : Nat) : (textLine key value).Proper column :=
  properEntry_word isKey (.inr (Lexer.spells_writeText (by decide) noFeed)) fun _ mem =>
    settled_of_printable (isPrintable_of_mem_writeText noFeed mem)

theorem wordLine_proper {key : String} (isKey : IsKey key.toList) {word : List Char}
    (isWord : IsWord word) (column : Nat) : (wordLine key word).Proper column :=
  properEntry_word isKey (.inr (Lexer.spells_word isWord)) fun c mem =>
    (KeyChar.of_isKeyChar (isWord.plain c mem)).settled

theorem settingLines_proper {settings : Settings} (writable : settings.Writable) :
    ∀ entry ∈ settings.settingLines, entry.Proper 0 := by
  simp only [settingLines, List.forall_mem_cons]
  refine ⟨textLine_proper ?_ writable.schema 0, textLine_proper ?_ writable.rootStruct 0,
    textLine_proper ?_ writable.rootLabel 0, wordLine_proper ?_ (isWord_decimal _) 0,
    wordLine_proper ?_ (isWord_format _) 0, List.forall_mem_nil _⟩
  all_goals decide

theorem filterLines_proper (filter : Comparison.Filter) :
    ∀ entry ∈ filterLines filter, entry.Proper indentStep := by
  simp only [filterLines, List.forall_mem_cons]
  refine ⟨wordLine_proper ?_ (isWord_switchText _) _, wordLine_proper ?_ (isWord_switchText _) _,
    wordLine_proper ?_ (isWord_switchText _) _, List.forall_mem_nil _⟩
  all_goals decide

/-! ### Reading back -/

theorem bool?_switchText (value : Bool) : bool? (switchText value) = some value := by
  cases value <;> decide

theorem nodes_textLine (key value : String) :
    (textLine key value).nodes =
      (.scalar none .plain key, .scalar none (Form.ofText value.toList).style value) := by
  simp [textLine, Entry.nodes, Scalar.word, Scalar.node]

theorem nodes_wordLine (key : String) (word : List Char) :
    (wordLine key word).nodes =
      (.scalar none .plain key, .scalar none .plain (String.ofList word)) := by
  simp [wordLine, Entry.nodes, Scalar.word, Scalar.node]

/-- Entries without aliases whose keys are texts are those of their mapping. -/
theorem entries?_mapping {document : Document} {entries : List (Node × Node)}
    (named : ∀ entry ∈ entries, (text? entry.1).isSome = true)
    (own : ∀ entry ∈ entries, (document.resolve entry.1, document.resolve entry.2) = entry) :
    entries? document (.mapping entries) = some entries := by
  have same : (entries.map fun entry => (document.resolve entry.1, document.resolve entry.2)) =
      entries := (List.map_congr_left own).trans (List.map_id' entries)
  rw [entries?, same]
  exact if_pos (List.all_eq_true.mpr named)

theorem valuesOf_nil (key : String) : valuesOf key [] = [] := rfl

theorem valuesOf_cons (key name : String) (tag : Option (List UInt8)) (style : Style)
    (value : Node) (entries : List (Node × Node)) :
    valuesOf key ((.scalar tag style name, value) :: entries) =
      if name = key then value :: valuesOf key entries else valuesOf key entries := by
  by_cases same : name = key <;> simp [valuesOf, text?, same]

/-- The mapping of the lines of a filter is that filter. -/
theorem filter?_lines (document : Document) (filter : Comparison.Filter) :
    filter? document (.mapping ((filterLines filter).map Entry.nodes)) = some filter := by
  simp only [filterLines, List.map_cons, List.map_nil, nodes_wordLine]
  rw [filter?, entries?_mapping (by simp [text?]) (by simp [Document.resolve])]
  simp [field?, valuesOf_cons, valuesOf_nil, switch?, Node.isCore_absent, bool?_switchText]

/-- The mapping of the lines of settings is those settings. -/
theorem ofDocument?_lines {settings : Settings} (fits : settings.offset < Text.wordLimit) :
    ofDocument? (nestedDocument settings.settingLines "filters".toList
      (filterLines settings.filters)) = some settings := by
  have noTag : Node.localName? none = none := rfl
  simp only [nestedDocument, nestedOutline, Outline.nodes, Section.nodes, Scalar.word, Scalar.node,
    Option.toList_some, settingLines, List.map_cons, List.map_nil, nodes_wordLine, nodes_textLine,
    String.ofList_toList, List.cons_append, List.nil_append]
  rw [ofDocument?, entries?_mapping (by simp [text?]) (by simp [Document.resolve])]
  simp [field?, valuesOf_cons, valuesOf_nil, text?, number?, format?, filter?_lines,
    Node.isCore_absent, noTag, unsigned?_decimal fits, Format.ofWord?_word]

/-- What is written for settings is read as them if they are valid, and refused with their own fault
if they are not. -/
theorem ofText_toText {settings : Settings} (writable : settings.Writable) :
    ofText settings.toText = settings.validated := by
  have isKey : IsKey "filters".toList := by decide
  have inked : Text.isAllBlank settings.toText = false := by
    refine Text.isAllBlank_eq_false ⟨'f', ?_, by decide⟩
    simp [toText]
  have read := readDocument_nestedText isKey (by simp [settingLines]) (by simp [filterLines])
    (settingLines_proper writable) (filterLines_proper settings.filters)
  rw [← toText_eq writable] at read
  rw [ofText, if_neg (by simp [inked]), read, Option.bind_some, ofDocument?_lines writable.fits]

/-- Settings whose texts look like numbers, null and marks, or hold blanks, quotes and controls. -/
def awkward : Settings where
  schema := " 0x1F: 'a' # \"b\" \\"
  rootStruct := "~"
  rootLabel := "- \t\u2028\u0085\x00: "
  offset := 18446744073709551615
  format := .json
  filters := ⟨true, false, true⟩

theorem ofText_toText_awkward :
    ofText awkward.toText = .ok awkward ∧
      ofText { awkward with rootStruct := " " }.toText =
        .error (.blankSetting .rootStruct) :=
  ⟨ofText_toText ⟨by decide, by decide, by decide, by decide⟩,
    ofText_toText ⟨by decide, by decide, by decide, by decide⟩⟩

end Settings

end RecordDiff
