import RecordDiff.Proofs.JsonText

/-!
The JSON of a comparison and back. Whatever its labels, comments and values are made of, and however
its rows lie in each other, a comparison is told from its JSON text alone: the text belongs to the
grammar, and no two comparisons share one. Main statements:

- `spells_escapeChar`: what is written for a character spells that character;
- `value_pretty`: a value with line breaks is a text of that value, at every depth;
- `rowOf?_ofRow`: a row is told from its object, also where members were left out;
- `renderJson_lossless`: the text of a comparison has one value, and that is the comparison.
-/

namespace RecordDiff.View

open RecordDiff.Comparison (Row Tree)

namespace Json

/-! ### Writing -/

theorem digit?_hexDigit {d : Nat} (small : d < 16) :
    Text.digit? 16 (Text.hexDigit d) = some d := by
  have all : ∀ d < 16, Text.digit? 16 (Text.hexDigit d) = some d := by decide
  exact all d small

/-- The two digits of an octet behind two zeros are its number. -/
theorem isUnit_octet {octet : Nat} (small : octet < 256) :
    IsUnit ['0', '0', Text.hexDigit (octet / 16), Text.hexDigit (octet % 16)] octet := by
  have zero : Text.digit? 16 '0' = some 0 := rfl
  have upper := digit?_hexDigit (d := octet / 16) (by omega)
  have lower := digit?_hexDigit (d := octet % 16) (by omega)
  have whole : octet / 16 * 16 + octet % 16 = octet := Nat.div_add_mod' octet 16
  refine ⟨rfl, ?_⟩
  simp [Text.readDigits, zero, upper, lower, Text.wordLimit, whole]
  rw [if_pos (by omega), if_pos (by omega)]

/-- The characters that are written as a letter behind a backslash. -/
def lettered : List Char :=
  ['"', '\\', '\n', '\r', '\t', '\x08', '\x0C']

theorem spells_of_lettered {c : Char} (letter : c ∈ lettered) : Spells (escapeChar c) c := by
  simp only [lettered, List.mem_cons, List.not_mem_nil, or_false] at letter
  rcases letter with rfl | rfl | rfl | rfl | rfl | rfl | rfl <;> exact .letter rfl

theorem escapeChar_of_not_lettered {c : Char} (noLetter : c ∉ lettered) :
    escapeChar c =
      if c.toNat < 0x20 then
        ['\\', 'u', '0', '0', Text.hexDigit (c.toNat / 16), Text.hexDigit (c.toNat % 16)]
      else [c] := by
  simp only [lettered, List.mem_cons, List.not_mem_nil, or_false, not_or] at noLetter
  obtain ⟨noQuote, noBackslash, noFeed, noReturn, noTab, noBack, noForm⟩ := noLetter
  have notEight : c.toNat ≠ 0x8 := fun same => noBack (Char.toNat_inj.mp same)
  have notTwelve : c.toNat ≠ 0xC := fun same => noForm (Char.toNat_inj.mp same)
  simp only [escapeChar, noQuote, noBackslash, noFeed, noReturn, noTab, notEight, notTwelve,
    if_false]

/-- What is written for a character spells that character. -/
theorem spells_escapeChar (c : Char) : Spells (escapeChar c) c := by
  by_cases letter : c ∈ lettered
  · exact spells_of_lettered letter
  rw [escapeChar_of_not_lettered letter]
  split
  · exact .unit (isUnit_octet (by omega))
  · have noQuote : c ≠ '"' := fun same => letter (by simp [lettered, same])
    have noBackslash : c ≠ '\\' := fun same => letter (by simp [lettered, same])
    exact .itself noQuote noBackslash (by omega)

theorem spelling_escaped (chars : List Char) : Spelling (chars.flatMap escapeChar) chars := by
  induction chars with
  | nil => exact .nil
  | cons c chars ih => exact .cons (spells_escapeChar c) ih

theorem quoted_quote (text : String) : Quoted (quote text) text :=
  .mk (spelling_escaped text.toList)

theorem spaces_nil : Spaces [] := by
  simp [Spaces]

theorem spaces_blank : Spaces [' '] := by
  simp [Spaces, isSpace]

theorem spaces_newline (depth : Nat) : Spaces (newline depth) := by
  simp [Spaces, newline, isSpace]

theorem Value.denotes {text : List Char} {json : Json} (value : Value text json)
    {before behind : List Char} (spacesBefore : Spaces before) (spacesBehind : Spaces behind) :
    Denotes (before ++ text ++ behind) json :=
  .mk spacesBefore value spacesBehind

theorem name_quote (depth : Nat) (name : String) : Name (newline depth ++ quote name) name := by
  simpa using Name.mk (spaces_newline depth) (quoted_quote name) spaces_nil

mutual

/-- A value with line breaks is a text of that value, at every depth. -/
theorem value_pretty (depth : Nat) (json : Json) : Value (json.pretty depth) json := by
  match json with
  | .null => exact .null
  | .number value => exact .number value
  | .string text => exact .string (quoted_quote text)
  | .array [] => exact .emptyArray spaces_nil
  | .array (first :: rest) =>
    have inner := elements_pretty (depth + 1) first rest (spaces_newline depth)
    simpa [pretty] using Value.array inner
  | .object [] => exact .emptyObject spaces_nil
  | .object ((name, value) :: rest) =>
    have inner := members_pretty (depth + 1) name value rest (spaces_newline depth)
    simpa [pretty] using Value.object inner
termination_by sizeOf json

theorem elements_pretty (depth : Nat) (first : Json) (rest : List Json) {behind : List Char}
    (spaces : Spaces behind) :
    Elements (newline depth ++ first.pretty depth ++ prettyElements depth rest ++ behind)
      (first :: rest) := by
  have value := value_pretty depth first
  match rest with
  | [] => simpa [prettyElements] using Elements.last (value.denotes (spaces_newline depth) spaces)
  | second :: rest =>
    have others := elements_pretty depth second rest spaces
    simpa [prettyElements] using
      Elements.more (value.denotes (spaces_newline depth) spaces_nil) others
termination_by sizeOf (first :: rest)

theorem members_pretty (depth : Nat) (name : String) (first : Json)
    (rest : List (String × Json)) {behind : List Char} (spaces : Spaces behind) :
    Members (newline depth ++ quote name ++ [':', ' '] ++ first.pretty depth ++
      prettyMembers depth rest ++ behind) ((name, first) :: rest) := by
  have value := value_pretty depth first
  match rest with
  | [] =>
    simpa [prettyMembers] using
      Members.last (name_quote depth name) (value.denotes spaces_blank spaces)
  | (second, json) :: rest =>
    have others := members_pretty depth second json rest spaces
    simpa [prettyMembers] using
      Members.more (name_quote depth name) (value.denotes spaces_blank spaces_nil) others
termination_by sizeOf ((name, first) :: rest)

end

theorem denotes_pretty (json : Json) : Denotes (json.pretty 0) json := by
  simpa using (value_pretty 0 json).denotes spaces_nil spaces_nil

/-! ### Reading back -/

/-- A text. -/
def text? : Json → Option String
  | .string text => some text
  | _ => none

/-- A text, or nothing. -/
def side? : Json → Option (Option String)
  | .null => some none
  | .string text => some (some text)
  | _ => none

/-- Members whose names differ from each other. -/
def distinct? (members : List (String × Json)) : Option (List (String × Json)) :=
  if (members.map Prod.fst).Nodup then some members else none

mutual

/-- The row of an object. A comment that is missing is empty, and rows below that are missing are
none. -/
def rowOf? : Json → Option Row
  | .object members => do
    let _ ← distinct? members
    let label ← (members.lookup "label").bind text?
    let comment ← ((members.lookup "comment").getD (.string "")).text?
    let left ← (members.lookup "left").bind side?
    let right ← (members.lookup "right").bind side?
    let children ← childrenOf? members
    some ⟨label, comment, left, right, children⟩
  | _ => none

/-- The rows below that the members of an object name. -/
def childrenOf? : List (String × Json) → Option (List Row)
  | [] => some []
  | (name, value) :: rest =>
    if name = "children" then
      match value with
      | .array elements => rowsOf? elements
      | _ => none
    else childrenOf? rest

/-- The rows of values. -/
def rowsOf? : List Json → Option (List Row)
  | [] => some []
  | value :: rest => do
    let row ← rowOf? value
    let rows ← rowsOf? rest
    some (row :: rows)

end

/-- The comparison of an object. -/
def treeOf? : Json → Option Tree
  | .object members => do
    let _ ← distinct? members
    let root ← (members.lookup "root").bind rowOf?
    match members.lookup "consumed" with
    | some (.number consumed) => some ⟨root, consumed⟩
    | _ => none
  | _ => none

theorem side?_ofOption (side : Option String) : (ofOption side).side? = some side := by
  cases side <;> rfl

mutual

/-- A row is told from its object, also where members were left out. -/
theorem rowOf?_ofRow (row : Row) : (ofRow row).rowOf? = some row := by
  match row with
  | ⟨label, comment, left, right, children⟩ =>
    have below := rowsOf?_ofRows children
    by_cases noComment : comment = "" <;> cases children <;>
      simp_all [ofRow, rowOf?, childrenOf?, distinct?, List.lookup_cons, text?, side?_ofOption,
        String.isEmpty_iff]

theorem rowsOf?_ofRows (rows : List Row) : rowsOf? (ofRows rows) = some rows := by
  match rows with
  | [] => rfl
  | row :: rest => simp [ofRows, rowsOf?, rowOf?_ofRow row, rowsOf?_ofRows rest]

end

theorem treeOf?_ofTree (tree : Tree) : (ofTree tree).treeOf? = some tree := by
  simp [ofTree, treeOf?, distinct?, List.lookup_cons, rowOf?_ofRow]

end Json

theorem denotes_renderJson (tree : Tree) :
    Json.Denotes (renderJson tree).toList (Json.ofTree tree) := by
  simpa [renderJson] using Json.denotes_pretty (Json.ofTree tree)

/-- The text of a comparison is well-formed and has one value; reading it gives the comparison
back, so two comparisons never share a text. -/
theorem renderJson_lossless :
    (∀ tree : Tree, ∃ json : Json,
      (∀ other, Json.Denotes (renderJson tree).toList other ↔ other = json) ∧
        Json.read? (renderJson tree).toList = some json ∧ json.treeOf? = some tree) ∧
      Function.Injective renderJson := by
  refine ⟨fun tree => ⟨Json.ofTree tree, fun other => ⟨?_, ?_⟩, ?_, Json.treeOf?_ofTree tree⟩,
    fun tree other same => ?_⟩
  · exact (denotes_renderJson tree).unique
  · rintro rfl
    exact denotes_renderJson tree
  · exact Json.read?_of_denotes (denotes_renderJson tree)
  · -- the values of one text are the same, and so are the comparisons told from them
    have value : Json.ofTree tree = Json.ofTree other :=
      (same ▸ denotes_renderJson other).unique (denotes_renderJson tree)
    have back := Json.treeOf?_ofTree tree
    rw [value, Json.treeOf?_ofTree] at back
    exact (Option.some.inj back).symm

end RecordDiff.View
