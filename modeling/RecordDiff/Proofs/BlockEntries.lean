import RecordDiff.Proofs.BlockLines
import RecordDiff.Yaml.Reader

/-!
Block mappings read from their lines. Each line gives one entry, so a text of such lines is read as
the mapping of their keys and values, in order. Main statements:

- `readEntries_entry`: the tokens of an entry give its key and its value;
- `readEntries_entries`: those of many entries give them all;
- `readEntries_section`: those of a mapping under a key give it as the value of the key;
- `Outline.readDocument_text`: a block mapping on lines of its own is read as that mapping.
-/

namespace RecordDiff.Yaml

/-! ### Nodes -/

/-- The node of a scalar. -/
def Scalar.node (scalar : Scalar) : Node :=
  .scalar none scalar.style (String.ofList scalar.text)

/-- The key and the value of an entry as nodes. -/
def Entry.nodes (entry : Entry) : Node × Node :=
  (entry.key.node, entry.value.node)

/-- The name of a section and its mapping. -/
def Section.nodes (inner : Section) : Node × Node :=
  (inner.name.node, .mapping (inner.entries.map Entry.nodes))

/-- The entries of a block mapping on lines of its own. -/
def Outline.nodes (outline : Outline) : List (Node × Node) :=
  outline.front.map Entry.nodes ++
    (outline.nested.toList.map Section.nodes ++ outline.back.map Entry.nodes)

/-! ### Nodes read from tokens -/

variable {handles : Handles} {anchors : Anchors}

/-- A node without a name and a tag is its content. -/
theorem readNode_of_content {fuel : Nat} {block underKey : Bool} {tokens rest : List Token}
    {node : Node} (noAlias : ∀ name more, tokens ≠ .reference name :: more)
    (plain : splitProperties tokens = (⟨none, none⟩, tokens))
    (content : readContent fuel block underKey false none ⟨tokens, handles, anchors⟩ =
      some (node, ⟨rest, handles, anchors⟩)) :
    readNode (fuel + 1) block underKey ⟨tokens, handles, anchors⟩ =
      some (node, ⟨rest, handles, anchors⟩) := by
  rw [readNode]
  split
  · rename_i name more isAlias
    exact absurd isAlias (noAlias name more)
  · simp only [plain, Properties.register, Properties.tag?, Properties.isSome, Option.isSome_none,
      Bool.or_self, content, Option.map_some, Anchors.store]

theorem readNode_scalar (fuel : Nat) (block underKey : Bool) (style : Style) (text : List Char)
    (rest : List Token) :
    readNode (fuel + 2) block underKey ⟨.scalar style text :: rest, handles, anchors⟩ =
      some (.scalar none style (String.ofList text), ⟨rest, handles, anchors⟩) := by
  have content : readContent (fuel + 1) block underKey false none
      ⟨.scalar style text :: rest, handles, anchors⟩ =
        some (.scalar none style (String.ofList text), ⟨rest, handles, anchors⟩) := by
    simp only [readContent, Reading.next, List.tail_cons]
  exact readNode_of_content (by simp) rfl content

/-- A mapping is read behind its mark. -/
theorem readNode_mapping {fuel : Nat} {tokens rest : List Token} {mapping : Node}
    (read : readEntries (fuel + 1) [] ⟨tokens, handles, anchors⟩ =
      some (mapping, ⟨rest, handles, anchors⟩)) (underKey : Bool) :
    readNode (fuel + 3) true underKey ⟨.blockMapping :: tokens, handles, anchors⟩ =
      some (mapping, ⟨rest, handles, anchors⟩) := by
  have content : readContent (fuel + 2) true underKey false none
      ⟨.blockMapping :: tokens, handles, anchors⟩ = some (mapping, ⟨rest, handles, anchors⟩) := by
    simp [readContent, Reading.next, read]
  exact readNode_of_content (by simp) rfl content

/-! ### Entries -/

/-- Tokens in front of which the key or the value of an entry is left out. -/
def entryStops : List Token :=
  [.key, .value, .blockEnd]

/-- Tokens in front of which an entry ends. -/
def EndsEntry (tokens : List Token) : Prop :=
  tokens.head? = some .key ∨ tokens.head? = some .blockEnd

/-- Either a value is written, or it is the one where nothing is written. -/
def Scalar.IsValue (value : Scalar) : Prop :=
  value = .nothing ∨ value.written ≠ []

theorem Entry.Proper.isValue {column : Nat} {entry : Entry} (proper : entry.Proper column) :
    entry.value.IsValue := by
  rcases proper.value with unwritten | ⟨c, behind, written, -⟩
  · exact .inl unwritten
  · exact .inr (by simp [written])

theorem readOptional_node {token : Token} (starts : token ∉ entryStops) (fuel : Nat)
    (rest : List Token) :
    readOptional (fuel + 1) true true entryStops ⟨token :: rest, handles, anchors⟩ =
      readNode fuel true true ⟨token :: rest, handles, anchors⟩ := by
  have goesOn : Reading.isAt ⟨token :: rest, handles, anchors⟩ entryStops = false := by
    simpa [Reading.isAt] using starts
  rw [readOptional, if_neg (by rw [goesOn]; exact Bool.false_ne_true)]

theorem readOptional_absent {rest : List Token} (ends : EndsEntry rest) (fuel : Nat) :
    readOptional (fuel + 1) true true entryStops ⟨rest, handles, anchors⟩ =
      some (.absent, ⟨rest, handles, anchors⟩) := by
  have stops : Reading.isAt ⟨rest, handles, anchors⟩ entryStops = true := by
    cases rest with
    | nil => rcases ends with none | none <;> cases none
    | cons token more =>
      rcases ends with first | first
      · obtain rfl : token = .key := Option.some.inj first
        simp [Reading.isAt, entryStops]
      · obtain rfl : token = .blockEnd := Option.some.inj first
        simp [Reading.isAt, entryStops]
  rw [readOptional, if_pos stops]

theorem readOptional_scalar (fuel : Nat) (style : Style) (text : List Char) (rest : List Token) :
    readOptional (fuel + 3) true true entryStops ⟨.scalar style text :: rest, handles, anchors⟩ =
      some (.scalar none style (String.ofList text), ⟨rest, handles, anchors⟩) := by
  rw [readOptional_node (by simp [entryStops]), readNode_scalar]

theorem readValue_value (fuel : Nat) (rest : List Token) :
    readValue (fuel + 1) true entryStops ⟨.value :: rest, handles, anchors⟩ =
      readOptional fuel true true entryStops ⟨rest, handles, anchors⟩ := by
  simp only [readValue, Reading.next, List.tail_cons]

/-- The tokens of a value give it behind a colon, also where none is written. -/
theorem readValue_tokens {value : Scalar} (isValue : value.IsValue) {rest : List Token}
    (ends : EndsEntry rest) (fuel : Nat) :
    readValue (fuel + 4) true entryStops ⟨.value :: (value.tokens ++ rest), handles, anchors⟩ =
      some (value.node, ⟨rest, handles, anchors⟩) := by
  rw [readValue_value]
  rcases isValue with rfl | written
  · exact readOptional_absent ends (fuel + 2)
  · have tokens : value.tokens = [.scalar value.style value.text] := by
      simpa [Scalar.tokens] using written
    rw [tokens]
    exact readOptional_scalar fuel value.style value.text rest

/-- An entry is read where its key is read, and behind that its value. -/
theorem readEntries_key {fuel : Nat} {tokens : List Token} {between behind : Reading}
    {key value : Node} (reversed : List (Node × Node))
    (keyRead : readOptional fuel true true entryStops ⟨tokens, handles, anchors⟩ =
      some (key, between))
    (valueRead : readValue fuel true entryStops between = some (value, behind)) :
    readEntries (fuel + 1) reversed ⟨.key :: tokens, handles, anchors⟩ =
      readEntries fuel ((key, value) :: reversed) behind := by
  unfold entryStops at keyRead valueRead
  simp only [readEntries, Reading.next, List.tail_cons, keyRead, valueRead]

/-- The tokens of an entry give its key and its value. -/
theorem readEntries_entry {entry : Entry} (isValue : entry.value.IsValue) {rest : List Token}
    (ends : EndsEntry rest) (fuel : Nat) (reversed : List (Node × Node)) :
    readEntries (fuel + 5) reversed ⟨entry.tokens ++ rest, handles, anchors⟩ =
      readEntries (fuel + 4) (entry.nodes :: reversed) ⟨rest, handles, anchors⟩ := by
  let colon := .value :: (entry.value.tokens ++ rest)
  have shape : entry.tokens ++ rest = .key :: .scalar entry.key.style entry.key.text :: colon := rfl
  have keyRead : readOptional (fuel + 4) true true entryStops
      ⟨.scalar entry.key.style entry.key.text :: colon, handles, anchors⟩ =
        some (entry.key.node, ⟨colon, handles, anchors⟩) :=
    readOptional_scalar (fuel + 1) entry.key.style entry.key.text colon
  have valueRead : readValue (fuel + 4) true entryStops ⟨colon, handles, anchors⟩ =
      some (entry.value.node, ⟨rest, handles, anchors⟩) := readValue_tokens isValue ends fuel
  rw [shape]
  exact readEntries_key reversed keyRead valueRead

/-- The tokens of entries give them all, in order. -/
theorem readEntries_entries {entries : List Entry}
    (isValue : ∀ entry ∈ entries, entry.value.IsValue) {rest : List Token} (ends : EndsEntry rest)
    (fuel : Nat) (reversed : List (Node × Node)) :
    readEntries (fuel + entries.length + 4) reversed
        ⟨entries.flatMap Entry.tokens ++ rest, handles, anchors⟩ =
      readEntries (fuel + 4) ((entries.map Entry.nodes).reverse ++ reversed)
        ⟨rest, handles, anchors⟩ := by
  induction entries generalizing reversed with
  | nil =>
    rw [List.length_nil, Nat.add_zero, List.flatMap_nil, List.nil_append, List.map_nil,
      List.reverse_nil, List.nil_append]
  | cons entry entries ih =>
    obtain ⟨isValueFirst, isValueOthers⟩ := List.forall_mem_cons.mp isValue
    have endsFirst : EndsEntry (entries.flatMap Entry.tokens ++ rest) := by
      cases entries with
      | nil => exact ends
      | cons next entries => exact .inl rfl
    have enough : fuel + (entry :: entries).length + 4 = fuel + entries.length + 5 := by
      rw [List.length_cons]
      omega
    calc readEntries (fuel + (entry :: entries).length + 4) reversed
          ⟨(entry :: entries).flatMap Entry.tokens ++ rest, handles, anchors⟩
      _ = readEntries (fuel + entries.length + 4) (entry.nodes :: reversed)
            ⟨entries.flatMap Entry.tokens ++ rest, handles, anchors⟩ := by
          rw [enough, List.flatMap_cons, List.append_assoc,
            readEntries_entry isValueFirst endsFirst]
      _ = readEntries (fuel + 4) ((entries.map Entry.nodes).reverse ++ entry.nodes :: reversed)
            ⟨rest, handles, anchors⟩ := ih isValueOthers (entry.nodes :: reversed)
      _ = readEntries (fuel + 4) (((entry :: entries).map Entry.nodes).reverse ++ reversed)
            ⟨rest, handles, anchors⟩ := by
          rw [List.map_cons, List.reverse_cons, List.append_assoc, List.singleton_append]

theorem readEntries_end (fuel : Nat) (reversed : List (Node × Node)) (rest : List Token) :
    readEntries (fuel + 1) reversed ⟨.blockEnd :: rest, handles, anchors⟩ =
      some (.mapping reversed.reverse, ⟨rest, handles, anchors⟩) := rfl

/-- The tokens of a mapping under a key give it as the value of the key. -/
theorem readEntries_section {inner : Section}
    (isValue : ∀ entry ∈ inner.entries, entry.value.IsValue) (fuel : Nat)
    (reversed : List (Node × Node)) (rest : List Token) :
    readEntries (fuel + inner.entries.length + 9) reversed
        ⟨inner.tokens ++ rest, handles, anchors⟩ =
      readEntries (fuel + inner.entries.length + 8) (inner.nodes :: reversed)
        ⟨rest, handles, anchors⟩ := by
  let entries := inner.entries.flatMap Entry.tokens ++ .blockEnd :: rest
  let colon := .value :: .blockMapping :: entries
  have shape : inner.tokens ++ rest =
      .key :: .scalar inner.name.style inner.name.text :: colon := by
    simp [colon, entries, Section.tokens, Section.header, Entry.tokens, Scalar.tokens,
      Scalar.nothing]
  have read : readEntries (fuel + inner.entries.length + 4) [] ⟨entries, handles, anchors⟩ =
      some (.mapping (inner.entries.map Entry.nodes), ⟨rest, handles, anchors⟩) := by
    rw [readEntries_entries isValue (.inr rfl), readEntries_end]
    simp
  have keyRead : readOptional (fuel + inner.entries.length + 8) true true entryStops
      ⟨.scalar inner.name.style inner.name.text :: colon, handles, anchors⟩ =
        some (inner.name.node, ⟨colon, handles, anchors⟩) :=
    readOptional_scalar _ inner.name.style inner.name.text colon
  have valueRead : readValue (fuel + inner.entries.length + 8) true entryStops
      ⟨colon, handles, anchors⟩ =
        some (.mapping (inner.entries.map Entry.nodes), ⟨rest, handles, anchors⟩) := by
    rw [readValue_value, readOptional_node (by simp [entryStops]), readNode_mapping read true]
  rw [shape]
  exact readEntries_key reversed keyRead valueRead

/-! ### Documents -/

/-- The tokens of a block mapping give its entries, the sections among them. -/
theorem readEntries_outline {outline : Outline} (proper : outline.Of Entry.Proper) (fuel : Nat) :
    readEntries (fuel + outline.lines.length + 8) []
        ⟨outline.entryTokens ++ [.blockEnd], handles, anchors⟩ =
      some (.mapping outline.nodes, ⟨[], handles, anchors⟩) := by
  obtain ⟨column, front, nested, back⟩ := outline
  obtain ⟨-, properFront, properNested, properBack⟩ := proper
  have frontValues := fun entry mem => (properFront entry mem).isValue
  have backValues := fun entry mem => (properBack entry mem).isValue
  have backRead (fuel : Nat) (reversed : List (Node × Node)) :
      readEntries (fuel + back.length + 4) reversed
          ⟨back.flatMap Entry.tokens ++ [.blockEnd], handles, anchors⟩ =
        some (.mapping (reversed.reverse ++ back.map Entry.nodes), ⟨[], handles, anchors⟩) := by
    rw [readEntries_entries backValues (.inr rfl), readEntries_end]
    simp
  cases nested with
  | none =>
    have ends : EndsEntry (back.flatMap Entry.tokens ++ [.blockEnd]) := by
      cases back with
      | nil => exact .inr rfl
      | cons entry back => exact .inl rfl
    have enough : fuel + (Outline.lines ⟨column, front, none, back⟩).length + 8 =
        fuel + back.length + 4 + front.length + 4 := by
      simp only [Outline.lines, Option.toList_none, List.flatMap_nil, List.nil_append,
        List.length_append, List.length_map]
      omega
    have shape : Outline.entryTokens ⟨column, front, none, back⟩ ++ [.blockEnd] =
        front.flatMap Entry.tokens ++ (back.flatMap Entry.tokens ++ [.blockEnd]) := by
      simp [Outline.entryTokens]
    rw [enough, shape, readEntries_entries frontValues ends,
      show fuel + back.length + 4 + 4 = fuel + 4 + back.length + 4 by omega, backRead]
    simp [Outline.nodes]
  | some inner =>
    have innerValues := fun entry mem => ((properNested inner rfl).entries entry mem).isValue
    have enough : fuel + (Outline.lines ⟨column, front, some inner, back⟩).length + 8 =
        fuel + back.length + inner.entries.length + 5 + front.length + 4 := by
      simp only [Outline.lines, Section.lines, Option.toList_some, List.flatMap_cons,
        List.flatMap_nil, List.length_append, List.length_cons, List.length_nil, List.length_map]
      omega
    have shape : Outline.entryTokens ⟨column, front, some inner, back⟩ ++ [.blockEnd] =
        front.flatMap Entry.tokens ++
          (inner.tokens ++ (back.flatMap Entry.tokens ++ [.blockEnd])) := by
      simp [Outline.entryTokens]
    rw [enough, shape, readEntries_entries frontValues (.inl rfl),
      show fuel + back.length + inner.entries.length + 5 + 4 =
        fuel + back.length + inner.entries.length + 9 by omega, readEntries_section innerValues,
      show fuel + back.length + inner.entries.length + 8 =
        fuel + inner.entries.length + 4 + back.length + 4 by omega, backRead]
    simp [Outline.nodes]

theorem Outline.length_lines_le (outline : Outline) :
    outline.lines.length + 2 ≤ outline.tokens.length := by
  have entries (entries : List Entry) :
      entries.length ≤ (entries.flatMap Entry.tokens).length := by
    induction entries with
    | nil => exact Nat.le_refl 0
    | cons entry entries ih =>
      simp only [List.flatMap_cons, List.length_append, List.length_cons, Entry.tokens]
      omega
  obtain ⟨column, front, nested, back⟩ := outline
  have inFront := entries front
  have inBack := entries back
  cases nested with
  | none =>
    simp only [lines, Outline.tokens, entryTokens, Option.toList_none, List.flatMap_nil,
      List.nil_append, List.length_append, List.length_cons, List.length_map, List.length_nil]
    omega
  | some inner =>
    have inside := entries inner.entries
    simp only [lines, Section.lines, Outline.tokens, entryTokens, Section.tokens, Section.header,
      Entry.tokens, Option.toList_some, List.flatMap_cons, List.flatMap_nil, List.length_append,
      List.length_cons, List.length_map, List.length_nil]
    omega

theorem readTokens_outline {outline : Outline} (proper : outline.Of Entry.Proper) :
    readTokens outline.tokens = some ⟨.mapping outline.nodes, []⟩ := by
  have room : outline.lines.length + 10 ≤ fuelFor outline.tokens := by
    have few := outline.length_lines_le
    rw [fuelFor]
    omega
  obtain ⟨extra, length⟩ := Nat.exists_eq_add_of_le' room
  have enough : fuelFor outline.tokens = extra + outline.lines.length + 10 := by omega
  have read : readNode (fuelFor outline.tokens) true false ⟨outline.tokens, standardHandles, {}⟩ =
      some (.mapping outline.nodes, ⟨[], standardHandles, {}⟩) := by
    rw [enough]
    exact readNode_mapping (readEntries_outline proper extra) false
  rw [Outline.tokens] at read ⊢
  simp only [readTokens, readDirectives, readRoot, read]
  rfl

theorem unifyBreaks_append {front : List Char} (settled : ∀ c ∈ front, isSettled c = true)
    (back : List Char) : unifyBreaks (front ++ back) = front ++ unifyBreaks back := by
  induction front with
  | nil => rfl
  | cons c front ih =>
    obtain ⟨here, others⟩ := List.forall_mem_cons.mp settled
    simp only [isSettled, Bool.and_eq_true, bne_iff_ne] at here
    obtain ⟨⟨-, noReturn⟩, noNext⟩ := here
    rw [List.cons_append, unifyBreaks, ih others]
    · simp [noReturn, noNext]
    · rintro _ rfl
      exact absurd rfl noReturn

theorem unifyBreaks_of_settled {text : List Char} (settled : ∀ c ∈ text, isSettled c = true) :
    unifyBreaks text = text := by
  simpa [unifyBreaks] using unifyBreaks_append settled []

/-- A block mapping on lines of its own is read as its entries, however its lines end. -/
theorem Outline.readDocument_text {outline : Outline} (proper : outline.Of Entry.Proper)
    {text closing : List Char} (closes : closing = [] ∨ closing = ['\n'])
    (allowed : ∀ c ∈ text, isAllowed c = true)
    (unified : unifyBreaks text = Text.joinWith ['\n'] outline.lines ++ closing) :
    readDocument text = some ⟨.mapping outline.nodes, []⟩ := by
  rw [readDocument, if_pos (List.all_eq_true.mpr allowed), unified,
    Outline.tokens?_text proper closes]
  exact readTokens_outline proper

theorem isAllowed_of_settled {c : Char} (settled : isSettled c = true) : isAllowed c = true := by
  simp only [isSettled, Bool.and_eq_true] at settled
  exact settled.1.1

theorem Entry.settled_line {entry : Entry} (key : ∀ c ∈ entry.key.written, isSettled c = true)
    (value : ∀ c ∈ entry.value.written, isSettled c = true) (column : Nat) :
    ∀ c ∈ entry.line column, isSettled c = true := by
  have blanks : ∀ c ∈ List.replicate column ' ', isSettled c = true := by
    intro c mem
    rw [List.eq_of_mem_replicate mem]
    decide
  have behind : ∀ c ∈ entry.value.behindColon, isSettled c = true := by
    unfold Scalar.behindColon
    split
    · exact List.forall_mem_nil _
    · exact List.forall_mem_cons.mpr ⟨by decide, value⟩
  exact List.forall_mem_append.mpr ⟨blanks, List.forall_mem_append.mpr
    ⟨key, List.forall_mem_cons.mpr ⟨by decide, behind⟩⟩⟩

theorem Outline.Of.settled_lines {outline : Outline} (proper : outline.Of Entry.Proper) :
    ∀ line ∈ outline.lines, ∀ c ∈ line, isSettled c = true := by
  have line {column : Nat} {entry : Entry} (proper : entry.Proper column) :=
    Entry.settled_line proper.settledKey proper.settledValue column
  simp only [lines, Section.lines, List.forall_mem_append, List.forall_mem_flatMap,
    List.forall_mem_cons, List.forall_mem_map, Option.mem_toList]
  exact ⟨fun entry mem => line (proper.front entry mem),
    fun inner mem => ⟨line (proper.nested inner mem).header,
      fun entry inside => line ((proper.nested inner mem).entries entry inside)⟩,
    fun entry mem => line (proper.back entry mem)⟩

theorem settled_joinWith {lines : List (List Char)}
    (settled : ∀ line ∈ lines, ∀ c ∈ line, isSettled c = true) :
    ∀ c ∈ Text.joinWith ['\n'] lines, isSettled c = true := by
  induction lines with
  | nil => exact List.forall_mem_nil _
  | cons line lines ih =>
    obtain ⟨here, others⟩ := List.forall_mem_cons.mp settled
    cases lines with
    | nil => exact here
    | cons next lines =>
      exact List.forall_mem_append.mpr ⟨List.forall_mem_append.mpr
        ⟨here, by simp [isSettled, isAllowed]⟩, ih others⟩

/-! ### Words -/

/-- A word as it is written. -/
def Scalar.word (word : List Char) : Scalar :=
  ⟨word, .plain, word⟩

/-- A word is a key in every column. -/
theorem spellsKey_word {word : List Char} (isWord : IsWord word) (column : Nat) :
    Lexer.SpellsKey column (.word word) := by
  have unmarked : ∀ mark, mark = '-' ∨ mark = '.' → startsMark mark (word ++ [':']) = false := by
    intro mark known
    obtain ⟨c, more, rfl⟩ := List.exists_cons_of_ne_nil isWord.nonempty
    have keyChar := KeyChar.of_isKeyChar (isWord.plain c List.mem_cons_self)
    rcases known with rfl | rfl
    · exact startsMark_of_ne keyChar.noDash
    · exact startsMark_of_ne keyChar.noDot
  refine Lexer.spellsKey_plain (isPlain_of_word isWord) fun _ => ?_
  rw [marksDocument, unmarked '-' (.inl rfl), unmarked '.' (.inr rfl), Bool.or_false]

/-- An entry whose key is a word. -/
theorem properEntry_word {key : List Char} (isKey : IsKey key) {column : Nat} {value : Scalar}
    (spells : value = .nothing ∨ Lexer.Spells value.written value.style value.text)
    (settled : ∀ c ∈ value.written, isSettled c = true) :
    Entry.Proper column ⟨.word key, value⟩ where
  key := spellsKey_word isKey.toIsWord column
  short := isKey.short
  value := spells
  settledKey c mem := (KeyChar.of_isKeyChar (isKey.plain c mem)).settled
  settledValue := settled

/-- A mapping of which the last value is a mapping itself, under a word. -/
def nestedOutline (outer : List Entry) (name : List Char) (inner : List Entry) : Outline :=
  ⟨0, outer, some ⟨.word name, indentStep, inner⟩, []⟩

/-- The text of such a mapping. -/
def nestedText (outer : List Entry) (name : List Char) (inner : List Entry) : List Char :=
  (nestedOutline outer name inner).text

/-- The document of such a text. -/
def nestedDocument (outer : List Entry) (name : List Char) (inner : List Entry) : Document :=
  ⟨.mapping (nestedOutline outer name inner).nodes, []⟩

/-- A text of lines, of which the last ones are indented under a key, is a mapping with a mapping as
its last value. -/
theorem readDocument_nestedText {outer inner : List Entry} {name : List Char}
    (isKey : IsKey name) (someOuter : outer ≠ []) (someInner : inner ≠ [])
    (proper : ∀ entry ∈ outer, entry.Proper 0)
    (innerProper : ∀ entry ∈ inner, entry.Proper indentStep) :
    readDocument (nestedText outer name inner) = some (nestedDocument outer name inner) := by
  have indentStep_pos : 0 < indentStep := by decide
  have nested : Section.Of Entry.Proper 0 ⟨.word name, indentStep, inner⟩ :=
    ⟨properEntry_word isKey (.inl rfl) (List.forall_mem_nil _), indentStep_pos, someInner,
      innerProper⟩
  have whole : (nestedOutline outer name inner).Of Entry.Proper :=
    ⟨by simp [nestedOutline, Outline.lines, someOuter], proper,
      fun inner mem => Option.mem_some.mp mem ▸ nested, List.forall_mem_nil _⟩
  have settled : ∀ c ∈ nestedText outer name inner, isSettled c = true :=
    List.forall_mem_append.mpr
      ⟨settled_joinWith whole.settled_lines, by simp [isSettled, isAllowed]⟩
  exact Outline.readDocument_text whole (.inr rfl)
    (fun c mem => isAllowed_of_settled (settled c mem)) (unifyBreaks_of_settled settled)

end RecordDiff.Yaml
