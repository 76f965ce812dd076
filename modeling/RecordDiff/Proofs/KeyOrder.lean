import RecordDiff.Proofs.Outlines
import RecordDiff.Proofs.SettingsText

/-!
Settings whose entries stand in another order, among other ones that mean nothing. Each key is
looked up by itself, so what is read is decided by the known entries of each mapping, whatever their
order and whatever stands between them. Main statements:

- `field?_eq_of_perm`: a key is read alike from values in another order;
- `valuesOf_nodes_perm`: outlines with the same known entries have the same values for a known key;
- `ofDocument?_eq_some_iff`, `filter?_eq_some_iff`: settings and filters, key by key;
- `ofText_rearranged`: the outcome does not depend on the order of keys or on unknown ones, and a
  key that is missing leaves its default in place.
-/

namespace RecordDiff

open RecordDiff.Yaml

/-! ### Names -/

namespace Yaml

/-- The name of the key of an entry. -/
def Entry.name (entry : Entry) : String :=
  String.ofList entry.key.text

/-- The names of the keys inside a section. -/
def Section.names (inner : Section) : List String :=
  inner.entries.map Entry.name

/-- The entries of an outline outside its section. -/
def Outline.outer (outline : Outline) : List Entry :=
  outline.front ++ outline.back

/-- The names of the keys of an outline, outside its section. -/
def Outline.names (outline : Outline) : List String :=
  outline.outer.map Entry.name ++ outline.nested.toList.map fun inner => inner.header.name

end Yaml

namespace Settings

/-- The keys that settings are read from. -/
def settingKeys : List String :=
  ["schema", "root_struct", "root_label", "offset", "format", "filters"]

/-- The keys that filters are read from. -/
def filterKeys : List String :=
  ["diff_only", "show_unknown", "show_precomputed"]

/-- The entries whose keys are among the given ones. -/
def known (keys : List String) (entries : List Entry) : List Entry :=
  entries.filter fun entry => keys.contains entry.name

/-- Outlines with the same known entries in each of their mappings, in any order and among any
others that are not known there. -/
structure Rearranged (first second : Outline) : Prop where
  outer : (known settingKeys first.outer).Perm (known settingKeys second.outer)
  nested : first.nested.isSome = second.nested.isSome
  inner : ∀ one ∈ first.nested, ∀ other ∈ second.nested,
    (known filterKeys one.entries).Perm (known filterKeys other.entries)

/-- The section of an outline is that of the filters. -/
def UnderFilters (outline : Outline) : Prop :=
  ∀ inner ∈ outline.nested, inner.header.name = "filters"

/-- Settings that have the default wherever the key is missing. -/
structure HasDefaults (outline : Outline) (settings : Settings) : Prop where
  schema : "schema" ∉ outline.names → settings.schema = ({} : Settings).schema
  rootStruct : "root_struct" ∉ outline.names → settings.rootStruct = ({} : Settings).rootStruct
  rootLabel : "root_label" ∉ outline.names → settings.rootLabel = ({} : Settings).rootLabel
  offset : "offset" ∉ outline.names → settings.offset = ({} : Settings).offset
  format : "format" ∉ outline.names → settings.format = ({} : Settings).format
  filters : "filters" ∉ outline.names → settings.filters = ({} : Settings).filters
  diffOnly : ∀ inner ∈ outline.nested, "diff_only" ∉ inner.names →
    settings.filters.diffOnly = ({} : Comparison.Filter).diffOnly
  showUnknown : ∀ inner ∈ outline.nested, "show_unknown" ∉ inner.names →
    settings.filters.showUnknown = ({} : Comparison.Filter).showUnknown
  showPrecomputed : ∀ inner ∈ outline.nested, "show_precomputed" ∉ inner.names →
    settings.filters.showPrecomputed = ({} : Comparison.Filter).showPrecomputed

/-! ### Looking keys up -/

section Fields

variable {α : Type} {entries other : List (Node × Node)} {key : String} {read : Node → Option α}
  {default : α}

/-- A key is read alike from values in another order. -/
theorem field?_eq_of_perm
    (perm : ((valuesOf key entries).map read).Perm ((valuesOf key other).map read)) :
    field? entries key read default = field? other key read default := by
  unfold field?
  have length := perm.length_eq
  simp only [List.length_map] at length
  match first : valuesOf key entries, second : valuesOf key other with
  | [], [] => rfl
  | [one], [two] => simpa [first, second] using perm
  | _ :: _ :: _, _ :: _ :: _ => rfl
  | [], _ :: _ => simp [first, second] at length
  | _ :: _, [] => simp [first, second] at length
  | [_], _ :: _ :: _ => simp [first, second] at length
  | _ :: _ :: _, [_] => simp [first, second] at length

theorem field?_of_missing (missing : valuesOf key entries = []) :
    field? entries key read default = some default := by
  simp [field?, missing]

/-- A key that is read has one value at most. -/
theorem read_of_field? {value : Node} (member : value ∈ valuesOf key entries) {result : α}
    (found : field? entries key read default = some result) : read value = some result := by
  unfold field? at found
  match values : valuesOf key entries with
  | [] => simp [values] at member
  | [one] =>
    rw [values, List.mem_singleton] at member
    rw [values] at found
    exact member ▸ found
  | _ :: _ :: _ => simp [values] at found

theorem valuesOf_append (front back : List (Node × Node)) :
    valuesOf key (front ++ back) = valuesOf key front ++ valuesOf key back := by
  simp [valuesOf]

end Fields

theorem valuesOf_entries (key : String) (entries : List Entry) :
    valuesOf key (entries.map Entry.nodes) =
      (entries.filter fun entry => entry.name == key).map fun entry => entry.value.node := by
  have sameName (entry : Entry) :
      (text? entry.nodes.1 == some key) = (entry.name == key) := rfl
  rw [valuesOf, List.filter_map, List.map_map]
  simp only [Function.comp_def, sameName]
  rfl

/-- The values of a known key are the same in another order. -/
theorem valuesOf_entries_perm {keys : List String} {key : String} (isKnown : key ∈ keys)
    {entries other : List Entry} (perm : (known keys entries).Perm (known keys other)) :
    (valuesOf key (entries.map Entry.nodes)).Perm (valuesOf key (other.map Entry.nodes)) := by
  have among (entries : List Entry) :
      (known keys entries).filter (fun entry => entry.name == key) =
        entries.filter fun entry => entry.name == key := by
    rw [known, List.filter_filter]
    refine List.filter_congr fun entry _ => ?_
    by_cases same : entry.name = key
    · simp [same, isKnown]
    · simp [same]
  rw [valuesOf_entries, valuesOf_entries, ← among entries, ← among other]
  exact (perm.filter _).map _

/-! ### Filters -/

theorem entries?_entries (document : Document) (entries : List Entry) :
    entries? document (.mapping (entries.map Entry.nodes)) = some (entries.map Entry.nodes) :=
  entries?_mapping (List.forall_mem_map.mpr fun _ _ => rfl) (List.forall_mem_map.mpr fun _ _ => rfl)

theorem entries?_outline (document : Document) (outline : Outline) :
    entries? document (.mapping outline.nodes) = some outline.nodes := by
  refine entries?_mapping ?_ ?_ <;>
    simp only [Outline.nodes, List.forall_mem_append, List.forall_mem_map] <;>
    exact ⟨fun _ _ => rfl, fun _ _ => rfl, fun _ _ => rfl⟩

/-- A filter is read key by key. -/
theorem filter?_eq_some_iff {document : Document} {node : Node} {entries : List (Node × Node)}
    (read : entries? document node = some entries) {filter : Comparison.Filter} :
    filter? document node = some filter ↔
      field? entries "diff_only" switch? false = some filter.diffOnly ∧
        field? entries "show_unknown" switch? false = some filter.showUnknown ∧
        field? entries "show_precomputed" switch? false = some filter.showPrecomputed := by
  obtain ⟨diffOnly, showUnknown, showPrecomputed⟩ := filter
  simp only [filter?, read, Option.bind_eq_bind, Option.bind_some, Option.bind_eq_some_iff,
    Option.pure_def, Option.some.injEq, Comparison.Filter.mk.injEq]
  constructor
  · rintro ⟨_, first, _, second, _, third, rfl, rfl, rfl⟩
    exact ⟨first, second, third⟩
  · rintro ⟨first, second, third⟩
    exact ⟨_, first, _, second, _, third, rfl, rfl, rfl⟩

/-- Mappings with the same known entries are the same filter. -/
theorem filter?_of_perm {entries other : List Entry}
    (perm : (known filterKeys entries).Perm (known filterKeys other)) (document : Document) :
    filter? document (.mapping (entries.map Entry.nodes)) =
      filter? document (.mapping (other.map Entry.nodes)) := by
  have switch {key : String} (isKnown : key ∈ filterKeys) :
      field? (entries.map Entry.nodes) key switch? false =
        field? (other.map Entry.nodes) key switch? false :=
    field?_eq_of_perm ((valuesOf_entries_perm isKnown perm).map _)
  refine Option.ext fun filter => ?_
  rw [filter?_eq_some_iff (entries?_entries document entries),
    filter?_eq_some_iff (entries?_entries document other), switch (by decide), switch (by decide),
    switch (by decide)]

/-! ### Settings -/

/-- Settings are read key by key. -/
theorem ofDocument?_eq_some_iff {document : Document} {entries : List (Node × Node)}
    (read : entries? document document.root = some entries) {settings : Settings} :
    ofDocument? document = some settings ↔
      field? entries "schema" text? ({} : Settings).schema = some settings.schema ∧
        field? entries "root_struct" text? ({} : Settings).rootStruct =
          some settings.rootStruct ∧
        field? entries "root_label" text? ({} : Settings).rootLabel = some settings.rootLabel ∧
        field? entries "offset" number? ({} : Settings).offset = some settings.offset ∧
        field? entries "format" format? ({} : Settings).format = some settings.format ∧
        field? entries "filters" (filter? document) ({} : Settings).filters =
          some settings.filters := by
  obtain ⟨schema, rootStruct, rootLabel, offset, format, filters⟩ := settings
  simp only [ofDocument?, read, Option.bind_eq_bind, Option.bind_some, Option.bind_eq_some_iff,
    Option.pure_def, Option.some.injEq, Settings.mk.injEq]
  constructor
  · rintro ⟨_, first, _, second, _, third, _, fourth, _, fifth, _, sixth, rfl, rfl, rfl, rfl, rfl,
      rfl⟩
    exact ⟨first, second, third, fourth, fifth, sixth⟩
  · rintro ⟨first, second, third, fourth, fifth, sixth⟩
    exact ⟨_, first, _, second, _, third, _, fourth, _, fifth, _, sixth, rfl, rfl, rfl, rfl, rfl,
      rfl⟩

/-- The values of a key outside the section of an outline, and in the place of its section. -/
theorem valuesOf_nodes_perm (key : String) (outline : Outline) :
    (valuesOf key outline.nodes).Perm
      (valuesOf key (outline.outer.map Entry.nodes) ++
        valuesOf key (outline.nested.toList.map Section.nodes)) := by
  rw [Outline.nodes, Outline.outer, List.map_append, valuesOf_append, valuesOf_append,
    valuesOf_append, List.append_assoc]
  exact List.perm_append_comm.append_left _

theorem valuesOf_section (key : String) (inner : Section) :
    valuesOf key [inner.nodes] =
      if inner.header.name = key then [.mapping (inner.entries.map Entry.nodes)] else [] :=
  valuesOf_cons key _ none inner.name.style _ []

section Rearranged

variable {first second : Outline} (same : Rearranged first second) {α : Type}

include same

/-- A known key is read alike, if it is the key of the section only where that is read alike. -/
theorem Rearranged.field?_eq {key : String} (isKnown : key ∈ settingKeys) (read : Node → Option α)
    (default : α)
    (inner : ((valuesOf key (first.nested.toList.map Section.nodes)).map read) =
      (valuesOf key (second.nested.toList.map Section.nodes)).map read) :
    field? first.nodes key read default = field? second.nodes key read default := by
  refine field?_eq_of_perm ?_
  have outer := (valuesOf_entries_perm isKnown same.outer).map read
  have front := (valuesOf_nodes_perm key first).map read
  have back := (valuesOf_nodes_perm key second).map read
  rw [List.map_append] at front back
  rw [inner] at front
  exact front.trans ((outer.append_right _).trans back.symm)

/-- Outlines with the same known entries are the same settings. -/
theorem Rearranged.ofDocument?_eq (under : UnderFilters first) (under' : UnderFilters second) :
    ofDocument? ⟨.mapping first.nodes, []⟩ = ofDocument? ⟨.mapping second.nodes, []⟩ := by
  have noSection {outline : Outline} (under : UnderFilters outline) {key : String}
      (other : key ≠ "filters") : valuesOf key (outline.nested.toList.map Section.nodes) = [] := by
    cases nested : outline.nested with
    | none => rfl
    | some inner =>
      have name := under inner nested
      exact (valuesOf_section key inner).trans (if_neg (by rw [name]; exact other.symm))
  have plain {key : String} (isKnown : key ∈ settingKeys) (other : key ≠ "filters") {β : Type}
      (read : Node → Option β) (default : β) :
      field? first.nodes key read default = field? second.nodes key read default :=
    same.field?_eq isKnown read default (by rw [noSection under other, noSection under' other])
  -- which nodes bear a name is all that a filter is read with besides its node, and here none does
  have filters : field? first.nodes "filters" (filter? ⟨.mapping first.nodes, []⟩)
        ({} : Settings).filters =
      field? second.nodes "filters" (filter? ⟨.mapping second.nodes, []⟩)
        ({} : Settings).filters := by
    refine same.field?_eq (by decide) (filter? ⟨.mapping second.nodes, []⟩) _ ?_
    cases nested : first.nested with
    | none =>
      have none := Option.isNone_iff_eq_none.mp (by simpa [nested] using same.nested.symm)
      rw [none]
    | some one =>
      have isSome : second.nested.isSome = true := same.nested.symm.trans (by simp [nested])
      obtain ⟨other, nested'⟩ := Option.isSome_iff_exists.mp isSome
      have agree := filter?_of_perm (same.inner one nested other nested')
        ⟨.mapping second.nodes, []⟩
      rw [nested', Option.toList_some, Option.toList_some, List.map_singleton, List.map_singleton,
        valuesOf_section, valuesOf_section, if_pos (under one nested),
        if_pos (under' other nested'), List.map_singleton, List.map_singleton, agree]
  refine Option.ext fun settings => ?_
  rw [ofDocument?_eq_some_iff (entries?_outline _ first),
    ofDocument?_eq_some_iff (entries?_outline _ second), plain (by decide) (by decide),
    plain (by decide) (by decide), plain (by decide) (by decide), plain (by decide) (by decide),
    plain (by decide) (by decide), filters]

end Rearranged

/-! ### Defaults -/

theorem valuesOf_entries_of_missing {key : String} {entries : List Entry}
    (missing : key ∉ entries.map Entry.name) : valuesOf key (entries.map Entry.nodes) = [] := by
  rw [valuesOf_entries, List.map_eq_nil_iff, List.filter_eq_nil_iff]
  intro entry mem same
  exact missing (List.mem_map.mpr ⟨entry, mem, beq_iff_eq.mp same⟩)

theorem valuesOf_nodes_of_missing {key : String} {outline : Outline}
    (missing : key ∉ outline.names) : valuesOf key outline.nodes = [] := by
  simp only [Outline.names, List.mem_append, not_or] at missing
  obtain ⟨outer, inner⟩ := missing
  have noSection : valuesOf key (outline.nested.toList.map Section.nodes) = [] := by
    cases nested : outline.nested with
    | none => rfl
    | some section' =>
      rw [nested] at inner
      exact (valuesOf_section key section').trans (if_neg fun same => inner (by simp [same]))
  have perm := valuesOf_nodes_perm key outline
  rw [valuesOf_entries_of_missing outer, noSection] at perm
  exact perm.eq_nil

/-- What is read has the default for each key that is missing. -/
theorem hasDefaults_of_ofDocument? {outline : Outline} (under : UnderFilters outline)
    {settings : Settings} (read : ofDocument? ⟨.mapping outline.nodes, []⟩ = some settings) :
    HasDefaults outline settings := by
  let document : Document := ⟨.mapping outline.nodes, []⟩
  obtain ⟨schema, rootStruct, rootLabel, offset, format, filters⟩ :=
    (ofDocument?_eq_some_iff (entries?_outline document outline)).mp read
  have missing {key : String} (none : key ∉ outline.names) {α : Type} {read : Node → Option α}
      {default value : α} (found : field? outline.nodes key read default = some value) :
      value = default := by
    rw [field?_of_missing (valuesOf_nodes_of_missing none)] at found
    exact (Option.some.inj found).symm
  have inside {inner : Section} (nested : inner ∈ outline.nested) :
      filter? document (.mapping (inner.entries.map Entry.nodes)) = some settings.filters := by
    refine read_of_field? ?_ filters
    refine (valuesOf_nodes_perm "filters" outline).mem_iff.mpr (List.mem_append_right _ ?_)
    rw [Option.mem_def.mp nested, Option.toList_some, List.map_singleton, valuesOf_section,
      if_pos (under inner nested)]
    exact List.mem_singleton_self _
  have missingInside {key : String} {inner : Section} (none : key ∉ inner.names) {value : Bool}
      (found : field? (inner.entries.map Entry.nodes) key switch? false = some value) :
      value = false := by
    rw [field?_of_missing (valuesOf_entries_of_missing none)] at found
    exact (Option.some.inj found).symm
  have switches {inner : Section} (nested : inner ∈ outline.nested) :=
    (filter?_eq_some_iff (entries?_entries document inner.entries)).mp (inside nested)
  exact
    { schema := fun none => missing none schema
      rootStruct := fun none => missing none rootStruct
      rootLabel := fun none => missing none rootLabel
      offset := fun none => missing none offset
      format := fun none => missing none format
      filters := fun none => missing none filters
      diffOnly := fun _ nested none => missingInside none (switches nested).1
      showUnknown := fun _ nested none => missingInside none (switches nested).2.1
      showPrecomputed := fun _ nested none => missingInside none (switches nested).2.2 }

/-! ### Texts -/

/-- What a text holds is decided by the outline of its lines. -/
theorem ofText_of_lines {outline : Outline} (admitted : outline.Of Entry.Admitted)
    {text : List Char} (lines : Text.lines text = outline.lines) :
    ofText text =
      (ofDocument? ⟨.mapping outline.nodes, []⟩).elim (.error .badSettings) validated := by
  have inked : Text.isAllBlank text = false := by
    obtain ⟨line, inside⟩ := List.exists_mem_of_ne_nil _ admitted.some?
    have colon := Outline.colon_of_mem_lines inside
    rw [← lines] at inside
    exact Text.isAllBlank_eq_false ⟨':', (Text.mem_of_mem_lines inside colon).1, by decide⟩
  rw [ofText, if_neg (by simp [inked]), Outline.readDocument_of_lines admitted lines,
    Option.bind_some]
  cases ofDocument? ⟨.mapping outline.nodes, []⟩ <;> rfl

theorem eq_of_validated {settings valid : Settings} (accepted : settings.validated = .ok valid) :
    settings = valid := by
  unfold validated at accepted
  split at accepted
  · cases accepted
  · exact Except.ok.inj accepted

/-! ### Words -/

/-- An entry whose key is a word may be written on one line if its value may. -/
theorem onLine_word {key : List Char} (isKey : IsWord key) {value : Scalar}
    (isValue : value = .nothing ∨ value.OnLine) (settled : ∀ c ∈ value.written, isSettled c = true)
    (column : Nat) : Entry.OnLine column ⟨.word key, value⟩ := by
  have settledKey : ∀ c ∈ key, isSettled c = true :=
    fun c mem => (KeyChar.of_isKeyChar (isKey.plain c mem)).settled
  refine ⟨.plain (isPlain_of_word isKey), isValue, ?_,
    Entry.settled_line settledKey settled column⟩
  -- a line starts with a blank or with a letter, a digit or an underscore
  obtain ⟨c, rest, shape, noDash, noDot⟩ : ∃ c rest,
      Entry.line column ⟨.word key, value⟩ = c :: rest ∧ c ≠ '-' ∧ c ≠ '.' := by
    cases column with
    | zero =>
      obtain ⟨c, more, rfl⟩ := List.exists_cons_of_ne_nil isKey.nonempty
      have keyChar := KeyChar.of_isKeyChar (isKey.plain c List.mem_cons_self)
      exact ⟨c, _, rfl, keyChar.noDash, keyChar.noDot⟩
    | succ column => exact ⟨' ', _, rfl, by decide, by decide⟩
  rw [shape, marksDocument, startsMark_of_ne noDash, startsMark_of_ne noDot, Bool.or_false]

theorem admitted_word {key : List Char} (isKey : IsKey key) {value : Scalar}
    (isValue : value = .nothing ∨ value.OnLine) (settled : ∀ c ∈ value.written, isSettled c = true)
    (column : Nat) : Entry.Admitted column ⟨.word key, value⟩ :=
  ⟨onLine_word isKey.toIsWord isValue settled column, isKey.short⟩

theorem admitted_wordLine {key : String} (isKey : IsKey key.toList) {word : List Char}
    (isWord : IsWord word) (column : Nat) : (wordLine key word).Admitted column :=
  admitted_word isKey (.inr (.plain (isPlain_of_word isWord)))
    (fun c mem => (KeyChar.of_isKeyChar (isWord.plain c mem)).settled) column

theorem admitted_header {name : List Char} (isKey : IsKey name) (column : Nat) :
    Entry.Admitted column ⟨.word name, .nothing⟩ :=
  admitted_word isKey (.inl rfl) (List.forall_mem_nil _) column

/-! ### Order and unknown keys -/

/-- Settings whose texts hold the same known entries, in any order and among any others, are the
same; each key that is missing has its default. -/
theorem ofText_rearranged {first second : Outline} (admittedFirst : first.Of Entry.Admitted)
    (admittedSecond : second.Of Entry.Admitted) (underFirst : UnderFilters first)
    (underSecond : UnderFilters second) (same : Rearranged first second) {text other : List Char}
    (linesFirst : Text.lines text = first.lines) (linesSecond : Text.lines other = second.lines) :
    ofText text = ofText other ∧
      ∀ settings, ofText text = .ok settings →
        HasDefaults first settings ∧ HasDefaults second settings := by
  have readFirst := ofText_of_lines admittedFirst linesFirst
  have readSecond := ofText_of_lines admittedSecond linesSecond
  have equal := same.ofDocument?_eq underFirst underSecond
  refine ⟨by rw [readFirst, readSecond, equal], fun settings accepted => ?_⟩
  have found : ofDocument? ⟨.mapping first.nodes, []⟩ = some settings := by
    rw [readFirst] at accepted
    cases whole : ofDocument? ⟨.mapping first.nodes, []⟩ with
    | none =>
      rw [whole] at accepted
      cases accepted
    | some kept =>
      rw [whole] at accepted
      rw [eq_of_validated accepted]
  exact ⟨hasDefaults_of_ofDocument? underFirst found,
    hasDefaults_of_ofDocument? underSecond (equal ▸ found)⟩

/-- Two settings and two filters. -/
def ordered : Outline where
  column := 0
  front := [wordLine "schema" "a".toList, wordLine "offset" "0x10".toList]
  nested := some ⟨.word "filters".toList, 2,
    [wordLine "diff_only" "true".toList, wordLine "show_unknown" "FALSE".toList]⟩
  back := []

/-- The same settings and filters in another order, among keys that look like known ones or are
known in the other mapping. -/
def scrambled : Outline where
  column := 1
  front := []
  nested := some ⟨.word "filters".toList, 3,
    [⟨.word "schema".toList, ⟨"\"b: \\t\"".toList, .double, "b: \t".toList⟩⟩,
      wordLine "show_unknown" "FALSE".toList, wordLine "diff_only" "true".toList]⟩
  back := [wordLine "diff_only" "maybe".toList, wordLine "offset" "0x10".toList,
    ⟨.word "schem".toList, .nothing⟩,
    ⟨⟨"'schema '".toList, .single, "schema ".toList⟩, .word "b".toList⟩,
    wordLine "schema" "a".toList]

theorem admitted_ordered : ordered.Of Entry.Admitted where
  some? := List.cons_ne_nil _ _
  front := by
    simp only [ordered, List.forall_mem_cons]
    exact ⟨admitted_wordLine (by decide) (by decide) 0, admitted_wordLine (by decide) (by decide) 0,
      List.forall_mem_nil _⟩
  nested := by
    rintro _ ⟨⟩
    refine ⟨admitted_header (by decide) 0, by decide, List.cons_ne_nil _ _, ?_⟩
    simp only [List.forall_mem_cons]
    exact ⟨admitted_wordLine (by decide) (by decide) 2, admitted_wordLine (by decide) (by decide) 2,
      List.forall_mem_nil _⟩
  back := List.forall_mem_nil _

theorem admitted_scrambled : scrambled.Of Entry.Admitted where
  some? := List.cons_ne_nil _ _
  front := List.forall_mem_nil _
  nested := by
    have quoted : DoubleQuoted "b: \\t".toList "b: \t".toList :=
      .itself rfl (by decide) (by decide) (.itself rfl (by decide) (by decide)
        (.itself rfl (by decide) (by decide) (.letter rfl .nil)))
    rintro _ ⟨⟩
    refine ⟨admitted_header (by decide) 1, by decide, List.cons_ne_nil _ _, ?_⟩
    simp only [List.forall_mem_cons]
    exact ⟨admitted_word (by decide) (.inr (.double quoted)) (List.all_eq_true.mp (by decide)) 3,
      admitted_wordLine (by decide) (by decide) 3, admitted_wordLine (by decide) (by decide) 3,
      List.forall_mem_nil _⟩
  back := by
    have single : Scalar.OnLine ⟨"'schema '".toList, .single, "schema ".toList⟩ :=
      @Scalar.OnLine.single "schema ".toList (by simp [isBreak])
    simp only [scrambled, List.forall_mem_cons]
    exact ⟨admitted_wordLine (by decide) (by decide) 1, admitted_wordLine (by decide) (by decide) 1,
      admitted_header (by decide) 1,
      ⟨⟨single, .inr (.plain (by decide)), by decide, List.all_eq_true.mp (by decide)⟩,
        by decide⟩,
      admitted_wordLine (by decide) (by decide) 1, List.forall_mem_nil _⟩

/-- The lines of one text end in a line feed, those of the other in a return and a line feed. -/
theorem ofText_rearranged_scrambled :
    Rearranged ordered scrambled ∧
      ofText ordered.text =
        .ok { schema := "a", offset := 16, filters := ⟨true, false, false⟩ } ∧
      ofText ordered.text = ofText (Text.joinWith ['\r', '\n'] scrambled.lines) ∧
      ∀ settings, ofText ordered.text = .ok settings →
        HasDefaults ordered settings ∧ HasDefaults scrambled settings := by
  have under : UnderFilters ordered := by
    rintro _ ⟨⟩
    decide
  have under' : UnderFilters scrambled := by
    rintro _ ⟨⟩
    decide
  have same : Rearranged ordered scrambled := by
    refine ⟨by decide, rfl, ?_⟩
    rintro _ ⟨⟩ _ ⟨⟩
    decide
  exact ⟨same, by decide +kernel, ofText_rearranged admitted_ordered admitted_scrambled under under'
    same (by decide) (by decide)⟩

/-- An unknown key that is one octet too long. -/
def longKey : Entry :=
  ⟨.word (List.replicate (Lexer.maxKeyLength + 1) 'k'), .word ['1']⟩

theorem onLine_longKey : longKey.OnLine 0 := by
  have isWord : IsWord (List.replicate (Lexer.maxKeyLength + 1) 'k') := by
    refine ⟨List.ne_nil_of_length_pos (by simp), fun c mem => ?_⟩
    rw [List.eq_of_mem_replicate mem]
    decide
  exact onLine_word isWord (.inr (.plain (by decide))) (List.all_eq_true.mp (by decide)) 0

/-- One setting, and further entries behind it. -/
def schemaThen (back : List Entry) : Outline :=
  ⟨0, [wordLine "schema" "a".toList], none, back⟩

section SchemaThen

variable {back : List Entry}

theorem onLine_schemaThen (onLine : ∀ entry ∈ back, entry.OnLine 0) :
    (schemaThen back).Of Entry.OnLine where
  some? := List.cons_ne_nil _ _
  front := List.forall_mem_singleton.mpr (admitted_wordLine (by decide) (by decide) 0).toOnLine
  nested _ mem := nomatch mem
  back := onLine

theorem underFilters_schemaThen : UnderFilters (schemaThen back) :=
  fun _ mem => nomatch mem

theorem rearranged_schemaThen (unknown : known settingKeys back = []) :
    Rearranged (schemaThen []) (schemaThen back) where
  outer := by
    have split : (schemaThen back).outer = (schemaThen []).outer ++ back := rfl
    rw [split, known, known, List.filter_append, ← known, ← known, unknown, List.append_nil]
  nested := rfl
  inner _ mem := nomatch mem

end SchemaThen

/-- A key that means nothing is not passed over if it is too long to be a key. -/
theorem ofText_longKey :
    (schemaThen []).Of Entry.OnLine ∧ (schemaThen [longKey]).Of Entry.OnLine ∧
      UnderFilters (schemaThen []) ∧ UnderFilters (schemaThen [longKey]) ∧
      Rearranged (schemaThen []) (schemaThen [longKey]) ∧
      ofText (schemaThen []).text = .ok { schema := "a" } ∧
      ofText (schemaThen [longKey]).text = .error .badSettings :=
  ⟨onLine_schemaThen (List.forall_mem_nil _),
    onLine_schemaThen (List.forall_mem_singleton.mpr onLine_longKey), underFilters_schemaThen,
    underFilters_schemaThen, rearranged_schemaThen (by decide +kernel), by decide +kernel,
    by decide +kernel⟩

end Settings

end RecordDiff
