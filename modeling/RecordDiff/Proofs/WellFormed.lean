import Mathlib.Data.List.TakeWhile
import RecordDiff.Proofs.LogicalLines
import RecordDiff.Proofs.Nesting

/-!
What every schema that can be read looks like. Its names are cut from declarations, and so there is
text in them, no blank at their ends and none of the marks that end a declaration; its counts are
positive, and nested kinds are qualified. Main statements:

- `exists_of_templateForm?`, `arrayText_of_arrayForm?`, `exists_of_scalarForm?`: what a declaration of
  each of the three forms is made of;
- `IsTidy.of_structName?`, `IsTidy.of_draft`: the names in a tidy declaration are tidy;
- `exists_opens_of_mem_structs`: every struct of a schema is named after one or two lines that open
  structs;
- `wellFormed_of_ofString`: all of this holds for every schema that is read.
-/

namespace RecordDiff.Schema

open Text (isBlank trim trimStart)

/-- A field as reading gives it: a tidy name, elements, a nested kind only under a qualified name, and
nothing or a comment. -/
structure Field.WellFormed (field : Field) : Prop where
  name : IsTidy field.name.toList
  positive : 0 < field.count
  qualified : ∀ struct, field.kind = .nested struct → separator.toList <:+: struct.toList
  comment : IsComment field.comment.toList

/-- A registry as reading gives it: it is not empty, each name finds the struct that bears it, and all
names and fields are as they should be. -/
structure Registry.WellFormed (registry : Registry) : Prop where
  defined : registry.structs ≠ []
  keyed : ∀ name struct,
    registry.get? name = some struct ↔ struct ∈ registry.structs ∧ struct.name = name
  names : ∀ struct ∈ registry.structs, IsTidy struct.name.toList
  fields : ∀ struct ∈ registry.structs, ∀ field ∈ struct.fields, field.WellFormed

/-! ### Parts of a declaration -/

section Names

variable {text rest name front bare : List Char} {inner : Char → Bool} {mark : Char}
  {draft : Draft}

theorem nameBy?_eq_some (found : nameBy? inner text = some (name, rest)) :
    text = name ++ rest ∧ Text.isName inner name = true := by
  cases text with
  | nil => cases found
  | cons c text =>
    rw [nameBy?] at found
    split at found
    · rename_i start
      obtain ⟨rfl, rfl⟩ := Prod.mk.inj (Option.some.inj found)
      refine ⟨by simp [List.takeWhile_append_dropWhile], ?_⟩
      rw [Text.isName, start, Bool.true_and, List.all_eq_true]
      exact fun d member => List.mem_takeWhile_imp member
    · cases found

/-- What follows a mark stands behind it, and blanks in front of it. -/
theorem afterMark?_eq_some (found : afterMark? mark text = some rest) :
    ∃ gap, Text.isAllBlank gap = true ∧ text = gap ++ mark :: rest := by
  obtain ⟨gap, blank, whole⟩ := Text.exists_append_trimStart text
  unfold afterMark? at found
  split at found
  · cases found
  · rename_i c more start
    split at found
    · rename_i same
      obtain rfl := Option.some.inj found
      rw [start, same] at whole
      exact ⟨gap, blank, whole.symm⟩
    · cases found

/-- A text is cut where the mark stands first. -/
theorem cutAt?_eq_some (found : cutAt? mark text = some (front, rest)) :
    mark ∉ front ∧ text = front ++ mark :: rest := by
  induction text generalizing front with
  | nil => cases found
  | cons c text ih =>
    rw [cutAt?] at found
    split at found
    · rename_i same
      obtain ⟨rfl, rfl⟩ := Prod.mk.inj (Option.some.inj found)
      exact ⟨List.not_mem_nil, congrArg (· :: text) same⟩
    · rename_i other
      obtain ⟨⟨before, behind⟩, later, same⟩ := Option.map_eq_some_iff.1 found
      obtain ⟨rfl, rfl⟩ := Prod.mk.inj same
      obtain ⟨absent, rfl⟩ := ih later
      exact ⟨by simp [absent, Ne.symm other], rfl⟩

/-- Behind blanks, of which there are some, stands the rest of the text from where it is inked. -/
theorem exists_gap_of_afterBlanks? (found : afterBlanks? text = some rest) :
    ∃ gap, gap ≠ [] ∧ Text.isAllBlank gap = true ∧ text = gap ++ rest := by
  cases text with
  | nil => cases found
  | cons c text =>
    rw [afterBlanks?] at found
    split at found
    · rename_i blank
      obtain rfl := Option.some.inj found
      obtain ⟨gap, blanks, whole⟩ := Text.exists_append_trimStart text
      refine ⟨c :: gap, List.cons_ne_nil c gap, ?_, congrArg (c :: ·) whole.symm⟩
      rw [Text.isAllBlank, List.all_cons, blank, Bool.true_and]
      exact blanks
    · cases found

theorem afterBlanks?_eq_some (found : afterBlanks? text = some rest) :
    rest <:+ text ∧ ∀ c ∈ rest.head?, isBlank c = false := by
  constructor
  · obtain ⟨gap, -, -, rfl⟩ := exists_gap_of_afterBlanks? found
    exact List.suffix_append gap rest
  · unfold afterBlanks? at found
    split at found
    · cases found
    · split at found
      · obtain rfl := Option.some.inj found
        exact fun c first => Text.isBlank_of_head?_trimStart first
      · cases found

theorem nonEmpty?_eq_some (found : nonEmpty? text = some rest) : rest = text ∧ text ≠ [] := by
  cases text with
  | nil => cases found
  | cons c text => exact ⟨(Option.some.inj found).symm, List.cons_ne_nil c text⟩

theorem restName?_eq_some (found : restName? text = some rest) : rest = text ∧ text ≠ [] := by
  unfold restName? at found
  split at found
  · cases found
  · exact nonEmpty?_eq_some found

/-! ### The three forms -/

/-- A declaration with angle brackets: what stands behind them is the name. -/
theorem exists_of_templateForm? (found : templateForm? text = some draft) :
    ∃ outer gap gapElem elem gapComma count gapName,
      Text.isTypeName outer = true ∧ Text.isAllBlank gap = true ∧
        Text.isAllBlank gapElem = true ∧ Text.isTypeName elem = true ∧
        Text.isAllBlank gapComma = true ∧ Text.isAllBlank gapName = true ∧
        draft.count = some (trim count) ∧ draft.name ≠ [] ∧
        (∀ c ∈ draft.name.head?, isBlank c = false) ∧
        text = outer ++ (gap ++ '<' :: (gapElem ++ (elem ++ (gapComma ++ ',' ::
          (count ++ '>' :: (gapName ++ draft.name)))))) := by
  simp only [templateForm?, Option.bind_eq_bind, Option.bind_eq_some_iff, Prod.exists,
    Option.pure_def, Option.some.injEq] at found
  obtain ⟨outer, afterOuter, isOuter, inside, opened, elem, afterElem, isElem, behindComma, comma,
    count, behind, closed, name, named, rfl⟩ := found
  obtain ⟨rfl, inked⟩ := restName?_eq_some named
  obtain ⟨rfl, shapedOuter⟩ := nameBy?_eq_some isOuter
  obtain ⟨gap, blank, rfl⟩ := afterMark?_eq_some opened
  obtain ⟨gapElem, blankElem, wholeInside⟩ := Text.exists_append_trimStart inside
  obtain ⟨wholeElem, shapedElem⟩ := nameBy?_eq_some isElem
  obtain ⟨gapComma, blankComma, rfl⟩ := afterMark?_eq_some comma
  obtain ⟨-, rfl⟩ := cutAt?_eq_some closed
  obtain ⟨gapName, blankName, wholeName⟩ := Text.exists_append_trimStart behind
  refine ⟨outer, gap, gapElem, elem, gapComma, count, gapName, shapedOuter, blank, blankElem,
    shapedElem, blankComma, blankName, rfl, inked, ?_, ?_⟩
  · exact fun c first => Text.isBlank_of_head?_trimStart first
  · rw [wholeName, ← wholeElem, wholeInside]

/-- `ArrayText text token name digits`: the text declares an array. It is a type, a plain name and
brackets around the text of a count, with blanks behind the type and none but blanks between the name
and the brackets; there are no closing brackets but that at the end. -/
def ArrayText (text token name digits : List Char) : Prop :=
  Text.isTypeName token = true ∧ Text.isPlainName name = true ∧
    ∃ gap gapBehind count, gap ≠ [] ∧ Text.isAllBlank gap = true ∧
      Text.isAllBlank gapBehind = true ∧ ']' ∉ count ∧ digits = trim count ∧
      text = token ++ (gap ++ (name ++ (gapBehind ++ '[' :: (count ++ [']']))))

theorem arrayText_of_arrayForm? (found : arrayForm? text = some draft) :
    ∃ digits, ArrayText text draft.token draft.name digits := by
  simp only [arrayForm?, Option.bind_eq_bind, Option.bind_eq_some_iff, Prod.exists] at found
  obtain ⟨token, afterToken, isToken, afterGap, blanks, name, afterName, isName, inside, opened,
    count, behind, closed, ended⟩ := found
  split at ended
  · rename_i nothing
    obtain rfl := Option.some.inj ended
    obtain rfl := List.isEmpty_iff.1 nothing
    obtain ⟨rfl, shapedToken⟩ := nameBy?_eq_some isToken
    obtain ⟨gap, parted, blank, rfl⟩ := exists_gap_of_afterBlanks? blanks
    obtain ⟨rfl, shaped⟩ := nameBy?_eq_some isName
    obtain ⟨gapBehind, blankBehind, rfl⟩ := afterMark?_eq_some opened
    obtain ⟨unclosed, rfl⟩ := cutAt?_eq_some closed
    exact ⟨trim count, shapedToken, shaped, gap, gapBehind, count, parted, blank, blankBehind,
      unclosed, rfl, rfl⟩
  · cases ended

/-- Behind a type there is nothing but the name. -/
theorem exists_of_scalarForm? (found : scalarForm? text = some draft) :
    ∃ token gap, Text.isTypeName token = true ∧ Text.isAllBlank gap = true ∧ draft.name ≠ [] ∧
      (∀ c ∈ draft.name.head?, isBlank c = false) ∧ text = token ++ (gap ++ draft.name) := by
  simp only [scalarForm?, Option.bind_eq_bind, Option.bind_eq_some_iff, Prod.exists,
    Option.pure_def, Option.some.injEq] at found
  obtain ⟨token, afterToken, isToken, afterGap, blanks, name, named, rfl⟩ := found
  obtain ⟨rfl, inked⟩ := restName?_eq_some named
  obtain ⟨rfl, shapedToken⟩ := nameBy?_eq_some isToken
  obtain ⟨gap, -, blank, rfl⟩ := exists_gap_of_afterBlanks? blanks
  exact ⟨token, gap, shapedToken, blank, inked, (afterBlanks?_eq_some blanks).2, rfl⟩

/-! ### Tidy names -/

/-- A plain name is inked at both ends. -/
theorem IsTidy.of_isPlainName (plain : Text.isPlainName name = true) (inside : name <:+: text)
    (unmarked : Unmarked text) : IsTidy name where
  inked := by
    rintro rfl
    cases plain
  front _ first := Text.isBlank_of_isWord (Text.isWord_of_mem plain (List.mem_of_head? first))
  back _ last := Text.isBlank_of_isWord (Text.isWord_of_mem plain (List.mem_of_getLast? last))
  unmarked := unmarked.of_isInfix inside

theorem IsTidy.of_structName? (tidy : IsTidy text) (opens : structName? text = some bare) :
    IsTidy bare := by
  unfold structName? at opens
  split at opens
  · obtain ⟨rest, blanks, named⟩ := Option.bind_eq_some_iff.1 opens
    obtain ⟨behind, -⟩ := afterBlanks?_eq_some blanks
    obtain ⟨rfl, inked⟩ := nonEmpty?_eq_some named
    have inside : rest <:+: text := (behind.trans (List.drop_suffix _ text)).isInfix
    exact .of_trim (tidy.unmarked.of_isInfix inside) inked
  · cases opens

theorem IsTidy.of_templateForm? (tidy : IsTidy text) (found : templateForm? text = some draft) :
    IsTidy draft.name := by
  obtain ⟨outer, gap, gapElem, elem, gapComma, count, gapName, -, -, -, -, -, -, -, inked, front,
    rfl⟩ := exists_of_templateForm? found
  refine tidy.of_suffix ?_ inked front
  exact ⟨outer ++ (gap ++ '<' :: (gapElem ++ (elem ++ (gapComma ++ ',' ::
    (count ++ '>' :: gapName))))), by simp⟩

theorem IsTidy.of_arrayForm? (tidy : IsTidy text) (found : arrayForm? text = some draft) :
    IsTidy draft.name := by
  obtain ⟨digits, -, plain, gap, gapBehind, count, -, -, -, -, -, rfl⟩ :=
    arrayText_of_arrayForm? found
  refine .of_isPlainName plain ?_ tidy.unmarked
  exact ⟨draft.token ++ gap, gapBehind ++ '[' :: (count ++ [']']), by simp⟩

theorem IsTidy.of_scalarForm? (tidy : IsTidy text) (found : scalarForm? text = some draft) :
    IsTidy draft.name := by
  obtain ⟨token, gap, -, -, inked, front, rfl⟩ := exists_of_scalarForm? found
  refine tidy.of_suffix ?_ inked front
  exact ⟨token ++ gap, List.append_assoc token gap draft.name⟩

/-- Whichever form a tidy declaration has, the name in it is tidy. -/
theorem IsTidy.of_draft (tidy : IsTidy text) (found : Draft.ofText? text = some draft) :
    IsTidy draft.name := by
  simp only [Draft.ofText?, Option.or_eq_some_iff] at found
  rcases found with template | ⟨-, array | ⟨-, scalar⟩⟩
  · exact tidy.of_templateForm? template
  · exact tidy.of_arrayForm? array
  · exact tidy.of_scalarForm? scalar

theorem IsTidy.of_readDeclaration {line count : Nat} {token declared : String} (tidy : IsTidy text)
    (read : readDeclaration line text = .ok (token, declared, count)) :
    IsTidy declared.toList := by
  obtain ⟨draft, found, -, -, rfl⟩ := readDeclaration_eq_ok_iff.1 read
  rw [String.toList_ofList]
  exact tidy.of_draft found

/-- A name behind another with a separator between them is tidy. -/
theorem IsTidy.qualified {enclosing nested : String} (tidyEnclosing : IsTidy enclosing.toList)
    (tidyNested : IsTidy nested.toList) : IsTidy (enclosing ++ separator ++ nested).toList := by
  have whole : (enclosing ++ separator ++ nested).toList =
      enclosing.toList ++ ':' :: ':' :: nested.toList := by simp [separator]
  obtain ⟨semicolon, opening, closing⟩ := tidyEnclosing.unmarked.uncut
  obtain ⟨semicolonNested, openingNested, closingNested⟩ := tidyNested.unmarked.uncut
  rw [whole]
  refine ⟨by simp, ?_, ?_, ?_, ?_, ?_⟩
  · rw [List.head?_append_of_ne_nil _ tidyEnclosing.inked]
    exact tidyEnclosing.front
  · have parts : enclosing.toList ++ ':' :: ':' :: nested.toList =
        (enclosing.toList ++ [':', ':']) ++ nested.toList := by simp
    rw [parts, List.getLast?_append_of_ne_nil _ tidyNested.inked]
    exact tidyNested.back
  · simp [tidyEnclosing.unmarked.noFeed, tidyNested.unmarked.noFeed]
  · simp [semicolon, opening, closing, semicolonNested, openingNested, closingNested]
  · have colon : ':' ≠ '/' := by decide
    have behind : ¬['/', '/'] <:+: [] ++ ':' :: nested.toList :=
      noSlashes_append colon (by simp) tidyNested.unmarked.noSlashes
    exact noSlashes_append colon tidyEnclosing.unmarked.noSlashes behind

end Names

/-! ### Names of structs -/

section Structs

variable {lines : List LogicalLine} {body other : Body} {declared : DeclaredStruct}
  {around : List String} {name : String} {struct : Struct}

/-- Some line opens a struct of this bare name. -/
def OpensOn (lines : List LogicalLine) (name : String) : Prop :=
  ∃ line ∈ lines, ∃ text comment bare, line.piece = .declaration text comment ∧
    structName? text = some bare ∧ name = String.ofList bare

/-- The bare names of all structs that a body declares, at any depth. -/
def Body.names : Body → List String
  | done => []
  | member _ rest => rest.names
  | inner bare inside rest => bare :: (inside.names ++ rest.names)

theorem OpensOn.cons {line : LogicalLine} (opens : OpensOn lines name) :
    OpensOn (line :: lines) name := by
  obtain ⟨found, member, shape⟩ := opens
  exact ⟨found, List.mem_cons_of_mem line member, shape⟩

theorem Body.names_append (body other : Body) :
    (body.append other).names = body.names ++ other.names := by
  induction body with
  | done => rfl
  | member field rest ih => exact ih
  | inner bare inside rest _ ih => simp [append, names, ih]

/-- A struct that a body declares bears one of its names, and stands in structs that do so too. -/
theorem Body.mem_names_of_mem_allStructs (member : declared ∈ body.allStructs around) :
    declared.bare ∈ body.names ∧ ∀ name ∈ declared.around, name ∈ body.names ∨ name ∈ around := by
  induction body generalizing around with
  | done => cases member
  | member field rest ih => exact ih member
  | inner bare inside rest ihInside ihRest =>
    rw [names]
    rcases List.mem_append.1 member with deeper | here
    · obtain ⟨named, outside⟩ := ihInside deeper
      refine ⟨List.mem_cons_of_mem _ (List.mem_append_left _ named), fun name found => ?_⟩
      rcases outside name found with within | enclosing
      · exact .inl (List.mem_cons_of_mem _ (List.mem_append_left _ within))
      · rcases List.mem_cons.1 enclosing with rfl | further
        · exact .inl List.mem_cons_self
        · exact .inr further
    · rcases List.mem_cons.1 here with rfl | later
      · exact ⟨List.mem_cons_self, fun name found => .inr found⟩
      · obtain ⟨named, outside⟩ := ihRest later
        refine ⟨List.mem_cons_of_mem _ (List.mem_append_right _ named), fun name found => ?_⟩
        exact (outside name found).imp
          (fun within => List.mem_cons_of_mem _ (List.mem_append_right _ within)) id

/-- Where there is no further body, nothing more is declared. -/
theorem exists_mem_names_of_headD {levels : List Body}
    (named : name ∈ (levels.headD .done).names) : ∃ body ∈ levels, name ∈ body.names := by
  cases levels with
  | nil => cases named
  | cons first rest => exact ⟨first, List.mem_cons_self, named⟩

/-- The structs that lines declare are opened on them. -/
theorem opensOn_of_mem_bodies (member : body ∈ bodies lines) (named : name ∈ body.names) :
    OpensOn lines name := by
  induction lines generalizing body with
  | nil => cases member
  | cons line rest ih =>
    have tails : (bodies rest).tail ⊆ bodies rest := fun _ => List.mem_of_mem_tail
    rw [bodies] at member
    cases piece : line.piece with
    | opening =>
      rw [piece] at member
      exact (ih member named).cons
    | closing =>
      rw [piece] at member
      rcases List.mem_cons.1 member with rfl | later
      · cases named
      · exact (ih later named).cons
    | declaration text comment =>
      rw [piece] at member
      dsimp only at member
      cases opens : structName? text with
      | some bare =>
        rw [opens] at member
        rcases List.mem_cons.1 member with rfl | later
        · rw [Body.names, List.mem_cons, List.mem_append] at named
          rcases named with rfl | inside | behind
          · exact ⟨line, List.mem_cons_self, text, comment, bare, piece, opens, rfl⟩
          · obtain ⟨first, found, within⟩ := exists_mem_names_of_headD inside
            exact (ih found within).cons
          · obtain ⟨next, found, within⟩ := exists_mem_names_of_headD behind
            exact (ih (tails found) within).cons
        · exact (ih (tails (List.mem_of_mem_tail later)) named).cons
      | none =>
        rw [opens] at member
        dsimp only at member
        split at member
        · exact (ih member named).cons
        · rcases List.mem_cons.1 member with rfl | later
          · obtain ⟨first, found, within⟩ := exists_mem_names_of_headD named
            exact (ih found within).cons
          · exact (ih (tails later) named).cons

theorem exists_mem_names_of_foldr {levels : List Body}
    (named : name ∈ (levels.foldr Body.append .done).names) : ∃ body ∈ levels, name ∈ body.names := by
  induction levels with
  | nil => cases named
  | cons first rest ih =>
    rw [List.foldr_cons, Body.names_append] at named
    rcases List.mem_append.1 named with here | later
    · exact ⟨first, List.mem_cons_self, here⟩
    · obtain ⟨body, member, found⟩ := ih later
      exact ⟨body, List.mem_cons_of_mem first member, found⟩

theorem opensOn_of_mem_outermost (named : name ∈ (outermost lines).names) : OpensOn lines name := by
  obtain ⟨body, member, found⟩ := exists_mem_names_of_foldr named
  exact opensOn_of_mem_bodies member found

theorem Registry.mem_structs_foldl_insert {registry : Registry} {structs : List Struct}
    (member : struct ∈ (structs.foldl Registry.insert registry).structs) :
    struct ∈ structs ∨ struct ∈ registry.structs := by
  induction structs generalizing registry with
  | nil => exact .inr member
  | cons first rest ih =>
    rcases ih member with later | before
    · exact .inl (List.mem_cons_of_mem first later)
    · rcases mem_insertByName before with rfl | earlier
      · exact .inl List.mem_cons_self
      · exact .inr earlier

/-- Every struct of a schema bears a name that a line opens it with, or such a name behind that of
another line. -/
theorem exists_opens_of_mem_structs {source : String} {registry : Registry}
    (read : Registry.ofString source = .ok registry) (member : struct ∈ registry.structs) :
    ∃ bare, OpensOn (LogicalLine.ofText source.toList) bare ∧
      (struct.name = bare ∨ ∃ enclosing, OpensOn (LogicalLine.ofText source.toList) enclosing ∧
        struct.name = enclosing ++ separator ++ bare) := by
  rw [Registry.eq_enter_of_ofString read] at member
  rcases Registry.mem_structs_foldl_insert member with entered | before
  · obtain ⟨declared, found, rfl⟩ := List.mem_map.1 entered
    obtain ⟨named, outside⟩ := Body.mem_names_of_mem_allStructs found
    refine ⟨declared.bare, opensOn_of_mem_outermost named, ?_⟩
    cases around : declared.around with
    | nil => exact .inl (by rw [DeclaredStruct.struct, DeclaredStruct.name, around])
    | cons enclosing further =>
      refine .inr ⟨enclosing, ?_, by rw [DeclaredStruct.struct, DeclaredStruct.name, around]⟩
      rcases outside enclosing (around ▸ List.mem_cons_self) with within | nowhere
      · exact opensOn_of_mem_outermost within
      · cases nowhere
  · cases before

theorem OpensOn.isTidy {source : List Char} (opens : OpensOn (LogicalLine.ofText source) name) :
    IsTidy name.toList := by
  obtain ⟨line, member, text, comment, bare, piece, opens, rfl⟩ := opens
  rw [String.toList_ofList]
  exact (isTidy_of_mem_ofText member piece).1.of_structName? opens

end Structs

/-! ### Schemas -/

section Schemas

variable {source : String} {registry : Registry}

theorem ofToken?_ne_nested (token name : String) : Kind.ofToken? token ≠ some (.nested name) := by
  intro found
  unfold Kind.ofToken? at found
  split at found
  · cases found
  · split at found
    · cases found
    · split at found
      · cases found
      · cases found

theorem qualify_eq_nested {enclosing token name : String}
    (nested : qualify enclosing token = .nested name) : separator.toList <:+: name.toList := by
  unfold qualify at nested
  split at nested
  · rename_i kind primitive
    rw [nested] at primitive
    exact absurd primitive (ofToken?_ne_nested token name)
  · obtain rfl := Kind.nested.inj nested
    split
    · rename_i qualified
      exact isQualified_iff.1 qualified
    · rw [String.toList_append, String.toList_append]
      exact List.infix_append _ _ _

theorem structs_ne_nil_of_readText {text : List Char} (read : readText text = .ok registry) :
    registry.structs ≠ [] := by
  unfold readText at read
  split at read
  · cases read
  · split at read
    · cases read
    · unfold nonEmptyRegistry at read
      split at read
      · cases read
      · rename_i defined
        obtain rfl := Except.ok.inj read
        rintro none
        exact defined (List.isEmpty_iff.2 none)

theorem structs_ne_nil_of_ofString (read : Registry.ofString source = .ok registry) :
    registry.structs ≠ [] :=
  structs_ne_nil_of_readText read

/-- Every schema that is read is well formed, whatever its text: there are structs in it, each found
under the name that it bears; names of structs and fields are not empty, do not start or end with a
blank and hold no line feed, semicolon, brace or two slashes; each field has elements and a primitive
kind, or a nested one under a qualified name; and each comment is empty, or two slashes behind a space
with a text that ends in no blank. -/
theorem wellFormed_of_ofString (read : Registry.ofString source = .ok registry) :
    registry.WellFormed where
  defined := structs_ne_nil_of_ofString read
  keyed _ _ := Registry.get?_eq_some_iff
  names := by
    intro struct member
    obtain ⟨bare, opens, same | ⟨enclosing, opensEnclosing, same⟩⟩ :=
      exists_opens_of_mem_structs read member
    · rw [same]
      exact opens.isTidy
    · rw [same]
      exact opensEnclosing.isTidy.qualified opens.isTidy
  fields := by
    intro struct member field fieldMember
    obtain ⟨line, onLine, text, token, bare, piece, -, declaration, kind⟩ :=
      Registry.declared_of_ofString read struct member field fieldMember
    obtain ⟨tidy, comment⟩ := isTidy_of_mem_ofText onLine piece
    refine ⟨tidy.of_readDeclaration declaration, count_of_readDeclaration declaration, ?_, comment⟩
    intro name nested
    exact qualify_eq_nested (kind.symm.trans nested)

/-- A text with odd blanks and slashes that is a schema all the same. -/
def oddText : String :=
  "struct A/ b \x7b struct C \x7b uint8_t x / y // low\t\n\x7d C\u00a0c[2]; // two"

/-- The names in it are as tidy as any. -/
theorem wellFormed_of_oddText :
    ∃ registry, Registry.ofString oddText = .ok registry ∧ registry.WellFormed ∧
      registry.names = ["A/ b", "A/ b::C"] := by
  have inked : Text.isAllBlank oddText.toList = false := by decide +kernel
  have read : Registry.ofString oddText =
      .ok ((Registry.empty.insert ⟨"A/ b::C", [⟨"x / y", .byte, 1, " // low"⟩]⟩).insert
        ⟨"A/ b", [⟨"c", .nested "A/ b::C", 2, " // two"⟩]⟩) :=
    ofString_of_run inked rfl rfl
  exact ⟨_, read, wellFormed_of_ofString read, rfl⟩

end Schemas

end RecordDiff.Schema
