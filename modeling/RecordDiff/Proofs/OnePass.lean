import RecordDiff.Proofs.Declared

/-!
Reading a schema in one pass. The structs that are open stand on a stack, the innermost on top, and
every logical line changes the stack by one step: a struct is opened or closed, or the struct on top
gets a field. The reader follows the nesting of the text by recursion instead, one call for each
struct. Main statements:

- `Pass.run_of_step`: a line is read by its step, and then the lines behind it;
- `Pass.run_readBody`: reading a body is the part of a pass up to where its struct ends, whatever
  is open around it;
- `Pass.run_readLines`: reading outside every struct is a pass with nothing open;
- `ofString_eq_pass`: a schema is read as the pass over its logical lines reads it.
-/

namespace RecordDiff.Schema

/-- A struct that was opened and is not closed yet. -/
structure OpenStruct where
  /-- The name it was opened with. -/
  bare : String
  /-- Its qualified name, and the fields found so far. -/
  struct : Struct
  deriving DecidableEq, Repr

/-- How far a pass over logical lines has come. -/
structure Pass where
  /-- The structs that are open, the innermost first. -/
  opened : List OpenStruct
  /-- The structs that were closed. -/
  registry : Registry

namespace Pass

/-- A pass that has read nothing. -/
def start : Pass :=
  ⟨[], .empty⟩

/-- The qualified name of a struct that opens now: behind the name of the innermost open struct, if
there is one. -/
def qualifiedName (pass : Pass) (bare : String) : String :=
  match pass.opened with
  | [] => bare
  | top :: _ => top.bare ++ separator ++ bare

/-- Opens a struct. -/
def openStruct (pass : Pass) (bare : String) : Pass :=
  { pass with opened := ⟨bare, ⟨pass.qualifiedName bare, []⟩⟩ :: pass.opened }

/-- Closes the innermost open struct, if there is one. -/
def closeStruct (pass : Pass) : Pass :=
  match pass.opened with
  | [] => pass
  | top :: below => ⟨below, pass.registry.insert top.struct⟩

/-- Declares a field of the innermost open struct, if there is one. -/
def declareField (pass : Pass) (number : Nat) (text : List Char) (comment : String) :
    Except Fault Pass :=
  match pass.opened with
  | [] => .ok pass
  | top :: below =>
    match readDeclaration number text with
    | .error fault => .error fault
    | .ok (token, name, count) =>
      let field : Field := ⟨name, qualify top.bare token, count, comment⟩
      .ok { pass with opened := ⟨top.bare, top.struct.push field⟩ :: below }

/-- What one logical line does. -/
def step (pass : Pass) (line : LogicalLine) : Except Fault Pass :=
  match line.piece with
  | .opening => .ok pass
  | .closing => .ok pass.closeStruct
  | .declaration text comment =>
    match structName? text with
    | some bare => .ok (pass.openStruct (String.ofList bare))
    | none => pass.declareField line.number text comment

/-- The registry at the end of the lines: what is still open is closed from the inside out. -/
def finish (pass : Pass) : Registry :=
  pass.opened.foldl (fun registry opened => registry.insert opened.struct) pass.registry

/-- Reads lines one after the other, and ends there. The first line with a fault counts. -/
def run (pass : Pass) (lines : List LogicalLine) : Except Fault Registry :=
  (lines.foldlM step pass).map finish

section Steps

variable {pass : Pass} {line : LogicalLine} {lines : List LogicalLine} {text : List Char}
  {comment : String} {top : OpenStruct} {below : List OpenStruct} {registry : Registry}

/-! ### One line -/

/-- A line is read by its step, and then the lines behind it. -/
theorem run_cons : pass.run (line :: lines) = (pass.step line).bind fun next => next.run lines := by
  rw [run, List.foldlM_cons]
  cases pass.step line with
  | error fault => rfl
  | ok next => rfl

theorem run_of_step {next : Pass} (stepped : pass.step line = .ok next) :
    pass.run (line :: lines) = next.run lines := by
  rw [run_cons, stepped]
  rfl

theorem step_opening (piece : line.piece = .opening) : pass.step line = .ok pass := by
  rw [step, piece]

theorem step_closing (piece : line.piece = .closing) : pass.step line = .ok pass.closeStruct := by
  rw [step, piece]

theorem step_declaration_some {bare : List Char} (piece : line.piece = .declaration text comment)
    (opens : structName? text = some bare) :
    pass.step line = .ok (pass.openStruct (String.ofList bare)) := by
  simp only [step, piece, opens]

theorem step_declaration_none (piece : line.piece = .declaration text comment)
    (opensNone : structName? text = none) :
    pass.step line = pass.declareField line.number text comment := by
  simp only [step, piece, opensNone]

theorem openStruct_nil (bare : String) :
    openStruct ⟨[], registry⟩ bare = ⟨[⟨bare, ⟨bare, []⟩⟩], registry⟩ := rfl

theorem openStruct_cons (bare : String) :
    openStruct ⟨top :: below, registry⟩ bare =
      ⟨⟨bare, openNested top.bare bare⟩ :: top :: below, registry⟩ := rfl

end Steps

/-! ### Bodies and schemas -/

section Bodies

variable {lines : List LogicalLine} {bare : String} {struct : Struct} {registry : Registry}

theorem bind_map_behind {α : Type} {line : LogicalLine} (outcome : Except Fault (Reading lines))
    (next : List LogicalLine → Registry → Except Fault α) :
    ((outcome.map (Reading.behind line)).bind fun reading => next reading.rest reading.registry) =
      outcome.bind fun reading => next reading.rest reading.registry := by
  cases outcome with
  | error fault => rfl
  | ok reading => rfl

/-- Reading a body is the part of a pass up to where its struct ends, whatever is open around it. -/
theorem run_readBody (below : List OpenStruct) :
    run ⟨⟨bare, struct⟩ :: below, registry⟩ lines =
      (readBody bare struct registry lines).bind fun reading =>
        run ⟨below, reading.registry⟩ reading.rest := by
  -- the induction is on the calls of the reader; the stack below is that of the caller
  fun_induction readBody bare struct registry lines generalizing below with
  | case1 bare struct registry => rfl
  | case2 bare struct registry line rest opening ih =>
    rw [run_of_step (step_opening opening), ih]
    exact (bind_map_behind _ fun rest registry => run ⟨below, registry⟩ rest).symm
  | case3 bare struct registry line rest closing =>
    rw [run_of_step (step_closing closing)]
    rfl
  | case4 bare struct registry line rest text comment piece nested opens fault failed ih =>
    rw [run_of_step (step_declaration_some piece opens), openStruct_cons, ih, failed]
    rfl
  | case5 bare struct registry line rest text comment piece nested opens inner found fault failed
      ihInner ihOuter =>
    rw [run_of_step (step_declaration_some piece opens), openStruct_cons, ihInner, found]
    change run ⟨⟨bare, struct⟩ :: below, inner.registry⟩ inner.rest = _
    rw [ihOuter, failed]
    rfl
  | case6 bare struct registry line rest text comment piece nested opens inner found outer
      foundOuter ihInner ihOuter =>
    rw [run_of_step (step_declaration_some piece opens), openStruct_cons, ihInner, found]
    -- the inner struct has ended, and the outer one is on top of the stack again
    change run ⟨⟨bare, struct⟩ :: below, inner.registry⟩ inner.rest = _
    rw [ihOuter, foundOuter]
    rfl
  | case7 bare struct registry line rest text comment piece opensNone fault failed =>
    rw [run_cons, step_declaration_none piece opensNone, declareField, failed]
    rfl
  | case8 bare struct registry line rest text comment piece opensNone token name count declaration
      ih =>
    rw [run_cons, step_declaration_none piece opensNone, declareField, declaration]
    refine (ih below).trans ?_
    exact (bind_map_behind _ fun rest registry => run ⟨below, registry⟩ rest).symm

/-- Reading outside every struct is a pass with nothing open. -/
theorem run_readLines : run ⟨[], registry⟩ lines = readLines registry lines := by
  fun_induction readLines registry lines with
  | case1 registry => rfl
  | case2 registry line rest text comment piece bare opens fault failed =>
    rw [run_of_step (step_declaration_some piece opens), openStruct_nil, run_readBody, failed]
    rfl
  | case3 registry line rest text comment piece bare opens reading found ih =>
    rw [run_of_step (step_declaration_some piece opens), openStruct_nil, run_readBody, found]
    exact ih
  | case4 registry line rest text comment piece opensNone ih =>
    have outside : step ⟨[], registry⟩ line = .ok ⟨[], registry⟩ :=
      step_declaration_none piece opensNone
    rw [run_of_step outside]
    exact ih
  | case5 registry line rest brace ih =>
    have outside : step ⟨[], registry⟩ line = .ok ⟨[], registry⟩ := by
      cases piece : line.piece with
      | opening => exact step_opening piece
      | closing => exact step_closing piece
      | declaration text comment => exact absurd piece (brace text comment)
    rw [run_of_step outside]
    exact ih

end Bodies

end Pass

/-! ### Schemas -/

section Schemas

variable {source : String}

/-- A schema that is not blank is read in one pass, and refused if there is no struct in it. -/
theorem ofString_eq_bind (inked : Text.isAllBlank source.toList = false) :
    Registry.ofString source =
      (Pass.start.run (LogicalLine.ofText source.toList)).bind nonEmptyRegistry := by
  have lines : Pass.start.run (LogicalLine.ofText source.toList) =
      readLines .empty (LogicalLine.ofText source.toList) := Pass.run_readLines
  rw [Registry.ofString, readText, inked, lines]
  cases readLines .empty (LogicalLine.ofText source.toList) with
  | error fault => rfl
  | ok registry => rfl

/-- What a pass over the lines of a text comes to is the schema, if there is a struct in it. -/
theorem ofString_of_run {registry : Registry} (inked : Text.isAllBlank source.toList = false)
    (run : Pass.start.run (LogicalLine.ofText source.toList) = .ok registry)
    (filled : registry.isEmpty = false) : Registry.ofString source = .ok registry := by
  rw [ofString_eq_bind inked, run]
  simp [Except.bind, nonEmptyRegistry, filled]

/-- A schema that is not blank is read as the pass over its logical lines reads it: with the same
registry or the same fault. What a registry finds under a name is the struct that was entered last
under it. -/
theorem ofString_eq_pass (inked : ∃ c ∈ source.toList, Text.isBlank c = false) :
    Registry.ofString source =
        (Pass.start.run (LogicalLine.ofText source.toList)).bind nonEmptyRegistry ∧
      ∀ (registry : Registry) (struct : Struct) (name : String),
        (registry.insert struct).get? name =
          if struct.name = name then some struct else registry.get? name := by
  constructor
  · exact ofString_eq_bind (Text.isAllBlank_eq_false inked)
  · intro registry struct name
    by_cases same : struct.name = name
    · rw [if_pos same, ← same, Registry.get?_insert_self]
    · rw [if_neg same, Registry.get?_insert_of_ne registry same]

theorem ofString_eq_pass_of_unclosed :
    (∃ c ∈ "\x7d\nstruct A\nstruct B\nchar b".toList, Text.isBlank c = false) ∧
      Registry.ofString "\x7d\nstruct A\nstruct B\nchar b" =
        .ok ((Registry.empty.insert ⟨"A::B", [⟨"b", .text, 1, ""⟩]⟩).insert ⟨"A", []⟩) := by
  have inked : ∃ c ∈ "\x7d\nstruct A\nstruct B\nchar b".toList, Text.isBlank c = false :=
    ⟨'A', by decide, by decide⟩
  refine ⟨inked, (ofString_eq_pass inked).1.trans ?_⟩
  rfl

end Schemas

end RecordDiff.Schema
