import RecordDiff.Schema.Declaration
import RecordDiff.Schema.Line

/-!
Reading a schema text. Logical lines are read in order: a line that opens a struct starts the body
of that struct, which runs up to its closing brace or to the end of the text; structs inside a body
are named with the bare name of the struct around them. A struct is entered into the registry when
its body ends. Outside every struct, lines that open none are skipped. Main statements:

- `Reading.shorter`: reading a body never gives back more lines than it was given;
- `readText_of_blank`: a blank text is refused before any line is looked at.
-/

namespace RecordDiff.Schema

/-- What reading the body of a struct leaves: the lines behind it, which are no more than there
were, and the registry with every struct that ended. -/
structure Reading (lines : List LogicalLine) where
  rest : List LogicalLine
  registry : Registry
  shorter : rest.length ≤ lines.length

/-- What reading leaves, seen from one line further ahead. -/
def Reading.behind {lines : List LogicalLine} (line : LogicalLine) (reading : Reading lines) :
    Reading (line :: lines) :=
  ⟨reading.rest, reading.registry, Nat.le_succ_of_le reading.shorter⟩

/-- What reading on leaves, seen from where the first reading started. -/
def Reading.after {lines : List LogicalLine} (first : Reading lines)
    (second : Reading first.rest) : Reading lines :=
  ⟨second.rest, second.registry, Nat.le_trans second.shorter first.shorter⟩

/-- The struct that opens inside the body of another, without fields yet. -/
def openNested (enclosing bare : String) : Struct :=
  ⟨enclosing ++ separator ++ bare, []⟩

/-- Reads the body of the struct with the given bare name. The fields found so far are those of
`struct`. -/
def readBody (bare : String) (struct : Struct) (registry : Registry) :
    (lines : List LogicalLine) → Except Fault (Reading lines)
  | [] => .ok ⟨[], registry.insert struct, Nat.le_refl _⟩
  | line :: rest =>
    match line.piece with
    | .opening => (readBody bare struct registry rest).map (Reading.behind line)
    | .closing => .ok ⟨rest, registry.insert struct, Nat.le_succ _⟩
    | .declaration text comment =>
      match structName? text with
      | some nested =>
        match readBody (String.ofList nested) (openNested bare (String.ofList nested)) registry
          rest with
        | .error fault => .error fault
        | .ok inner =>
          match readBody bare struct inner.registry inner.rest with
          | .error fault => .error fault
          | .ok outer => .ok ((inner.after outer).behind line)
      | none =>
        match readDeclaration line.number text with
        | .error fault => .error fault
        | .ok (token, name, count) =>
          (readBody bare (struct.push ⟨name, qualify bare token, count, comment⟩) registry
            rest).map (Reading.behind line)
termination_by lines => lines.length
decreasing_by
  · simp
  · simp
  · have := inner.shorter
    simp only [List.length_cons]
    omega
  · simp

/-- Reads logical lines outside every struct. -/
def readLines (registry : Registry) (lines : List LogicalLine) : Except Fault Registry :=
  match lines with
  | [] => .ok registry
  | line :: rest =>
    match line.piece with
    | .declaration text _ =>
      match structName? text with
      | some bare =>
        match readBody (String.ofList bare) ⟨String.ofList bare, []⟩ registry rest with
        | .error fault => .error fault
        | .ok reading => readLines reading.registry reading.rest
      | none => readLines registry rest
    | _ => readLines registry rest
termination_by lines.length
decreasing_by
  · have := reading.shorter
    simp only [List.length_cons]
    omega
  · simp
  · simp

/-- A registry, unless it is empty. -/
def nonEmptyRegistry (registry : Registry) : Except Fault Registry :=
  if registry.isEmpty then .error .noStructs else .ok registry

/-- Reads the characters of a schema. -/
def readText (text : List Char) : Except Fault Registry :=
  if Text.isAllBlank text then .error .emptySchema
  else
    match readLines .empty (LogicalLine.ofText text) with
    | .error fault => .error fault
    | .ok registry => nonEmptyRegistry registry

/-- Reads a schema. -/
def Registry.ofString (source : String) : Except Fault Registry :=
  readText source.toList

theorem readText_of_blank {text : List Char} (blank : Text.isAllBlank text = true) :
    readText text = .error .emptySchema := by
  simp [readText, blank]

end RecordDiff.Schema
