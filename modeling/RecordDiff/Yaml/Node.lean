import RecordDiff.Yaml.Scalar
import RecordDiff.Text.Utf8

/-!
YAML documents. A document is a tree of nodes: scalars, sequences, mappings, and aliases for nodes
that bear a name. Of a scalar, its tag and the way it is written matter beside its text. Main
statement:

- `isCore_absent`: where nothing is written stands a plain scalar.
-/

namespace RecordDiff.Yaml

/-- A node of a document. -/
inductive Node where
  /-- A text with its tag, if it bears one, and the way it is written. -/
  | scalar (tag : Option (List UInt8)) (style : Style) (text : String)
  | sequence (items : List Node)
  | mapping (entries : List (Node × Node))
  /-- An alias: the node of a number among those that bear a name. -/
  | reference (number : Nat)
  deriving Repr

namespace Node

/-- The node of a place where nothing is written. -/
def absent : Node :=
  .scalar none .plain ""

/-- The tag of the core schema for a word. -/
def coreTag (word : String) : List UInt8 :=
  Text.Utf8.encode ("tag:yaml.org,2002:" ++ word).toList

/-- Whether a scalar may stand for something other than a text: if it is plain, or a literal block
with the tag of that very thing. -/
def isCore (word : String) (tag : Option (List UInt8)) (style : Style) : Bool :=
  style == .plain || (style == .literal && tag == some (coreTag word))

/-- The mark that a tag of the document's own starts with. -/
def localMark : UInt8 := '!'.toNat.toUInt8

/-- What a tag of the document's own names: the text behind its mark, or the mark where it stands
alone. -/
def localName? (tag : Option (List UInt8)) : Option String :=
  match tag with
  | some (mark :: rest) =>
    if mark = localMark then
      match Text.Utf8.decode (if rest.isEmpty then [mark] else rest) with
      | .ok name => some (String.ofList name)
      | .error _ => none
    else none
  | _ => none

theorem isCore_absent (word : String) : isCore word none .plain = true := rfl

end Node

/-- A document: its root and its nodes that bear a name, by their numbers. -/
structure Document where
  root : Node
  named : List (Nat × Node)
  deriving Repr

namespace Document

/-- The node that a node stands for: the one it repeats, if it is an alias. -/
def resolve (document : Document) : Node → Node
  | .reference number =>
    match document.named.find? fun entry => entry.1 == number with
    | some entry => entry.2
    | none => .reference number
  | node => node

end Document

end RecordDiff.Yaml
