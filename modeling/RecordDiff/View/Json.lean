import RecordDiff.Comparison.Row
import RecordDiff.Text.Numeral

/-!
JSON, as far as a comparison needs it, and its form with line breaks: members and elements stand on
lines of their own, two spaces further in than what they belong to. Strings escape quotes,
backslashes and the controls below the space, and nothing else.
-/

namespace RecordDiff.View

open RecordDiff.Comparison (Row Tree)

/-- A JSON value whose numbers are natural. -/
inductive Json where
  | null
  | number (value : Nat)
  | string (text : String)
  | array (elements : List Json)
  | object (members : List (String × Json))
  deriving Repr

namespace Json

/-- A character inside a string. -/
def escapeChar (c : Char) : List Char :=
  if c = '"' then ['\\', '"']
  else if c = '\\' then ['\\', '\\']
  else if c = '\n' then ['\\', 'n']
  else if c = '\r' then ['\\', 'r']
  else if c = '\t' then ['\\', 't']
  else if c.toNat = 0x8 then ['\\', 'b']
  else if c.toNat = 0xC then ['\\', 'f']
  else if c.toNat < 0x20 then
    ['\\', 'u', '0', '0', Text.hexDigit (c.toNat / 16), Text.hexDigit (c.toNat % 16)]
  else [c]

/-- A string between its quotes. -/
def quote (text : String) : List Char :=
  '"' :: text.toList.flatMap escapeChar ++ ['"']

/-- A line break and the spaces of a depth. -/
def newline (depth : Nat) : List Char :=
  '\n' :: List.replicate (2 * depth) ' '

mutual

/-- A value with line breaks, where it belongs to something at a depth. -/
def pretty (depth : Nat) : Json → List Char
  | null => ['n', 'u', 'l', 'l']
  | number value => Text.decimal value
  | string text => quote text
  | array [] => ['[', ']']
  | array (first :: rest) =>
    '[' :: newline (depth + 1) ++ pretty (depth + 1) first ++ prettyElements (depth + 1) rest ++
      newline depth ++ [']']
  | object [] => ['\x7b', '\x7d']
  | object ((name, value) :: rest) =>
    '\x7b' :: newline (depth + 1) ++ quote name ++ [':', ' '] ++ pretty (depth + 1) value ++
      prettyMembers (depth + 1) rest ++ newline depth ++ ['\x7d']

/-- Elements behind the first, each on a line of its own behind a comma. -/
def prettyElements (depth : Nat) : List Json → List Char
  | [] => []
  | value :: rest => ',' :: newline depth ++ pretty depth value ++ prettyElements depth rest

/-- Members behind the first, each on a line of its own behind a comma. -/
def prettyMembers (depth : Nat) : List (String × Json) → List Char
  | [] => []
  | (name, value) :: rest =>
    ',' :: newline depth ++ quote name ++ [':', ' '] ++ pretty depth value ++
      prettyMembers depth rest

end

/-- A text, or nothing, as a value. -/
def ofOption : Option String → Json
  | none => null
  | some text => string text

mutual

/-- A row as an object. A comment is left out when it is empty, and so are the rows below. -/
def ofRow : Row → Json
  | ⟨label, comment, left, right, children⟩ =>
    object
      (("label", string label) ::
        ((if comment.isEmpty then [] else [("comment", string comment)]) ++
          ("left", ofOption left) :: ("right", ofOption right) ::
            (if children.isEmpty then [] else [("children", array (ofRows children))])))

/-- Rows as values. -/
def ofRows : List Row → List Json
  | [] => []
  | row :: rest => ofRow row :: ofRows rest

end

/-- A comparison as an object. -/
def ofTree (tree : Tree) : Json :=
  object [("root", ofRow tree.root), ("consumed", number tree.consumed)]

end Json

/-- The JSON text of a comparison. -/
def renderJson (tree : Tree) : String :=
  String.ofList ((Json.ofTree tree).pretty 0)

end RecordDiff.View
