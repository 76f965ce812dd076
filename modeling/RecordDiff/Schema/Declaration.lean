import RecordDiff.Schema.Registry
import RecordDiff.Text.Blank
import RecordDiff.Text.Word

/-!
Declarations inside a struct. A field is declared in one of three forms, tried in this order:

- `OUTER<ELEM, COUNT> NAME`, where the type is `OUTER` if that is a primitive token, else `ELEM`;
- `TYPE NAME[COUNT]`;
- `TYPE NAME`, where the name is all the rest of the line.

Blanks may stand between the parts, and at least one stands between a type and a name. A nested
struct is opened by the word `struct` and a name.
-/

namespace RecordDiff.Schema

/-- A field as its line declares it, before the count is read and the type is qualified. -/
structure Draft where
  /-- The type token. -/
  token : List Char
  /-- The name. -/
  name : List Char
  /-- The text of the element count, if there is one. -/
  count : Option (List Char)
  deriving DecidableEq, Repr

/-- A name at the front of a text, with what may start it and what may follow in it. -/
def nameBy? (inner : Char → Bool) : List Char → Option (List Char × List Char)
  | [] => none
  | c :: rest =>
    if Text.isNameStart c then some (c :: rest.takeWhile inner, rest.dropWhile inner) else none

/-- The name of a type at the front of a text, and the rest of the text. -/
def typeToken? : List Char → Option (List Char × List Char) :=
  nameBy? Text.isTypeChar

/-- A plain name at the front of a text, and the rest of the text. -/
def plainName? : List Char → Option (List Char × List Char) :=
  nameBy? Text.isWord

/-- What follows a mark, where blanks may stand in front of the mark. -/
def afterMark? (mark : Char) (text : List Char) : Option (List Char) :=
  match Text.trimStart text with
  | [] => none
  | c :: rest => if c = mark then some rest else none

/-- A text cut at the first occurrence of a mark, the mark itself left out. -/
def cutAt? (mark : Char) : List Char → Option (List Char × List Char)
  | [] => none
  | c :: rest =>
    if c = mark then some ([], rest)
    else (cutAt? mark rest).map fun cut => (c :: cut.1, cut.2)

/-- A text that starts with a blank, without the blanks it starts with. -/
def afterBlanks? : List Char → Option (List Char)
  | [] => none
  | c :: rest => if Text.isBlank c then some (Text.trimStart rest) else none

/-- A text that is not empty. -/
def nonEmpty? : List Char → Option (List Char)
  | [] => none
  | c :: rest => some (c :: rest)

/-- The rest of a line as a name: it is not empty, and no line ends in it. -/
def restName? (text : List Char) : Option (List Char) :=
  if '\n' ∈ text then none else nonEmpty? text

/-- Whether a token names a primitive kind. -/
def isPrimitive (token : List Char) : Bool :=
  (Kind.ofToken? (String.ofList token)).isSome

/-- The form `OUTER<ELEM, COUNT> NAME`. -/
def templateForm? (text : List Char) : Option Draft := do
  let (outer, afterOuter) ← typeToken? text
  let inside ← afterMark? '<' afterOuter
  let (elem, afterElem) ← typeToken? (Text.trimStart inside)
  let behindComma ← afterMark? ',' afterElem
  let (count, behind) ← cutAt? '>' behindComma
  let name ← restName? (Text.trimStart behind)
  return ⟨if isPrimitive outer then outer else elem, name, some (Text.trim count)⟩

/-- The form `TYPE NAME[COUNT]`. -/
def arrayForm? (text : List Char) : Option Draft := do
  let (token, afterToken) ← typeToken? text
  let (name, afterName) ← plainName? (← afterBlanks? afterToken)
  let inside ← afterMark? '[' afterName
  let (count, behind) ← cutAt? ']' inside
  if behind.isEmpty then some ⟨token, name, some (Text.trim count)⟩ else none

/-- The form `TYPE NAME`. -/
def scalarForm? (text : List Char) : Option Draft := do
  let (token, afterToken) ← typeToken? text
  let name ← restName? (← afterBlanks? afterToken)
  return ⟨token, name, none⟩

/-- The first of the three forms that a line has. -/
def Draft.ofText? (text : List Char) : Option Draft :=
  (templateForm? text).or ((arrayForm? text).or (scalarForm? text))

/-- The element count on a line: a positive number of 64 bits. -/
def readCount (line : Nat) (count : List Char) : Except Fault Nat :=
  match Text.readNumeral 10 count with
  | .ok (value + 1) => .ok (value + 1)
  | _ => .error (.badCount line (String.ofList count))

/-- A field declaration on a line: its type token, its name and its element count. -/
def readDeclaration (line : Nat) (text : List Char) : Except Fault (String × String × Nat) :=
  match Draft.ofText? text with
  | none => .error (.badDeclaration line (String.ofList text))
  | some draft =>
    match draft.count with
    | none => .ok (String.ofList draft.token, String.ofList draft.name, 1)
    | some count =>
      match readCount line count with
      | .error fault => .error fault
      | .ok value => .ok (String.ofList draft.token, String.ofList draft.name, value)

/-- The kind of a field with a type token inside the struct of the given bare name. A token that is
neither primitive nor qualified is taken for a struct nested there. -/
def qualify (enclosing token : String) : Kind :=
  match Kind.ofToken? token with
  | some kind => kind
  | none => .nested (if isQualified token then token else enclosing ++ separator ++ token)

/-- The word that opens a struct. -/
def structKeyword : List Char := ['s', 't', 'r', 'u', 'c', 't']

/-- The bare name of the struct that a line opens. -/
def structName? (text : List Char) : Option (List Char) :=
  if structKeyword.isPrefixOf text then
    (afterBlanks? (text.drop structKeyword.length)).bind fun rest => nonEmpty? (Text.trim rest)
  else none

end RecordDiff.Schema
