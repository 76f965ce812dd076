import RecordDiff.Text.Utf8
import RecordDiff.Text.Word
import RecordDiff.Yaml.Scalar

/-!
Names, tags and directives. A node may bear a name, by which an alias repeats it, and a tag, which
says what it is; a tag is written in full between angle brackets, or as a suffix to a handle. An
octet of zero, which only an escape can stand for, ends what is written of a tag. Directives in
front of a document declare its version and further handles.
-/

namespace RecordDiff.Yaml

/-! ### Names -/

/-- What names and handles are made of: ASCII letters and digits, the hyphen and the underscore. -/
def isNameChar (c : Char) : Bool :=
  Text.isAsciiLetter c || Text.isAsciiDigit c || c == '-' || c == '_'

/-- Whether what follows may stand right behind the name of a node. -/
def endsName (text : List Char) : Bool :=
  endsToken text ||
    match text with
    | [] => true
    | c :: _ =>
      c == '?' || c == ':' || c == ',' || c == ']' || c == '\x7d' || c == '%' || c == '@' ||
        c.toNat == 0x60

/-- The name of a node behind its mark. -/
def scanName? (text : List Char) : Option (List Char × List Char) :=
  let name := text.takeWhile isNameChar
  let rest := text.dropWhile isNameChar
  if !name.isEmpty && endsName rest then some (name, rest) else none

/-! ### Tags -/

/-- A character of a tag. The marks of flow collections are characters of a tag only where it is
written in full. -/
def isTagChar (full : Bool) (c : Char) : Bool :=
  isNameChar c || ";/?:@&=+$.!~*'()".toList.contains c ||
    (full && (c == ',' || c == '[' || c == ']'))

/-- The number of octets that follow an octet in the UTF-8 of one character, where `left` says how
many are to come already. -/
def octetsAfter? (left : Nat) (octet : Nat) : Option Nat :=
  if left ≠ 0 then if 0x80 ≤ octet ∧ octet < 0xC0 then some (left - 1) else none
  else if octet < 0x80 then some 0
  else if octet < 0xC0 then none
  else if octet < 0xE0 then some 1
  else if octet < 0xF0 then some 2
  else if octet < 0xF8 then some 3
  else none

/-- The octets of a tag and what follows them. A percent sign and two hexadecimal digits stand for
an octet, and the octets of one character stand together; `left` of them are to come. -/
def scanOctets? (full : Bool) (left : Nat) : List Char → Option (List UInt8 × List Char)
  | '%' :: a :: b :: rest =>
    match Text.digit? 16 a, Text.digit? 16 b with
    | some high, some low =>
      match octetsAfter? left (high * 16 + low) with
      | none => none
      | some left =>
        (scanOctets? full left rest).map fun (octets, rest) =>
          ((high * 16 + low).toUInt8 :: octets, rest)
    | _, _ => none
  | c :: rest =>
    if left ≠ 0 ∨ c = '%' then none
    else if isTagChar full c then
      (scanOctets? full 0 rest).map fun (octets, rest) => (c.toNat.toUInt8 :: octets, rest)
    else some ([], c :: rest)
  | [] => if left = 0 then some ([], []) else none

/-- Octets up to the first that is zero. -/
def untilZero (octets : List UInt8) : List UInt8 :=
  octets.takeWhile (· != 0)

/-- What is written of a tag, in one octet at least, up to the first that is zero, and what
follows. -/
def scanSomeOctets? (full : Bool) (text : List Char) : Option (List UInt8 × List Char) :=
  ((scanOctets? full 0 text).filter fun scan => !scan.1.isEmpty).map fun (octets, rest) =>
    (untilZero octets, rest)

/-- A tag: a suffix to the tag that a handle stands for. The empty handle stands for nothing. -/
structure Tag where
  handle : List Char
  suffix : List UInt8
  deriving DecidableEq, Repr

/-- The tag that is no more than its mark. -/
def Tag.bare : Tag :=
  ⟨[], ['!'.toNat.toUInt8]⟩

/-- A tag behind its mark, and what follows. -/
def scanTag? (text : List Char) : Option (Tag × List Char) :=
  match text with
  | '<' :: behind =>
    match scanSomeOctets? true behind with
    | some (octets, '>' :: rest) => some (⟨[], octets⟩, rest)
    | _ => none
  | _ =>
    let word := text.takeWhile isNameChar
    match text.dropWhile isNameChar with
    | '!' :: behind =>
      (scanSomeOctets? false behind).map fun (octets, rest) =>
        (⟨'!' :: word ++ ['!'], octets⟩, rest)
    | behind =>
      (scanOctets? false 0 behind).map fun (octets, rest) =>
        let suffix := Text.Utf8.encode word ++ untilZero octets
        (if suffix.isEmpty then .bare else ⟨['!'], suffix⟩, rest)

/-- Whether what follows may stand right behind a tag. -/
def endsTag (flow : Bool) (text : List Char) : Bool :=
  endsToken text || (flow && text.head? == some ',')

/-! ### Directives -/

/-- What a directive declares. -/
inductive Directive where
  /-- The version of the language. -/
  | version (major minor : Nat)
  /-- A handle and what it stands for. -/
  | handle (name : List Char) (meaning : List UInt8)
  deriving DecidableEq, Repr

/-- A number of a version: up to nine digits. -/
def scanVersionNumber? (text : List Char) : Option (Nat × List Char) :=
  let digits := text.takeWhile Text.isAsciiDigit
  if digits.isEmpty || 9 < digits.length then none
  else
    some (digits.foldl (fun value c => value * 10 + (c.toNat - 48)) 0,
      text.dropWhile Text.isAsciiDigit)

/-- What a directive for the version declares behind its name. -/
def scanVersion? (text : List Char) : Option (Directive × List Char) :=
  match scanVersionNumber? (text.dropWhile isSpace) with
  | some (major, '.' :: behind) =>
    (scanVersionNumber? behind).map fun (minor, rest) => (.version major minor, rest)
  | _ => none

/-- The handle that a directive declares, behind its first mark. -/
def scanHandle? (text : List Char) : Option (List Char × List Char) :=
  let word := text.takeWhile isNameChar
  match text.dropWhile isNameChar with
  | '!' :: rest => some ('!' :: word ++ ['!'], rest)
  | rest => if word.isEmpty then some (['!'], rest) else none

/-- What a directive for a handle declares behind its name. -/
def scanHandleMeaning? (text : List Char) : Option (Directive × List Char) :=
  match text.dropWhile isSpace with
  | '!' :: behind =>
    match scanHandle? behind with
    | some (name, c :: rest) =>
      if isSpace c then
        match scanSomeOctets? true (rest.dropWhile isSpace) with
        | some (meaning, rest) =>
          if endsToken rest then some (.handle name meaning, rest) else none
        | none => none
      else none
    | _ => none
  | _ => none

/-- A directive behind its mark, and the text behind its line. -/
def scanDirective? (text : List Char) : Option (Directive × List Char) :=
  let name := text.takeWhile isNameChar
  let behind := text.dropWhile isNameChar
  let scan :=
    if !endsToken behind then none
    else if name = "YAML".toList then scanVersion? behind
    else if name = "TAG".toList then scanHandleMeaning? behind
    else none
  scan.bind fun (directive, rest) => (restOfLine? rest).map fun rest => (directive, rest)

/-- What the handles of a document stand for. -/
abbrev Handles := List (List Char × List UInt8)

/-- The handles that need no declaration. -/
def standardHandles : Handles :=
  [(['!'], Text.Utf8.encode ['!']),
    (['!', '!'], Text.Utf8.encode "tag:yaml.org,2002:".toList)]

/-- A tag in full, unless its handle is unknown. -/
def Tag.resolve? (handles : Handles) (tag : Tag) : Option (List UInt8) :=
  if tag.handle.isEmpty then some tag.suffix
  else
    (handles.find? fun entry => entry.1 == tag.handle).map fun entry => entry.2 ++ tag.suffix

end RecordDiff.Yaml
