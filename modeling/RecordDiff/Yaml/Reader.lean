import RecordDiff.Yaml.Node
import RecordDiff.Yaml.Token

/-!
Reading a document from its tokens. A block collection is a run of items or entries between two
marks; a sequence right under a key may also do without marks. In flow form commas stand between
items, and one item of a sequence may be a single entry of a mapping. Where a key, a value or an
item is left out, an empty plain scalar stands. An anchor is numbered by the names in front of it;
an alias has the number of the last anchor of its name in front of it, and stands for the last node
to start among those of that number.
-/

namespace RecordDiff.Yaml

/-! ### Names -/

/-- The names of a document up to some place. -/
structure Anchors where
  /-- The names with the numbers they stand for. -/
  names : List (List Char × Nat) := []
  /-- The nodes by their numbers, the last one to start first. -/
  named : List (Nat × Node) := []
  deriving Repr

namespace Anchors

/-- The number that a name stands for. -/
def number? (anchors : Anchors) (name : List Char) : Option Nat :=
  (anchors.names.find? fun entry => entry.1 == name).map Prod.snd

/-- The number of a further anchor. -/
def next (anchors : Anchors) : Nat :=
  anchors.names.length

/-- The anchors with a further one of a name. -/
def insert (anchors : Anchors) (name : List Char) : Anchors :=
  { anchors with
    names := (name, anchors.next) :: anchors.names.filter fun entry => entry.1 != name }

/-- The anchors with a node for a number, if there is one; so many nodes had been stored when it
started, and those stored since then are inside it. -/
def store (anchors : Anchors) (before : Nat) (number : Option Nat) (node : Node) : Anchors :=
  match number with
  | some number =>
    { anchors with
      named := anchors.named.insertIdx (anchors.named.length - before) (number, node) }
  | none => anchors

end Anchors

/-! ### Properties -/

/-- The tokens that are left, and what decides on them. -/
structure Reading where
  tokens : List Token
  handles : Handles
  anchors : Anchors

namespace Reading

/-- The reading behind its first token. -/
def next (reading : Reading) : Reading :=
  { reading with tokens := reading.tokens.tail }

/-- Whether the next token is one of the given ones. -/
def isAt (reading : Reading) (stops : List Token) : Bool :=
  match reading.tokens with
  | [] => false
  | token :: _ => stops.contains token

end Reading

/-- The properties of a node. -/
structure Properties where
  anchor : Option (List Char)
  tag : Option Tag

/-- The properties in front of a node, one of each kind at most and in either order, and the tokens
behind them. -/
def splitProperties : List Token → Properties × List Token
  | .anchor name :: .tag tag :: rest => (⟨some name, some tag⟩, rest)
  | .tag tag :: .anchor name :: rest => (⟨some name, some tag⟩, rest)
  | .anchor name :: rest => (⟨some name, none⟩, rest)
  | .tag tag :: rest => (⟨none, some tag⟩, rest)
  | tokens => (⟨none, none⟩, tokens)

/-- Whether a node bears a property. -/
def Properties.isSome (properties : Properties) : Bool :=
  properties.anchor.isSome || properties.tag.isSome

/-- The tag of a node in full: outside stands `none` for an unknown handle, inside for no tag. -/
def Properties.tag? (properties : Properties) (handles : Handles) :
    Option (Option (List UInt8)) :=
  match properties.tag with
  | none => some none
  | some tag => (tag.resolve? handles).map some

/-- The anchors with that of a node, if it bears a name, and its number. -/
def Properties.register (properties : Properties) (anchors : Anchors) : Anchors × Option Nat :=
  match properties.anchor with
  | some name => (anchors.insert name, some anchors.next)
  | none => (anchors, none)

/-! ### Nodes -/

mutual

/-- Reads a node. A block collection may only stand where `block` says so, and a sequence without
marks only where `underKey` does. -/
def readNode : (fuel : Nat) → (block underKey : Bool) → Reading → Option (Node × Reading)
  | 0, _, _, _ => none
  | fuel + 1, block, underKey, reading =>
    match reading.tokens with
    | .reference name :: _ =>
      (reading.anchors.number? name).map fun number => (.reference number, reading.next)
    | tokens =>
      let (properties, behind) := splitProperties tokens
      let (anchors, number) := properties.register reading.anchors
      match properties.tag? reading.handles with
      | none => none
      | some tag =>
        (readContent fuel block underKey properties.isSome tag
          ⟨behind, reading.handles, anchors⟩).map fun (node, reading) =>
            (node,
              { reading with
                anchors := reading.anchors.store anchors.named.length number node })

/-- Reads the content of a node with a tag. With properties in front it may be left out. -/
def readContent : (fuel : Nat) → (block underKey optional : Bool) →
    (tag : Option (List UInt8)) → Reading → Option (Node × Reading)
  | 0, _, _, _, _, _ => none
  | fuel + 1, block, underKey, optional, tag, reading =>
    match reading.tokens with
    | .scalar style text :: _ => some (.scalar tag style (String.ofList text), reading.next)
    | .flowSequence :: _ => readFlowItems fuel true [] reading.next
    | .flowMapping :: _ => readFlowEntries fuel true [] reading.next
    | token :: _ =>
      if underKey && token == .item then readItemsUnderKey fuel [] reading
      else if block && token == .blockSequence then readItems fuel [] reading.next
      else if block && token == .blockMapping then readEntries fuel [] reading.next
      else if optional then some (.scalar tag .plain "", reading)
      else none
    | [] => if optional then some (.scalar tag .plain "", reading) else none

/-- Reads a node, or leaves it out in front of one of the given tokens. -/
def readOptional : (fuel : Nat) → (block underKey : Bool) → (stops : List Token) → Reading →
    Option (Node × Reading)
  | 0, _, _, _, _ => none
  | fuel + 1, block, underKey, stops, reading =>
    if reading.isAt stops then some (.absent, reading)
    else readNode fuel block underKey reading

/-- Reads the value of a key. Without a colon it is left out. -/
def readValue : (fuel : Nat) → (block : Bool) → (stops : List Token) → Reading →
    Option (Node × Reading)
  | 0, _, _, _ => none
  | fuel + 1, block, stops, reading =>
    match reading.tokens with
    | .value :: _ => readOptional fuel block block stops reading.next
    | _ => some (.absent, reading)

/-- Reads the further items of a block sequence, behind the given ones. -/
def readItems : (fuel : Nat) → (reversed : List Node) → Reading → Option (Node × Reading)
  | 0, _, _ => none
  | fuel + 1, reversed, reading =>
    match reading.tokens with
    | .blockEnd :: _ => some (.sequence reversed.reverse, reading.next)
    | .item :: _ =>
      match readOptional fuel true false [.item, .blockEnd] reading.next with
      | none => none
      | some (item, reading) => readItems fuel (item :: reversed) reading
    | _ => none

/-- Reads the further items of a block sequence without marks, behind the given ones. -/
def readItemsUnderKey : (fuel : Nat) → (reversed : List Node) → Reading →
    Option (Node × Reading)
  | 0, _, _ => none
  | fuel + 1, reversed, reading =>
    match reading.tokens with
    | .item :: _ =>
      match readOptional fuel true false [.item, .key, .value, .blockEnd] reading.next with
      | none => none
      | some (item, reading) => readItemsUnderKey fuel (item :: reversed) reading
    | _ => some (.sequence reversed.reverse, reading)

/-- Reads the further entries of a block mapping, behind the given ones. -/
def readEntries : (fuel : Nat) → (reversed : List (Node × Node)) → Reading →
    Option (Node × Reading)
  | 0, _, _ => none
  | fuel + 1, reversed, reading =>
    match reading.tokens with
    | .blockEnd :: _ => some (.mapping reversed.reverse, reading.next)
    | .key :: _ =>
      match readOptional fuel true true [.key, .value, .blockEnd] reading.next with
      | none => none
      | some (key, reading) =>
        match readValue fuel true [.key, .value, .blockEnd] reading with
        | none => none
        | some (value, reading) => readEntries fuel ((key, value) :: reversed) reading
    | _ => none

/-- Reads the further items of a flow sequence, behind the given ones; behind the first bracket no
comma stands in front of an item. Where the key of an entry is left out behind its mark, the token
that follows is passed over. -/
def readFlowItems : (fuel : Nat) → (first : Bool) → (reversed : List Node) → Reading →
    Option (Node × Reading)
  | 0, _, _, _ => none
  | fuel + 1, first, reversed, reading =>
    if reading.isAt [.flowSequenceEnd] then some (.sequence reversed.reverse, reading.next)
    else if !first && !reading.isAt [.separator] then none
    else
      let start := if first then reading else reading.next
      match start.tokens with
      | .flowSequenceEnd :: _ => some (.sequence reversed.reverse, start.next)
      | .key :: _ =>
        match
          if start.next.isAt [.value, .separator, .flowSequenceEnd] then
            some (.absent, start.next.next)
          else readNode fuel false false start.next with
        | none => none
        | some (key, reading) =>
          match readValue fuel false [.separator, .flowSequenceEnd] reading with
          | none => none
          | some (value, reading) =>
            readFlowItems fuel false (.mapping [(key, value)] :: reversed) reading
      | _ =>
        match readNode fuel false false start with
        | none => none
        | some (item, reading) => readFlowItems fuel false (item :: reversed) reading

/-- Reads the further entries of a flow mapping, behind the given ones; behind the first bracket no
comma stands in front of an entry. -/
def readFlowEntries : (fuel : Nat) → (first : Bool) → (reversed : List (Node × Node)) → Reading →
    Option (Node × Reading)
  | 0, _, _, _ => none
  | fuel + 1, first, reversed, reading =>
    if reading.isAt [.flowMappingEnd] then some (.mapping reversed.reverse, reading.next)
    else if !first && !reading.isAt [.separator] then none
    else
      let start := if first then reading else reading.next
      match start.tokens with
      | .flowMappingEnd :: _ => some (.mapping reversed.reverse, start.next)
      | .key :: _ =>
        match
          readOptional fuel false false [.value, .separator, .flowMappingEnd] start.next with
        | none => none
        | some (key, reading) =>
          match readValue fuel false [.separator, .flowMappingEnd] reading with
          | none => none
          | some (value, reading) => readFlowEntries fuel false ((key, value) :: reversed) reading
      | _ =>
        match readNode fuel false false start with
        | none => none
        | some (key, reading) => readFlowEntries fuel false ((key, .absent) :: reversed) reading

end

/-! ### Documents -/

/-- The directives in front of a document, and the tokens behind them. The version is declared once
at most, and so is each handle. -/
def readDirectives (versioned : Bool) (handles : Handles) :
    List Token → Option (Handles × List Token)
  | .directive (.version major minor) :: rest =>
    if versioned || major != 1 || (minor != 1 && minor != 2) then none
    else readDirectives true handles rest
  | .directive (.handle name meaning) :: rest =>
    if handles.any fun entry => entry.1 == name then none
    else readDirectives versioned ((name, meaning) :: handles) rest
  | tokens => some (handles ++ standardHandles, tokens)

/-- A fuel that no document of these tokens uses up: among any five steps of the reader in a row,
one takes a token. -/
def fuelFor (tokens : List Token) : Nat :=
  5 * tokens.length + 5

/-- Reads the root node, which may be left out behind a mark for the start of the document. -/
def readRoot (handles : Handles) (marked : Bool) (tokens : List Token) :
    Option (Node × Reading) :=
  let reading : Reading := ⟨tokens, handles, {}⟩
  match tokens with
  | [] | .directive _ :: _ | .documentStart :: _ | .documentEnd :: _ =>
    if marked then some (.absent, reading) else none
  | _ => readNode (fuelFor tokens) true false reading

/-- Reads the tokens of at most one document; without any, nothing is written. Behind the document
only marks for its end may stand. -/
def readTokens (tokens : List Token) : Option Document :=
  match tokens with
  | [] => some ⟨.absent, []⟩
  | _ =>
    match
      match readDirectives false [] tokens with
      | some (handles, .documentStart :: behind) => readRoot handles true behind
      | _ => readRoot standardHandles false tokens with
    | none => none
    | some (root, reading) =>
      if reading.tokens.all (· == .documentEnd) then some ⟨root, reading.anchors.named⟩ else none

/-- Reads a text that holds one document or none. -/
def readDocument (text : List Char) : Option Document :=
  if text.all isAllowed then (tokens? (unifyBreaks text)).bind readTokens else none

end RecordDiff.Yaml
