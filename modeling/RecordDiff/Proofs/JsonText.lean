import RecordDiff.Proofs.Numerals
import RecordDiff.View.Json

/-!
The texts of JSON values. A value has many texts, which differ in the spaces between their parts and
in how characters are escaped; the grammar here has them all, for values whose numbers are natural.
A reader finds the value again, whatever text was chosen, so a text has one value at most. Main
statements:

- `readCharacters_of_spelling`: a string is read as what its characters spell, escaped or not;
- `Value.read`: what the grammar has is read, with the right value and up to its very end;
- `read?_of_denotes`: so is a whole text;
- `Denotes.unique`: a text has one value at most.
-/

namespace RecordDiff.View.Json

/-! ### Grammar -/

/-- The characters that may stand between the parts of a text. -/
def isSpace (c : Char) : Bool :=
  c = ' ' || c = '\t' || c = '\n' || c = '\r'

/-- A text of spaces, line breaks and tabs alone. -/
def Spaces (text : List Char) : Prop :=
  ∀ c ∈ text, isSpace c = true

/-- The character of a letter behind a backslash. -/
def escapeLetter? : Char → Option Char
  | '"' => some '"'
  | '\\' => some '\\'
  | '/' => some '/'
  | 'b' => some '\x08'
  | 'f' => some '\x0C'
  | 'n' => some '\n'
  | 'r' => some '\r'
  | 't' => some '\t'
  | _ => none

/-- Four hexadecimal digits of a number of 16 bits. -/
def IsUnit (digits : List Char) (unit : Nat) : Prop :=
  digits.length = 4 ∧ Text.readDigits 16 0 digits = .ok unit

/-- The ways to spell one character of a string. -/
inductive Spells : List Char → Char → Prop where
  /-- The character itself, unless it is a quote, a backslash or a control. -/
  | itself {c : Char} (noQuote : c ≠ '"') (noBackslash : c ≠ '\\') (printing : 0x20 ≤ c.toNat) :
      Spells [c] c
  /-- A letter behind a backslash. -/
  | letter {name c : Char} (known : escapeLetter? name = some c) : Spells ['\\', name] c
  /-- The number of the character. -/
  | unit {digits : List Char} {c : Char} (isUnit : IsUnit digits c.toNat) :
      Spells ('\\' :: 'u' :: digits) c
  /-- Two halves of 10 bits each, for a number that needs more than 16 bits. -/
  | pair {high low : List Char} {upper lower : Nat} {c : Char} (isHigh : IsUnit high upper)
      (isLow : IsUnit low lower) (fromHigh : 0xD800 ≤ upper) (toHigh : upper < 0xDC00)
      (fromLow : 0xDC00 ≤ lower) (toLow : lower < 0xE000)
      (whole : c.toNat = 0x10000 + (upper - 0xD800) * 0x400 + (lower - 0xDC00)) :
      Spells ('\\' :: 'u' :: high ++ '\\' :: 'u' :: low) c

/-- The ways to spell the characters of a string, one after the other. -/
inductive Spelling : List Char → List Char → Prop where
  | nil : Spelling [] []
  | cons {front rest : List Char} {c : Char} {chars : List Char} (first : Spells front c)
      (others : Spelling rest chars) : Spelling (front ++ rest) (c :: chars)

/-- A string between its quotes. -/
inductive Quoted : List Char → String → Prop where
  | mk {body : List Char} {text : String} (spelling : Spelling body text.toList) :
      Quoted ('"' :: body ++ ['"']) text

/-- A name between spaces. -/
inductive Name : List Char → String → Prop where
  | mk {before text behind : List Char} {name : String} (spacesBefore : Spaces before)
      (quoted : Quoted text name) (spacesBehind : Spaces behind) :
      Name (before ++ text ++ behind) name

mutual

/-- A value from its first character to its last. -/
inductive Value : List Char → Json → Prop where
  | null : Value ['n', 'u', 'l', 'l'] .null
  | number (value : Nat) : Value (Text.decimal value) (.number value)
  | string {text : List Char} {value : String} (quoted : Quoted text value) :
      Value text (.string value)
  | emptyArray {gap : List Char} (spaces : Spaces gap) : Value ('[' :: gap ++ [']']) (.array [])
  | array {text : List Char} {values : List Json} (elements : Elements text values) :
      Value ('[' :: text ++ [']']) (.array values)
  | emptyObject {gap : List Char} (spaces : Spaces gap) :
      Value ('\x7b' :: gap ++ ['\x7d']) (.object [])
  | object {text : List Char} {entries : List (String × Json)} (members : Members text entries) :
      Value ('\x7b' :: text ++ ['\x7d']) (.object entries)

/-- A value between spaces, which is what a whole text is. -/
inductive Denotes : List Char → Json → Prop where
  | mk {before text behind : List Char} {json : Json} (spacesBefore : Spaces before)
      (value : Value text json) (spacesBehind : Spaces behind) :
      Denotes (before ++ text ++ behind) json

/-- One or more values with commas between them. -/
inductive Elements : List Char → List Json → Prop where
  | last {text : List Char} {json : Json} (element : Denotes text json) : Elements text [json]
  | more {text rest : List Char} {json : Json} {others : List Json} (element : Denotes text json)
      (further : Elements rest others) : Elements (text ++ ',' :: rest) (json :: others)

/-- One or more members with commas between them. -/
inductive Members : List Char → List (String × Json) → Prop where
  | last {front text : List Char} {name : String} {json : Json} (label : Name front name)
      (value : Denotes text json) : Members (front ++ ':' :: text) [(name, json)]
  | more {front text rest : List Char} {name : String} {json : Json}
      {others : List (String × Json)} (label : Name front name) (value : Denotes text json)
      (further : Members rest others) :
      Members (front ++ ':' :: (text ++ ',' :: rest)) ((name, json) :: others)

end

/-! ### Reader -/

/-- What is behind the spaces in front of a text. -/
def skipSpaces (text : List Char) : List Char :=
  text.dropWhile isSpace

/-- The number of four hexadecimal digits, and what is behind them. -/
def readUnit (text : List Char) : Option (Nat × List Char) :=
  if (text.take 4).length = 4 then
    (Text.readDigits 16 0 (text.take 4)).toOption.map fun unit => (unit, text.drop 4)
  else none

/-- The character of a number, if there is one. -/
def charOf? (point : Nat) : Option Char :=
  if point.isValidChar then some (Char.ofNat point) else none

/-- The character of an escaped number, which may be the first of two halves. -/
def readPoint (text : List Char) : Option (Char × List Char) := do
  let (upper, rest) ← readUnit text
  if 0xD800 ≤ upper ∧ upper < 0xDC00 then
    match rest with
    | '\\' :: 'u' :: rest =>
      let (lower, rest) ← readUnit rest
      if 0xDC00 ≤ lower ∧ lower < 0xE000 then
        (charOf? (0x10000 + (upper - 0xD800) * 0x400 + (lower - 0xDC00))).map (·, rest)
      else none
    | _ => none
  else (charOf? upper).map (·, rest)

/-- One character of a string. -/
def readCharacter : List Char → Option (Char × List Char)
  | '\\' :: 'u' :: rest => readPoint rest
  | '\\' :: name :: rest => (escapeLetter? name).map (·, rest)
  | c :: rest => if c = '"' ∨ c = '\\' ∨ c.toNat < 0x20 then none else some (c, rest)
  | [] => none

/-- The characters of a string up to its quote, at most as many as the fuel, and what is behind the
quote. -/
def readCharacters : Nat → List Char → Option (List Char × List Char)
  | _, '"' :: rest => some ([], rest)
  | 0, _ => none
  | fuel + 1, text => do
    let (c, rest) ← readCharacter text
    let (chars, rest) ← readCharacters fuel rest
    some (c :: chars, rest)

/-- A string behind its first quote. -/
def readString (text : List Char) : Option (String × List Char) :=
  (readCharacters text.length text).map fun (chars, rest) => (String.ofList chars, rest)

/-- A number without zeros in front of it. -/
def readNumber (text : List Char) : Option (Nat × List Char) :=
  let digits := text.takeWhile Char.isDigit
  let value := Nat.ofDigitChars 10 digits 0
  if Text.decimal value = digits then some (value, text.dropWhile Char.isDigit) else none

mutual

/-- A value, and what is behind it. Each step down and each further element takes one of the
fuel. -/
def readValue : Nat → List Char → Option (Json × List Char)
  | 0, _ => none
  | fuel + 1, text =>
    match text with
    | 'n' :: 'u' :: 'l' :: 'l' :: rest => some (.null, rest)
    | '"' :: rest => (readString rest).map fun (value, rest) => (.string value, rest)
    | '[' :: rest =>
      match skipSpaces rest with
      | ']' :: rest => some (.array [], rest)
      | _ => (readElements fuel rest).map fun (values, rest) => (.array values, rest)
    | '\x7b' :: rest =>
      match skipSpaces rest with
      | '\x7d' :: rest => some (.object [], rest)
      | _ => (readMembers fuel rest).map fun (entries, rest) => (.object entries, rest)
    | text => (readNumber text).map fun (value, rest) => (.number value, rest)

/-- Values up to a closing bracket, and what is behind it. -/
def readElements : Nat → List Char → Option (List Json × List Char)
  | 0, _ => none
  | fuel + 1, text => do
    let (value, rest) ← readValue fuel (skipSpaces text)
    match skipSpaces rest with
    | ']' :: rest => some ([value], rest)
    | ',' :: rest =>
      let (others, rest) ← readElements fuel rest
      some (value :: others, rest)
    | _ => none

/-- Members up to a closing brace, and what is behind it. -/
def readMembers : Nat → List Char → Option (List (String × Json) × List Char)
  | 0, _ => none
  | fuel + 1, text =>
    match skipSpaces text with
    | '"' :: rest => do
      let (name, rest) ← readString rest
      match skipSpaces rest with
      | ':' :: rest =>
        let (value, rest) ← readValue fuel (skipSpaces rest)
        match skipSpaces rest with
        | '\x7d' :: rest => some ([(name, value)], rest)
        | ',' :: rest =>
          let (others, rest) ← readMembers fuel rest
          some ((name, value) :: others, rest)
        | _ => none
      | _ => none
    | _ => none

end

/-- The value of a whole text. -/
def read? (text : List Char) : Option Json := do
  let (json, rest) ← readValue text.length (skipSpaces text)
  if (skipSpaces rest).isEmpty then some json else none

/-! ### Spaces -/

/-- A text that does not start with a space. -/
def Starts (text : List Char) : Prop :=
  ∀ c rest, text = c :: rest → isSpace c = false

theorem Starts.cons {c : Char} {rest : List Char} (noSpace : isSpace c = false) :
    Starts (c :: rest) := by
  rintro _ _ ⟨⟩
  exact noSpace

theorem skipSpaces_append {gap text : List Char} (spaces : Spaces gap) (starts : Starts text) :
    skipSpaces (gap ++ text) = text := by
  rw [skipSpaces, List.dropWhile_append_of_pos spaces]
  cases text with
  | nil => rfl
  | cons c rest => rw [List.dropWhile_cons_of_neg (by simp [starts c rest rfl])]

theorem skipSpaces_cons {gap : List Char} (spaces : Spaces gap) (c : Char) (rest : List Char)
    (noSpace : isSpace c = false) : skipSpaces (gap ++ c :: rest) = c :: rest :=
  skipSpaces_append spaces (.cons noSpace)

/-! ### Strings -/

theorem readUnit_append {digits rest : List Char} {unit : Nat} (isUnit : IsUnit digits unit) :
    readUnit (digits ++ rest) = some (unit, rest) := by
  obtain ⟨four, read⟩ := isUnit
  rw [readUnit, ← four, List.take_left, List.drop_left, if_pos rfl, read]
  rfl

theorem charOf?_toNat (c : Char) : charOf? c.toNat = some c := by
  have valid : c.toNat.isValidChar := c.valid
  rw [charOf?, if_pos valid, Char.ofNat_toNat]

/-- A number that is a character is no half of a pair. -/
theorem noHalf (c : Char) : ¬(0xD800 ≤ c.toNat ∧ c.toNat < 0xDC00) := by
  have valid : c.toNat < 0xD800 ∨ (0xDFFF < c.toNat ∧ c.toNat < 0x110000) := c.valid
  omega

/-- What spells a character is read as that character, and never starts with a quote. -/
theorem readCharacter_of_spells {text : List Char} {c : Char} (spells : Spells text c)
    (rest : List Char) :
    readCharacter (text ++ rest) = some (c, rest) ∧ text.head? ≠ some '"' ∧ text ≠ [] := by
  cases spells with
  | itself noQuote noBackslash printing =>
    have noControl : ¬c.toNat < 0x20 := by omega
    refine ⟨?_, by simpa using noQuote, by simp⟩
    simp [readCharacter, noQuote, noBackslash, noControl]
  | @letter name _ known =>
    have noUnit : name ≠ 'u' := by
      rintro rfl
      cases known
    refine ⟨?_, by simp, by simp⟩
    rw [List.cons_append, List.cons_append, readCharacter, known]
    · rfl
    · exact noUnit
  | unit isUnit =>
    refine ⟨?_, by simp, by simp⟩
    simp only [List.cons_append, readCharacter, readPoint, readUnit_append isUnit]
    simp [noHalf c, charOf?_toNat]
  | pair isHigh isLow fromHigh toHigh fromLow toLow whole =>
    refine ⟨?_, by simp, by simp⟩
    simp only [List.cons_append, List.append_assoc, readCharacter, readPoint,
      readUnit_append isHigh]
    simp [fromHigh, toHigh, readUnit_append isLow, fromLow, toLow, ← whole, charOf?_toNat]

/-- A string is read as what its characters spell, escaped or not. -/
theorem readCharacters_of_spelling {body chars : List Char} (spelling : Spelling body chars)
    {fuel : Nat} (enough : body.length ≤ fuel) (rest : List Char) :
    readCharacters fuel (body ++ '"' :: rest) = some (chars, rest) := by
  induction spelling generalizing fuel with
  | nil => cases fuel <;> rfl
  | @cons front others c chars first _ ih =>
    obtain ⟨read, noQuote, nonempty⟩ := readCharacter_of_spells first (others ++ '"' :: rest)
    obtain ⟨head, tail, rfl⟩ := List.exists_cons_of_ne_nil nonempty
    obtain ⟨fuel, rfl⟩ : ∃ less, fuel = less + 1 := ⟨fuel - 1, by simp at enough; omega⟩
    have further : readCharacters fuel (others ++ '"' :: rest) = some (chars, rest) :=
      ih (by simp at enough; omega)
    have headNoQuote : head ≠ '"' := by simpa using noQuote
    rw [List.append_assoc]
    rw [List.cons_append] at read ⊢
    rw [readCharacters, read]
    · simp [further]
    · intro _ same
      exact headNoQuote (List.cons.inj same).1

theorem Quoted.read {text : List Char} {value : String} (quoted : Quoted text value)
    (rest : List Char) :
    ∃ body, text = '"' :: body ∧ readString (body ++ rest) = some (value, rest) := by
  obtain ⟨spelling⟩ := quoted
  rename_i body
  refine ⟨body ++ ['"'], rfl, ?_⟩
  rw [readString, List.append_assoc, List.singleton_append,
    readCharacters_of_spelling spelling (by simp) rest]
  simp

/-! ### Values -/

theorem isSpace_of_isDigit {c : Char} (digit : c.isDigit = true) : isSpace c = false := by
  cases space : isSpace c with
  | false => rfl
  | true =>
    have known : ((c = ' ' ∨ c = '\t') ∨ c = '\n') ∨ c = '\r' := by simpa [isSpace] using space
    rcases known with ((rfl | rfl) | rfl) | rfl <;> exact absurd digit (by decide)

/-- A text that does not start with a digit. -/
def EndsNumber (text : List Char) : Prop :=
  ∀ c rest, text = c :: rest → c.isDigit = false

theorem EndsNumber.cons {c : Char} {rest : List Char} (noDigit : c.isDigit = false) :
    EndsNumber (c :: rest) := by
  rintro _ _ ⟨⟩
  exact noDigit

theorem readNumber_decimal (value : Nat) {rest : List Char} (ends : EndsNumber rest) :
    readNumber (Text.decimal value ++ rest) = some (value, rest) := by
  have digits : ∀ c ∈ Text.decimal value, c.isDigit = true := fun c mem =>
    Text.isDigit_of_mem_decimal mem
  have noMore : rest.takeWhile Char.isDigit = [] ∧ rest.dropWhile Char.isDigit = rest := by
    cases rest with
    | nil => exact ⟨rfl, rfl⟩
    | cons c rest => simp [ends c rest rfl]
  have back : Nat.ofDigitChars 10 (Text.decimal value) 0 = value :=
    Nat.ofDigitChars_ten_toDigits
  simp only [readNumber, List.takeWhile_append_of_pos digits, List.dropWhile_append_of_pos digits,
    noMore.1, noMore.2, List.append_nil, back, if_pos]

/-- What may stand behind a value and its spaces. -/
structure Closes (text : List Char) : Prop where
  starts : Starts text
  endsNumber : EndsNumber text

theorem Closes.nil : Closes [] :=
  ⟨fun _ _ same => (List.cons_ne_nil _ _ same.symm).elim,
    fun _ _ same => (List.cons_ne_nil _ _ same.symm).elim⟩

theorem Closes.cons {c : Char} {rest : List Char} (noSpace : isSpace c = false)
    (noDigit : c.isDigit = false) : Closes (c :: rest) :=
  ⟨.cons noSpace, .cons noDigit⟩

theorem EndsNumber.of_spaces {gap rest : List Char} (spaces : Spaces gap)
    (ends : EndsNumber rest) : EndsNumber (gap ++ rest) := by
  cases gap with
  | nil => exact ends
  | cons c gap =>
    refine .cons ?_
    cases digit : c.isDigit with
    | false => rfl
    | true => exact absurd (spaces c (by simp)) (by simp [isSpace_of_isDigit digit])

/-- How a value starts: never with a space, nor with what closes an array. -/
theorem Value.head {text : List Char} {json : Json} (value : Value text json) :
    ∃ c tail, text = c :: tail ∧ isSpace c = false ∧ c ≠ ']' := by
  cases value with
  | null => exact ⟨_, _, rfl, by decide⟩
  | number value =>
    obtain ⟨c, tail, shape, digit⟩ := Text.decimal_head value
    refine ⟨c, tail, shape, isSpace_of_isDigit digit, ?_⟩
    rintro rfl
    exact absurd digit (by decide)
  | string quoted =>
    obtain ⟨spelling⟩ := quoted
    exact ⟨_, _, rfl, by decide⟩
  | emptyArray _ => exact ⟨_, _, rfl, by decide⟩
  | array _ => exact ⟨_, _, rfl, by decide⟩
  | emptyObject _ => exact ⟨_, _, rfl, by decide⟩
  | object _ => exact ⟨_, _, rfl, by decide⟩

theorem Denotes.head {text : List Char} {json : Json} (denotes : Denotes text json)
    (rest : List Char) : ∃ c tail, skipSpaces (text ++ rest) = c :: tail ∧ c ≠ ']' := by
  obtain ⟨spacesBefore, value, -⟩ := denotes
  obtain ⟨c, tail, rfl, noSpace, noBracket⟩ := value.head
  rename_i before behind
  refine ⟨c, tail ++ (behind ++ rest), ?_, noBracket⟩
  simpa using skipSpaces_cons spacesBefore c (tail ++ (behind ++ rest)) noSpace

theorem Elements.head {text : List Char} {values : List Json} (elements : Elements text values)
    (rest : List Char) : ∃ c tail, skipSpaces (text ++ rest) = c :: tail ∧ c ≠ ']' := by
  cases elements with
  | last element => exact element.head rest
  | @more _ others _ _ element _ => simpa using element.head (',' :: others ++ rest)

/-- A name is read up to what stands behind its spaces. -/
theorem Name.read {text : List Char} {name : String} (label : Name text name) (rest : List Char)
    (starts : Starts rest) :
    ∃ body behind, skipSpaces (text ++ rest) = '"' :: body ∧
      readString body = some (name, behind) ∧ skipSpaces behind = rest := by
  obtain ⟨spacesBefore, quoted, spacesBehind⟩ := label
  rename_i before text behind
  obtain ⟨body, rfl, read⟩ := quoted.read (behind ++ rest)
  refine ⟨body ++ (behind ++ rest), behind ++ rest, ?_, read, skipSpaces_append spacesBehind starts⟩
  simpa using skipSpaces_cons spacesBefore '"' (body ++ (behind ++ rest)) rfl

theorem Members.head {text : List Char} {entries : List (String × Json)}
    (members : Members text entries) (rest : List Char) :
    ∃ tail, skipSpaces (text ++ rest) = '"' :: tail := by
  cases members with
  | @last _ text _ _ label _ =>
    obtain ⟨body, _, shape, -, -⟩ := label.read (':' :: (text ++ rest)) (.cons rfl)
    exact ⟨body, by simpa using shape⟩
  | @more _ text others _ _ _ label _ _ =>
    obtain ⟨body, _, shape, -, -⟩ :=
      label.read (':' :: (text ++ ',' :: (others ++ rest))) (.cons rfl)
    exact ⟨body, by simpa using shape⟩

theorem readValue_decimal (fuel value : Nat) {rest : List Char} (ends : EndsNumber rest) :
    readValue (fuel + 1) (Text.decimal value ++ rest) = some (.number value, rest) := by
  have read := readNumber_decimal value ends
  obtain ⟨c, tail, shape, digit⟩ := Text.decimal_head value
  rw [shape] at read ⊢
  have other : c ≠ 'n' ∧ c ≠ '"' ∧ c ≠ '[' ∧ c ≠ '\x7b' := by
    refine ⟨?_, ?_, ?_, ?_⟩ <;>
    · rintro rfl
      exact absurd digit (by decide)
  rw [List.cons_append] at read ⊢
  simp [readValue, other, read]

-- The fuel is at least the length of the text, and each part of a text is shorter than the whole.
mutual

/-- What the grammar has is read, with the right value and up to its very end. -/
theorem Value.read {text : List Char} {json : Json} (value : Value text json) {fuel : Nat}
    (enough : text.length ≤ fuel) {rest : List Char} (ends : EndsNumber rest) :
    readValue fuel (text ++ rest) = some (json, rest) := by
  obtain ⟨c, tail, shape, -⟩ := value.head
  obtain ⟨fuel, rfl⟩ : ∃ less, fuel = less + 1 := ⟨fuel - 1, by simp [shape] at enough; omega⟩
  cases value with
  | null => rfl
  | number value => exact readValue_decimal fuel value ends
  | string quoted =>
    obtain ⟨body, rfl, read⟩ := quoted.read rest
    simp [readValue, read]
  | emptyArray spaces =>
    have closed := skipSpaces_cons spaces ']' rest rfl
    simp [readValue, closed]
  | @array text values elements =>
    have inner : text.length < fuel := by simp at enough; omega
    obtain ⟨c, tail, head, noBracket⟩ := elements.head (']' :: rest)
    simp [readValue, head, noBracket, elements.read inner]
  | emptyObject spaces =>
    have closed := skipSpaces_cons spaces '\x7d' rest rfl
    simp [readValue, closed]
  | @object text entries members =>
    have inner : text.length < fuel := by simp at enough; omega
    obtain ⟨tail, head⟩ := members.head ('\x7d' :: rest)
    simp [readValue, head, members.read inner]

theorem Denotes.read {text : List Char} {json : Json} (denotes : Denotes text json) {fuel : Nat}
    (enough : text.length ≤ fuel) (rest : List Char) (closes : Closes rest) :
    ∃ behind, readValue fuel (skipSpaces (text ++ rest)) = some (json, behind) ∧
      skipSpaces behind = rest := by
  cases denotes with
  | @mk before text behind _ spacesBefore value spacesBehind =>
    obtain ⟨c, tail, shape, noSpace, -⟩ := value.head
    have front : skipSpaces (before ++ text ++ behind ++ rest) = text ++ (behind ++ rest) := by
      simp only [List.append_assoc]
      exact skipSpaces_append spacesBefore (by rw [shape]; exact .cons noSpace)
    refine ⟨behind ++ rest, ?_, skipSpaces_append spacesBehind closes.starts⟩
    rw [front]
    exact value.read (by simp at enough; omega) (.of_spaces spacesBehind closes.endsNumber)

theorem Elements.read {text : List Char} {values : List Json} (elements : Elements text values)
    {fuel : Nat} (enough : text.length < fuel) {rest : List Char} :
    readElements fuel (text ++ ']' :: rest) = some (values, rest) := by
  obtain ⟨fuel, rfl⟩ : ∃ less, fuel = less + 1 := ⟨fuel - 1, by omega⟩
  cases elements with
  | last element =>
    obtain ⟨behind, read, closed⟩ :=
      element.read (Nat.le_of_lt_succ enough) (']' :: rest) (.cons rfl rfl)
    simp [readElements, read, closed]
  | @more text others _ _ element further =>
    have shorter : text.length ≤ fuel ∧ others.length < fuel := by
      simp at enough
      omega
    obtain ⟨behind, read, closed⟩ :=
      element.read shorter.1 (',' :: (others ++ ']' :: rest)) (.cons rfl rfl)
    simp [readElements, read, closed, further.read shorter.2]

theorem Members.read {text : List Char} {entries : List (String × Json)}
    (members : Members text entries) {fuel : Nat} (enough : text.length < fuel)
    {rest : List Char} : readMembers fuel (text ++ '\x7d' :: rest) = some (entries, rest) := by
  obtain ⟨fuel, rfl⟩ : ∃ less, fuel = less + 1 := ⟨fuel - 1, by omega⟩
  cases members with
  | @last front text _ _ label value =>
    have shorter : text.length ≤ fuel := by simp at enough; omega
    obtain ⟨body, back, opened, named, colon⟩ :=
      label.read (':' :: (text ++ '\x7d' :: rest)) (.cons rfl)
    obtain ⟨behind, read, closed⟩ :=
      value.read shorter ('\x7d' :: rest) (.cons rfl rfl)
    simp [readMembers, opened, named, colon, read, closed]
  | @more front text others _ _ _ label value further =>
    have shorter : text.length ≤ fuel ∧ others.length < fuel := by
      simp at enough
      omega
    obtain ⟨body, back, opened, named, colon⟩ :=
      label.read (':' :: (text ++ ',' :: (others ++ '\x7d' :: rest))) (.cons rfl)
    obtain ⟨behind, read, closed⟩ :=
      value.read shorter.1 (',' :: (others ++ '\x7d' :: rest)) (.cons rfl rfl)
    simp [readMembers, opened, named, colon, read, closed, further.read shorter.2]

end

/-- Whatever text was chosen for a value, the value is read from it. -/
theorem read?_of_denotes {text : List Char} {json : Json} (denotes : Denotes text json) :
    read? text = some json := by
  obtain ⟨behind, read, closed⟩ := denotes.read (Nat.le_refl _) [] .nil
  rw [List.append_nil] at read
  simp [read?, read, closed]

/-- A text has one value at most. -/
theorem Denotes.unique {text : List Char} {json other : Json} (denotes : Denotes text json)
    (another : Denotes text other) : other = json := by
  have same := (read?_of_denotes another).symm.trans (read?_of_denotes denotes)
  exact Option.some.inj same

end RecordDiff.View.Json
