import RecordDiff.Fault
import RecordDiff.Settings
import RecordDiff.Text.Lines

/-!
The arguments of a run. A run is one of three commands, `diff`, `schema` and `init`, each with its
own options; two options belong to all of them and may also stand in front of the command. An
option that takes a value takes it behind an equals sign or from the next argument, two dashes end
the options, and what is no option is a positional value. A value is settled, and checked, when the
next argument has been recognised or the arguments end; so an unknown argument is reported before
a bad value in front of it. Main statement:

- `readOffset_prefixed`: behind either of its two marks an offset is hexadecimal.
-/

namespace RecordDiff.Command

/-! ### Refusals -/

/-- Why arguments give no command to run. -/
inductive Refusal where
  /-- Help was asked for. -/
  | help
  /-- The version was asked for. -/
  | version
  /-- There are no arguments, so that help is shown. -/
  | helpForNothing
  /-- There are options, but no command. -/
  | missingCommand
  /-- The command needs a value that is not there. -/
  | missingValue
  /-- An argument is no option of the command, or one too many. -/
  | unknownArgument
  /-- An argument stands where only a command may. -/
  | unknownCommand
  /-- A value is missing, empty or none of those allowed. -/
  | invalidValue
  /-- An option is given twice. -/
  | repeated
  /-- A value is given to an option that takes none. -/
  | unwantedValue
  /-- The offset is no number. -/
  | badOffset (value : String) (cause : Text.NumeralFault)
  deriving DecidableEq, Repr

/-- What a refusal has to say beside its kind. -/
def Refusal.message? : Refusal → Option String
  | badOffset value cause => some ("invalid offset '" ++ value ++ "': " ++ cause.message)
  | _ => none

/-- The exit code of a run whose arguments are refused. -/
def Refusal.exitCode : Refusal → Nat
  | help | version => 0
  | _ => 2

/-! ### Values -/

/-- An offset: hexadecimal behind `0x` or `0X`, else decimal. -/
def readOffset : List Char → Except Text.NumeralFault Nat
  | '0' :: 'x' :: digits => Text.readNumeral 16 digits
  | '0' :: 'X' :: digits => Text.readNumeral 16 digits
  | digits => Text.readNumeral 10 digits

/-- What a value or a switch stands for. -/
inductive Slot where
  | verbose | config | schema | root | label | offset | diffOnly | showUnknown | showPrecomputed
  | format | force | left | right | target | help | version
  deriving DecidableEq, Repr

/-- How an option behaves. -/
inductive SlotUse where
  /-- It takes a value and may stand once. -/
  | value
  /-- It takes no value and may stand once. -/
  | switch
  /-- It takes no value and may stand any number of times. -/
  | counter
  /-- It ends the reading of arguments. -/
  | stop (refusal : Refusal)

/-- How the option of a slot behaves. -/
def Slot.use : Slot → SlotUse
  | verbose => .counter
  | diffOnly | showUnknown | showPrecomputed | force => .switch
  | help => .stop .help
  | version => .stop .version
  | config | schema | root | label | offset | format | left | right | target => .value

/-- Whether the value of a slot is a path. -/
def Slot.isPath : Slot → Bool
  | config | schema | left | right | target => true
  | _ => false

/-- Checks the value of a slot. -/
def Slot.check (slot : Slot) (value : String) : Except Refusal Unit :=
  if slot.isPath then if value.isEmpty then .error .invalidValue else .ok ()
  else
    match slot with
    | format => if (Format.ofWord? value).isSome then .ok () else .error .invalidValue
    | offset =>
      match readOffset value.toList with
      | .ok _ => .ok ()
      | .error cause => .error (.badOffset value cause)
    | _ => .ok ()

/-! ### Commands and their options -/

/-- The commands, and the one that shows help for another. -/
inductive CommandName where
  | diff | schema | init | help
  deriving DecidableEq, Repr

/-- The command of a name. -/
def CommandName.ofWord? (word : String) : Option CommandName :=
  if word = "diff" then some diff
  else if word = "schema" then some schema
  else if word = "init" then some init
  else if word = "help" then some help
  else none

/-- The options that may stand anywhere, by their long names. -/
def commonOptions : List (String × Slot) :=
  [("verbose", .verbose), ("config", .config), ("help", .help), ("version", .version)]

/-- The options of a single letter. -/
def letterOptions : List (Char × Slot) :=
  [('v', .verbose), ('h', .help), ('V', .version)]

/-- The options of a command by their long names. -/
def CommandName.options : CommandName → List (String × Slot)
  | diff =>
    [("schema", .schema), ("root", .root), ("label", .label), ("offset", .offset),
      ("diff-only", .diffOnly), ("show-unknown", .showUnknown),
      ("show-precomputed", .showPrecomputed), ("format", .format)] ++ commonOptions
  | schema => [("schema", .schema), ("root", .root)] ++ commonOptions
  | init => ("force", .force) :: commonOptions
  | help => commonOptions

/-- The positional values of a command in order. -/
def CommandName.positionals : CommandName → List Slot
  | diff => [.left, .right]
  | init => [.target]
  | schema | help => []

/-! ### Reading -/

/-- A value that is not settled yet. -/
structure Pending where
  slot : Slot
  /-- The value; an option that still waits for its value has none. -/
  value : Option String
  deriving DecidableEq, Repr

/-- What has been read of the arguments of a level. -/
structure Scan where
  /-- The settled slots with their values, the latest first. -/
  settled : List (Slot × String) := []
  pending : Option Pending := none
  /-- The positional values to come. -/
  positionals : List Slot
  /-- Whether two dashes have ended the options. -/
  ended : Bool := false
  deriving Repr

namespace Scan

/-- Whether a slot is settled. -/
def has (scan : Scan) (slot : Slot) : Bool :=
  scan.settled.any fun entry => entry.1 == slot

/-- The value of a settled slot. -/
def value? (scan : Scan) (slot : Slot) : Option String :=
  (scan.settled.find? fun entry => entry.1 == slot).map Prod.snd

/-- Whether an option waits for its value. -/
def isWaiting (scan : Scan) : Bool :=
  match scan.pending with
  | some pending => pending.value.isNone
  | none => false

/-- Settles a value. That it is the first one for its slot counts before the value itself. -/
def accept (scan : Scan) (slot : Slot) (value : String) : Except Refusal Scan :=
  if scan.has slot then .error .repeated
  else
    match slot.check value with
    | .error refusal => .error refusal
    | .ok () => .ok { scan with settled := (slot, value) :: scan.settled }

/-- Settles what is pending. -/
def settle (scan : Scan) : Except Refusal Scan :=
  match scan.pending with
  | none => .ok scan
  | some ⟨_, none⟩ => .error .invalidValue
  | some ⟨slot, some value⟩ => { scan with pending := none }.accept slot value

/-- Takes an option without a value. -/
def takeSwitch (scan : Scan) (slot : Slot) : Except Refusal Scan :=
  match scan.settle with
  | .error refusal => .error refusal
  | .ok scan =>
    match slot.use with
    | .stop refusal => .error refusal
    | .counter => .ok { scan with settled := (slot, "") :: scan.settled }
    | _ => scan.accept slot ""

/-- Takes an option that wants a value, which may be attached to it. -/
def takeValue (scan : Scan) (slot : Slot) (attached : Option String) : Except Refusal Scan :=
  match scan.settle with
  | .error refusal => .error refusal
  | .ok scan =>
    match attached with
    | some value => scan.accept slot value
    | none => .ok { scan with pending := some ⟨slot, none⟩ }

/-- Takes an option by its long name, with what is attached to it. -/
def takeLong (scan : Scan) (options : List (String × Slot)) (name : String)
    (attached : Option String) : Except Refusal Scan :=
  match (options.find? fun option => option.1 == name).map Prod.snd with
  | none => .error .unknownArgument
  | some slot =>
    match slot.use with
    | .value => scan.takeValue slot attached
    | _ => if attached.isSome then .error .unwantedValue else scan.takeSwitch slot

/-- Takes options of a single letter, one after another. -/
def takeLetters (scan : Scan) : List Char → Except Refusal Scan
  | [] => .ok scan
  | letter :: rest =>
    match (letterOptions.find? fun option => option.1 == letter).map Prod.snd with
    | none => .error .unknownArgument
    | some slot =>
      match scan.takeSwitch slot with
      | .error refusal => .error refusal
      | .ok scan => scan.takeLetters rest

/-- Takes a positional value; where none is to come, the argument is refused as `surplus`. -/
def takePositional (scan : Scan) (surplus : Refusal) (argument : String) : Except Refusal Scan :=
  match scan.positionals with
  | [] => .error surplus
  | slot :: rest =>
    match scan.settle with
    | .error refusal => .error refusal
    | .ok scan =>
      .ok { scan with pending := some ⟨slot, some argument⟩, positionals := rest }

end Scan

/-- An argument by its shape. -/
inductive Shape where
  /-- Two dashes alone. -/
  | doubleDash
  /-- Two dashes and a name, with what follows an equals sign. -/
  | long (name : String) (attached : Option String)
  /-- One dash and letters. -/
  | letters (letters : List Char)
  /-- Anything else. -/
  | plain
  deriving DecidableEq, Repr

/-- A long option cut at its first equals sign. -/
def Shape.ofLong (text : List Char) : Shape :=
  let name := text.takeWhile (· != '=')
  match text.dropWhile (· != '=') with
  | [] => .long (String.ofList name) none
  | _ :: value => .long (String.ofList name) (some (String.ofList value))

/-- The shape of an argument. -/
def Shape.of (argument : String) : Shape :=
  match argument.toList with
  | '-' :: '-' :: [] => .doubleDash
  | '-' :: '-' :: rest => .ofLong rest
  | '-' :: letter :: rest => .letters (letter :: rest)
  | _ => .plain

/-- Takes the next argument of a level with the given options. -/
def Scan.take (scan : Scan) (options : List (String × Slot)) (surplus : Refusal)
    (argument : String) : Except Refusal Scan :=
  if scan.ended then scan.takePositional surplus argument
  else
    match Shape.of argument with
    | .doubleDash => .ok { scan with ended := true }
    | .long name attached => scan.takeLong options name attached
    | .letters letters => scan.takeLetters letters
    | .plain =>
      match scan.pending with
      | some ⟨slot, none⟩ => .ok { scan with pending := some ⟨slot, some argument⟩ }
      | _ => scan.takePositional surplus argument

/-- Reads all arguments of a command. -/
def scanCommand (name : CommandName) (scan : Scan) : List String → Except Refusal Scan
  | [] => scan.settle
  | argument :: rest =>
    match scan.take name.options .unknownArgument argument with
    | .error refusal => .error refusal
    | .ok scan => scanCommand name scan rest

/-- The reading of the arguments of a command from their start. -/
def CommandName.scan (name : CommandName) (arguments : List String) : Except Refusal Scan :=
  scanCommand name { positionals := name.positionals } arguments

/-! ### Commands -/

/-- The arguments of `diff`. What is not given is left to the settings. -/
structure DiffArguments where
  left : String
  right : Option String
  schema : Option String
  root : Option String
  label : Option String
  offset : Option Nat
  filter : Comparison.Filter
  format : Option Format
  deriving DecidableEq, Repr

/-- The arguments of `schema`. -/
structure SchemaArguments where
  schema : Option String
  root : Option String
  deriving DecidableEq, Repr

/-- The arguments of `init`. -/
structure InitArguments where
  path : String
  force : Bool
  deriving DecidableEq, Repr

/-- A command with its arguments. -/
inductive Action where
  | diff (arguments : DiffArguments)
  | schema (arguments : SchemaArguments)
  | init (arguments : InitArguments)
  deriving DecidableEq, Repr

/-- A run: its settings file, if one is named, how much it reports, and what it does. -/
structure Invocation where
  config : Option String
  verbosity : Nat
  action : Action
  deriving DecidableEq, Repr

/-- The offset that a value stands for. -/
def offset? (value : String) : Option Nat :=
  (readOffset value.toList).toOption

/-- The arguments of `diff` that were read. -/
def DiffArguments.ofScan (scan : Scan) : Except Refusal DiffArguments :=
  match scan.value? .left with
  | none => .error .missingValue
  | some left =>
    .ok
      { left
        right := scan.value? .right
        schema := scan.value? .schema
        root := scan.value? .root
        label := scan.value? .label
        offset := (scan.value? .offset).bind offset?
        filter := ⟨scan.has .diffOnly, scan.has .showUnknown, scan.has .showPrecomputed⟩
        format := (scan.value? .format).bind Format.ofWord? }

/-- The action of a command whose arguments were read. -/
def Action.ofScan (name : CommandName) (scan : Scan) : Except Refusal Action :=
  match name with
  | .diff => (DiffArguments.ofScan scan).map .diff
  | .schema => .ok (.schema ⟨scan.value? .schema, scan.value? .root⟩)
  | .init => .ok (.init ⟨(scan.value? .target).getD Settings.fileName, scan.has .force⟩)
  | .help => .error .help

/-- The number of times that a slot is settled. -/
def Scan.count (scan : Scan) (slot : Slot) : Nat :=
  scan.settled.countP fun entry => entry.1 == slot

/-- Reads a command and its arguments behind options that are common to all. What stands behind the
command counts before what stands in front of it. -/
def readCommand (outer : Scan) (name : CommandName) (arguments : List String) :
    Except Refusal Invocation :=
  match name.scan arguments with
  | .error refusal => .error refusal
  | .ok inner =>
    match Action.ofScan name inner with
    | .error refusal => .error refusal
    | .ok action =>
      match outer.settle with
      | .error refusal => .error refusal
      | .ok outer =>
        let verbosity := inner.count .verbose
        .ok
          { config := (inner.value? .config).or (outer.value? .config)
            verbosity := if verbosity = 0 then outer.count .verbose else verbosity
            action }

/-- What the command `help` gives for what stands behind it: help for one command, or for all. -/
def readHelp : List String → Refusal
  | [] => .help
  | word :: rest =>
    if (CommandName.ofWord? word).isSome && rest.isEmpty then .help else .unknownCommand

/-- The refusal of arguments that end without a command. -/
def withoutCommand (outer : Scan) : Refusal :=
  match outer.settle with
  | .error refusal => refusal
  | .ok outer => if outer.settled.isEmpty then .helpForNothing else .missingCommand

/-- Reads arguments from in front of the command on. -/
def readFrom (outer : Scan) : List String → Except Refusal Invocation
  | [] => .error (withoutCommand outer)
  | argument :: rest =>
    let name := CommandName.ofWord? argument
    match if outer.ended || outer.isWaiting then none else name with
    | some .help => .error (readHelp rest)
    | some name => readCommand outer name rest
    | none =>
      let surplus := if outer.ended && name.isSome then .unknownArgument else .unknownCommand
      match outer.take commonOptions surplus argument with
      | .error refusal => .error refusal
      | .ok outer => readFrom outer rest

/-- Reads the arguments of a run, its own name left out. -/
def readArguments (arguments : List String) : Except Refusal Invocation :=
  readFrom { positionals := [] } arguments

/-! ### Small laws -/

theorem readOffset_prefixed (digits : List Char) :
    readOffset ('0' :: 'x' :: digits) = Text.readNumeral 16 digits ∧
      readOffset ('0' :: 'X' :: digits) = Text.readNumeral 16 digits := ⟨rfl, rfl⟩

end RecordDiff.Command
