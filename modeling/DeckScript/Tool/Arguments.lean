import DeckScript.Tool.Settings

/-!
# Command-line arguments

The command line names the script and the file for the markup, sets the seed and turns tracing on.
Arguments are read from left to right. An option's value may be attached to it or follow as the
next argument. A value that follows, and the name of the script, is only looked at when the next
option, a further name or the end is reached; an argument that is not known at all is refused
before that.

## Main definitions

* `Arguments` — what the command line says
* `Arguments.Notice` — what is told instead when a command line is not carried out
* `Arguments.Refusal` — why a command line is refused, or what it asks for instead
* `Arguments.parse` — reading a command line
* `Arguments.apply` — the settings with those of the command line over them
-/

namespace DeckScript

/-- What the command line says. -/
structure Arguments where
  /-- The script; none for the standard input. -/
  input : Option String
  /-- The file for the markup; none for the standard output. -/
  output : Option String
  seed : Option UInt64
  trace : Bool
  deriving DecidableEq, Repr

namespace Arguments

/-- What is told instead when a command line is not carried out. -/
structure Notice where
  text : String
  /-- The command line is refused. It asks for the text otherwise. -/
  refuses : Bool
  deriving DecidableEq, Repr

/-- Why a command line is not carried out. -/
inductive Refusal where
  /-- There is no such option, or a second script is named. -/
  | unknownArgument
  /-- An option's value or a name is missing or empty. -/
  | invalidValue
  /-- A seed is no number of 64 bits. -/
  | valueValidation
  /-- An option is given twice. -/
  | argumentConflict
  /-- A value is given to an option that takes none. -/
  | tooManyValues
  | displayHelp
  | displayVersion
  deriving DecidableEq, Repr

/-- The name of a refusal. -/
def Refusal.name : Refusal → String
  | unknownArgument => "UnknownArgument"
  | invalidValue => "InvalidValue"
  | valueValidation => "ValueValidation"
  | argumentConflict => "ArgumentConflict"
  | tooManyValues => "TooManyValues"
  | displayHelp => "DisplayHelp"
  | displayVersion => "DisplayVersion"

/-- The text that asking for the version prints. -/
def versionText : String := "decksh 0.1.0\n"

/-- The text that asking for help prints. -/
def helpText : String :=
  "Compile decksh scripts into deck markup\n\n" ++
  "Usage: decksh [-o <output>] [--seed <n>] [--trace] [<input>]\n"

/-- What is told for a refusal. -/
def Refusal.notice : Refusal → Notice
  | unknownArgument => ⟨"error: unexpected argument", true⟩
  | invalidValue => ⟨"error: a value is required but none was supplied", true⟩
  | valueValidation => ⟨"error: invalid value for --seed", true⟩
  | argumentConflict => ⟨"error: an option cannot be used multiple times", true⟩
  | tooManyValues => ⟨"error: unexpected value for an option that takes none", true⟩
  | displayHelp => ⟨helpText, false⟩
  | displayVersion => ⟨versionText, false⟩

/-- The arguments that take a value. -/
inductive Slot where
  | input | output | seed
  deriving DecidableEq, Repr

/-- An argument as it stands on the command line. -/
inductive Word where
  /-- Behind it every argument is a name. -/
  | separator
  | long (name : String) (value : Option String)
  /-- A letter and what is attached to it. -/
  | short (letter : Char) (attached : List Char)
  | plain
  deriving DecidableEq, Repr

/-- The form of an argument. -/
def Word.ofString (s : String) : Word :=
  match s.toList with
  | ['-', '-'] => .separator
  | '-' :: '-' :: rest =>
    .long (String.ofList (rest.takeWhile (· ≠ '=')))
      (match rest.dropWhile (· ≠ '=') with
        | [] => none
        | _ :: value => some (String.ofList value))
  | '-' :: c :: rest => .short c rest
  | _ => .plain

/-- The state of reading: what is known so far, and an argument whose value has not been looked at
yet or not even been given. -/
structure Reader where
  known : Arguments
  pending : Option (Slot × Option String)
  /-- The separator has been read. -/
  namesOnly : Bool
  /-- A script has been named. -/
  named : Bool

namespace Reader

/-- Nothing has been read. -/
def start : Reader := ⟨⟨none, none, none, false⟩, none, false, false⟩

/-- A name that is not empty. -/
def path (value : String) : Except Refusal String :=
  if value.isEmpty then .error .invalidValue else .ok value

/-- Take the value of an argument. -/
def take (r : Reader) (slot : Slot) (value : Option String) : Except Refusal Reader := do
  let some value := value | .error .invalidValue
  match slot with
  | .input => return { r with known := { r.known with input := some (← path value) } }
  | .output =>
    -- A repeated option is refused before its value is looked at.
    if r.known.output.isSome then .error .argumentConflict
    else return { r with known := { r.known with output := some (← path value) } }
  | .seed =>
    if r.known.seed.isSome then .error .argumentConflict
    else
      match Settings.parseSeed? value with
      | some seed => return { r with known := { r.known with seed := some seed } }
      | none => .error .valueValidation

/-- Look at the value that is still pending. -/
def settle (r : Reader) : Except Refusal Reader :=
  match r.pending with
  | none => .ok r
  | some (slot, value) => { r with pending := none }.take slot value

/-- Read an option that takes a value. -/
def option (r : Reader) (slot : Slot) (attached : Option String) : Except Refusal Reader := do
  let r ← r.settle
  match attached with
  | some value => r.take slot (some value)
  | none => return { r with pending := some (slot, none) }

/-- Read an option that takes no value. -/
def flag (r : Reader) (act : Reader → Except Refusal Reader) (attached : Option String) :
    Except Refusal Reader :=
  match attached with
  | some _ => .error .tooManyValues
  | none => do act (← r.settle)

/-- Turn tracing on. -/
def traceOn (r : Reader) : Except Refusal Reader :=
  if r.known.trace then .error .argumentConflict
  else .ok { r with known := { r.known with trace := true } }

/-- The value that is attached to a letter; an equals sign may stand in between. -/
def attachedValue : List Char → Option String
  | [] => none
  | '=' :: value => some (String.ofList value)
  | value => some (String.ofList value)

/-- Read the name of the script. -/
def name (r : Reader) (value : String) : Except Refusal Reader :=
  if r.named then .error .unknownArgument
  else do
    let r ← r.settle
    return { r with pending := some (.input, some value), named := true }

/-- Read one argument. -/
def read (r : Reader) (arg : String) : Except Refusal Reader :=
  if r.namesOnly then r.name arg
  else
    match Word.ofString arg with
    | .separator => .ok { r with namesOnly := true }
    | .long "output" value => r.option .output value
    | .long "seed" value => r.option .seed value
    | .long "trace" value => r.flag traceOn value
    | .long "help" value => r.flag (fun _ => .error .displayHelp) value
    | .long "version" value => r.flag (fun _ => .error .displayVersion) value
    -- An unknown option is refused at once, in front of a value that is still pending.
    | .long _ _ => .error .unknownArgument
    | .short 'o' attached => r.option .output (attachedValue attached)
    | .short 'h' _ => r.flag (fun _ => .error .displayHelp) none
    | .short 'V' _ => r.flag (fun _ => .error .displayVersion) none
    | .short _ _ => .error .unknownArgument
    | .plain =>
      match r.pending with
      | some (slot, none) => .ok { r with pending := some (slot, some arg) }
      | _ => r.name arg

end Reader

/-- What a command line says, without the name of the program. -/
def parse (args : List String) : Except Refusal Arguments := do
  let r ← args.foldlM Reader.read Reader.start
  return (← r.settle).known

/-- The settings with those of the command line over them. -/
def apply (a : Arguments) (s : Settings) : Settings :=
  { s with seed := a.seed.or s.seed, trace := a.trace || s.trace }

end Arguments

end DeckScript
