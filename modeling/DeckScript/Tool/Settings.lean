import DeckScript.Table
import DeckScript.Text.WhiteSpace

/-!
# Settings

The settings of a compilation: the seed of the random stream, whether lines are traced, and how deep
files may be included in one another. The first two may be set in the environment.

## Main definitions

* `Settings` — the settings of a compilation
* `Settings.Refusal` — a variable of the environment that cannot be understood
* `Settings.ofEnvironment` — the settings that an environment gives
-/

namespace DeckScript

/-- The settings of a compilation. -/
structure Settings where
  /-- The seed of the random stream; none if the stream is to be different each time. -/
  seed : Option UInt64
  /-- Lines are reported before they are carried out. -/
  trace : Bool
  /-- How many files may be included in one another. -/
  includeLimit : Nat
  deriving DecidableEq, Repr

namespace Settings

/-- How many files may be included in one another unless it is set otherwise. -/
def standardIncludeLimit : Nat := 32

/-- The settings if nothing is set. -/
def standard : Settings := ⟨none, false, standardIncludeLimit⟩

/-- How many levels of nested records a run allows: included files, and as many grids again as no
script needs. -/
def levels (s : Settings) : Nat := s.includeLimit + 1000

/-- The number that the digits of a text write, if it fits into 64 bits. One plus sign may stand in
front. -/
def parseSeed? (s : String) : Option UInt64 :=
  let ds :=
    match s.toList with
    | '+' :: rest => rest
    | ds => ds
  if ds.isEmpty ∨ !ds.all Char.isDigit then none
  else
    let n := Nat.ofDigitChars 10 ds 0
    if n < UInt64.size then some (UInt64.ofNat n) else none

/-- The variable of the environment that holds the seed. -/
def seedVariable : String := "DECKSH_SEED"

/-- The variable of the environment that turns tracing on and off. -/
def traceVariable : String := "DECKSH_TRACE"

/-- A variable of the environment and why it cannot be understood. -/
structure Refusal where
  variableName : String
  reason : String
  deriving DecidableEq, Repr

/-- The wording of a refusal. -/
def Refusal.message (r : Refusal) : String := r.variableName ++ ": " ++ r.reason

/-- The words for off and for on. -/
def switchWords : List (String × Bool) :=
  [("", false), ("0", false), ("false", false), ("no", false), ("off", false), ("1", true),
   ("true", true), ("yes", true), ("on", true)]

/-- The settings with the seed that a text gives. -/
def readSeed (s : Settings) (raw : String) : Except Refusal Settings :=
  match parseSeed? (Text.trim raw) with
  | some seed => .ok { s with seed := some seed }
  | none => .error ⟨seedVariable, "invalid seed: " ++ raw⟩

/-- The settings with tracing as a text gives it. -/
def readTrace (s : Settings) (raw : String) : Except Refusal Settings :=
  match switchWords.lookup (Text.trim raw) with
  | some trace => .ok { s with trace }
  | none => .error ⟨traceVariable, "expected a boolean, got " ++ raw⟩

/-- The settings that an environment gives; the seed is looked at first. -/
def ofEnvironment (env : Table String) : Except Refusal Settings := do
  let s ← match env.get? seedVariable with
    | some raw => readSeed standard raw
    | none => pure standard
  match env.get? traceVariable with
  | some raw => readTrace s raw
  | none => pure s

end Settings

end DeckScript
