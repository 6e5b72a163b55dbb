import DeckScript.Text.Utf8
import DeckScript.Text.WhiteSpace

/-!
# Built-in programs

Where the tool runs in memory there is no machine with programs. A few programs that a chart may
call are built in for it: they print their arguments, copy their input or only end with a status. A
program is a function from its arguments and its input to what it prints, what it complains about
and its status. Nothing depends on what these programs do: elsewhere the programs are left open.

## Main definitions

* `Program.Completion` — how a program ended
* `Program.escapes` — text with the escapes that a backslash introduces
* `Program.echo`, `Program.printf`, `Program.cat` — the programs
* `Program.find?` — the program of a name
-/

namespace DeckScript

/-- How a program ended: its status, what it printed and what it complained about. -/
structure Program.Completion where
  status : Nat
  printed : List UInt8
  complaint : List UInt8

/-- A program: from its arguments and its input to how it ends. -/
abbrev Program := List String → List UInt8 → Program.Completion

namespace Program

/-- The bytes of a text. -/
def bytes (s : String) : List UInt8 := s.toByteArray.toList

/-- The bytes of characters. -/
def charBytes (s : List Char) : List UInt8 := bytes (String.ofList s)

/-- A program that prints something and succeeds. -/
def Completion.ofPrinted (printed : List UInt8) : Completion := ⟨0, printed, []⟩

/-- A program that complains and ends with a status. -/
def Completion.failed (status : Nat) (complaint : String) : Completion :=
  ⟨status, [], bytes complaint⟩

/-! ## Escapes -/

/-- The bytes of the letters that a backslash may stand in front of. -/
def letterEscapes : List (Char × UInt8) :=
  [('a', 7), ('b', 8), ('f', 12), ('n', 10), ('r', 13), ('t', 9), ('v', 11), ('\\', 92), ('"', 34)]

/-- A digit of the octal system. -/
def isOctal (c : Char) : Bool := '0' ≤ c && c ≤ '7'

/-- A digit of the hexadecimal system. -/
def isHex (c : Char) : Bool :=
  c.isDigit || ('a' ≤ c && c ≤ 'f') || ('A' ≤ c && c ≤ 'F')

/-- The value of a digit of the hexadecimal system. -/
def hexValue (c : Char) : Nat :=
  if c.isDigit then c.toNat - 48 else c.toLower.toNat - 87

/-- The number that digits write in a base. -/
def digitsValue (base : Nat) (ds : List Char) : Nat :=
  ds.foldl (fun n c => n * base + hexValue c) 0

/-- At most `n` leading characters with a property. -/
def leading (n : Nat) (p : Char → Bool) (s : List Char) : List Char := (s.take n).takeWhile p

/-- The bytes of a text with escapes, and whether it goes on after them. An octal code has up to
three digits, with a zero in front of them if `zeroed`. -/
def escapes (zeroed : Bool) : List Char → List UInt8 × Bool
  | [] => ([], true)
  | '\\' :: c :: rest =>
    match letterEscapes.lookup c with
    | some b =>
      let tail := escapes zeroed rest
      (b :: tail.1, tail.2)
    | none =>
      if c = 'c' then ([], false)
      else if zeroed ∧ c = '0' then
        let ds := leading 3 isOctal rest
        let tail := escapes zeroed (rest.drop ds.length)
        (UInt8.ofNat (digitsValue 8 ds) :: tail.1, tail.2)
      else if isOctal c then
        let ds := leading 2 isOctal rest
        let tail := escapes zeroed (rest.drop ds.length)
        (UInt8.ofNat (digitsValue 8 (c :: ds)) :: tail.1, tail.2)
      else if c = 'x' ∧ (leading 1 isHex rest).length = 1 then
        let ds := leading 2 isHex rest
        let tail := escapes zeroed (rest.drop ds.length)
        (UInt8.ofNat (digitsValue 16 ds) :: tail.1, tail.2)
      else
        let tail := escapes zeroed rest
        (92 :: charBytes [c] ++ tail.1, tail.2)
  | c :: rest =>
    let tail := escapes zeroed rest
    (charBytes [c] ++ tail.1, tail.2)
termination_by s => s.length
decreasing_by all_goals simp only [List.length_cons, List.length_drop]; omega

/-! ## Printing arguments -/

/-- The options in front of the arguments: no line break, and escapes on or off. -/
def echoOptions (escaped : Bool) : List String → Bool × Bool × List String
  | [] => (true, escaped, [])
  | arg :: rest =>
    match arg.toList with
    | '-' :: c :: letters =>
      if (c :: letters).all fun l => l = 'n' || l = 'e' || l = 'E' then
        let last := ((c :: letters).filter (· ≠ 'n')).getLast?
        let (breaks, escaped, args) := echoOptions (last.elim escaped (· = 'e')) rest
        (breaks && !(c :: letters).contains 'n', escaped, args)
      else (true, escaped, arg :: rest)
    | _ => (true, escaped, arg :: rest)

/-- Print the arguments with blanks between them and a line break behind them. -/
def echo : Program := fun args _ =>
  let (breaks, escaped, args) := echoOptions false args
  let body := (" ".intercalate args).toList
  let (printed, goesOn) := if escaped then escapes true body else (charBytes body, true)
  .ofPrinted (printed ++ if breaks && goesOn then [10] else [])

/-- The same as a command of the shell: escapes are on, and the only option is the one for no line
break. -/
def shellEcho : Program := fun args _ =>
  let (breaks, args) :=
    match args with
    | "-n" :: rest => (false, rest)
    | args => (true, args)
  let (printed, goesOn) := escapes true (" ".intercalate args).toList
  .ofPrinted (printed ++ if breaks && goesOn then [10] else [])

/-! ## Printing in a format -/

/-- A text on the right or on the left of a field. -/
def padded (left : Bool) (fill : UInt8) (width : Nat) (s : List UInt8) : List UInt8 :=
  let padding := List.replicate (width - s.length) (if left then 32 else fill)
  if left then s ++ padding else padding ++ s

/-- The number that an argument writes, zero if it writes none. -/
def integerOf (arg : String) : Int := arg.toInt?.getD 0

/-- The bytes of an argument in the conversion of a letter, with a precision. -/
def converted (letter : Char) (precision : Option Nat) (arg : String) : Option (List UInt8) :=
  match letter with
  | 's' => some (precision.elim (bytes arg) fun n => (bytes arg).take n)
  | 'b' => some (escapes true arg.toList).1
  | 'c' => some ((bytes arg).take 1)
  | 'd' | 'i' | 'u' => some (bytes (toString (integerOf arg)))
  | 'x' => some (charBytes (Nat.toDigits 16 (integerOf arg).toNat))
  | 'X' => some (charBytes ((Nat.toDigits 16 (integerOf arg).toNat).map Char.toUpper))
  | 'o' => some (charBytes (Nat.toDigits 8 (integerOf arg).toNat))
  | _ => none

/-- One pass over a format: what it prints, the arguments that are left, whether an argument was
asked for, and whether the printing goes on. -/
def formatPass : List Char → List String → List UInt8 × List String × Bool × Bool
  | [], args => ([], args, false, true)
  | '%' :: '%' :: rest, args =>
    let (printed, args, asked, goesOn) := formatPass rest args
    (37 :: printed, args, asked, goesOn)
  | '%' :: rest, args =>
    let flags := rest.takeWhile fun c => c = '-' || c = '0' || c = '+' || c = ' ' || c = '#'
    let rest₁ := rest.drop flags.length
    let width := rest₁.takeWhile Char.isDigit
    let rest₂ := rest₁.drop width.length
    let dot := rest₂.take 1 = ['.']
    let places := if dot then (rest₂.drop 1).takeWhile Char.isDigit else []
    let rest₃ := rest₂.drop (places.length + if dot then 1 else 0)
    let letter := rest₃.headD '%'
    let precision := if dot then some (digitsValue 10 places) else none
    match converted letter precision (args.headD "") with
    | some s =>
      let fill : UInt8 := if flags.contains '0' && !(letter = 's' || letter = 'c') then 48 else 32
      let (printed, args, _, goesOn) := formatPass (rest₃.drop 1) args.tail
      (padded (flags.contains '-') fill (digitsValue 10 width) s ++ printed, args, true, goesOn)
    | none => ([], args, false, false)
  | '\\' :: rest, args =>
    match rest with
    | [] => ([92], args, false, true)
    | c :: rest₁ =>
      if c = 'c' then ([], [], false, false)
      else
        let n := if isOctal c then (leading 2 isOctal rest₁).length
          else if c = 'x' then (leading 2 isHex rest₁).length
          else 0
        let (printed, args, asked, goesOn) := formatPass (rest₁.drop n) args
        ((escapes false ('\\' :: c :: rest₁.take n)).1 ++ printed, args, asked, goesOn)
  | c :: rest, args =>
    let (printed, args, asked, goesOn) := formatPass rest args
    (charBytes [c] ++ printed, args, asked, goesOn)
termination_by format => format.length
decreasing_by all_goals simp_all only [List.length_cons, List.length_drop]; omega

/-- Print a format again and again until the arguments are used up; `n` bounds the passes. -/
def formatPasses (format : List Char) : Nat → List String → List UInt8
  | 0, _ => []
  | n + 1, args =>
    let (printed, left, asked, goesOn) := formatPass format args
    if asked && goesOn && !left.isEmpty then printed ++ formatPasses format n left else printed

/-- Print arguments in a format. -/
def printf : Program := fun args _ =>
  match args with
  | [] => .failed 1 "printf: missing operand\nTry 'printf --help' for more information.\n"
  | format :: args => .ofPrinted (formatPasses format.toList (args.length + 1) args)

/-! ## Copying and ending -/

/-- Copy the input. There are no other files to copy. -/
def cat : Program := fun args input =>
  match args.filter (· ≠ "-") with
  | [] => .ofPrinted input
  | names =>
    .failed 1 (String.join (names.map fun n => "cat: " ++ n ++ ": No such file or directory\n"))

/-- End with a status and nothing else. -/
def ending (status : Nat) : Program := fun _ _ => ⟨status, [], []⟩

/-- The built-in programs by their names, apart from the shell. -/
def table : List (String × Program) :=
  [("echo", echo), ("printf", printf), ("cat", cat), ("true", ending 0), ("false", ending 1)]

/-- The name of a program without the directory that programs are kept in. -/
def baseName (name : String) : String :=
  match name.splitOn "/" with
  | ["", "bin", base] => base
  | ["", "usr", "bin", base] => base
  | _ => name

/-- The built-in program of a name. -/
def find? (name : String) : Option Program := table.lookup (baseName name)

end Program

end DeckScript
