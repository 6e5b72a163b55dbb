import DeckScript.Text.Line
import DeckScript.Tool.Process
import DeckScript.Tool.Program

/-!
# The built-in shell

The shell runs a line of commands: built-in programs one after the other, on condition of the one
before, or with the output of one as the input of the next. Words may be quoted and may hold
parameters; what a command prints or complains about may be sent elsewhere.

## Main definitions

* `Shell.Symbol` — words and operators
* `Shell.scan` — the symbols of a script
* `Shell.runScript` — running a script
* `startBuiltIn` — starting a program by its name, the shell among them
* `runCommand` — running a command where there are only these programs
-/

namespace DeckScript.Shell

open Program

/-- Where a command's output is sent. -/
inductive Target where
  | printed | complaint | nowhere
  deriving DecidableEq, Repr

/-- A word or an operator. -/
inductive Symbol where
  | word (s : String)
  /-- The end of a command. -/
  | next
  /-- Go on if the command before succeeded. -/
  | ifOk
  /-- Go on if the command before failed. -/
  | ifFailed
  | pipe
  /-- Send one of the two outputs elsewhere. -/
  | send (stream : Target) (target : Target)
  deriving DecidableEq, Repr

/-- How the characters of a script are read. -/
inductive Mode where
  | plain | single | double | skip
  deriving DecidableEq, Repr

/-- The symbol of the word that has been read so far, its last character first. -/
def wordSymbol (word : Option (List Char)) : List Symbol :=
  (word.map fun cs => Symbol.word (String.ofList cs.reverse)).toList

/-- A word with further characters. -/
def extend (word : Option (List Char)) (cs : List Char) : Option (List Char) :=
  some (cs.reverse ++ word.getD [])

/-- The stream of a number. -/
def streamOf (c : Char) : Target := if c = '2' then .complaint else .printed

/-- The stream in front of a redirection, and the word that remains. -/
def splitStream : Option (List Char) → Target × Option (List Char)
  | some ['1'] => (.printed, none)
  | some ['2'] => (.complaint, none)
  | word => (.printed, word)

/-- The symbols of a script with the given parameters. -/
def scan (params : List String) : Mode → Option (List Char) → List Char → List Symbol
  | _, word, [] => wordSymbol word
  | .single, word, c :: rest =>
    if c = '\'' then scan params .plain (extend word []) rest
    else scan params .single (extend word [c]) rest
  | .skip, word, c :: rest =>
    if c = '\n' then .next :: scan params .plain word rest else scan params .skip word rest
  | .double, word, c :: rest =>
    if c = '"' then scan params .plain (extend word []) rest
    else
      match c, rest with
      | '\\', d :: rest₁ =>
        if d = '"' || d = '\\' || d = '$' then scan params .double (extend word [d]) rest₁
        else scan params .double (extend word ['\\', d]) rest₁
      | '$', d :: rest₁ =>
        if d.isDigit then
          scan params .double (extend word (params.getD (d.toNat - 48) "").toList) rest₁
        else scan params .double (extend word ['$', d]) rest₁
      | c, rest₁ => scan params .double (extend word [c]) rest₁
  | .plain, word, c :: rest =>
    if c = '\'' then scan params .single (extend word []) rest
    else if c = '"' then scan params .double (extend word []) rest
    else if c = ' ' || c = '\t' then wordSymbol word ++ scan params .plain none rest
    else if c = ';' || c = '\n' then wordSymbol word ++ .next :: scan params .plain none rest
    else if c = '#' && word.isNone then scan params .skip none rest
    else
      match c, rest with
      | '\\', d :: rest₁ => scan params .plain (extend word [d]) rest₁
      | '$', d :: rest₁ =>
        if d.isDigit then
          scan params .plain (extend word (params.getD (d.toNat - 48) "").toList) rest₁
        else scan params .plain (extend word ['$', d]) rest₁
      | '&', '&' :: rest₁ => wordSymbol word ++ .ifOk :: scan params .plain none rest₁
      | '|', '|' :: rest₁ => wordSymbol word ++ .ifFailed :: scan params .plain none rest₁
      | '|', rest₁ => wordSymbol word ++ .pipe :: scan params .plain none rest₁
      | '>', '&' :: d :: rest₁ =>
        let (stream, word) := splitStream word
        wordSymbol word ++ .send stream (streamOf d) :: scan params .plain none rest₁
      | '>', rest₁ =>
        let (stream, word) := splitStream word
        wordSymbol word ++ .send stream .nowhere :: scan params .plain none rest₁
      | c, rest₁ => scan params .plain (extend word [c]) rest₁
termination_by _ _ s => s.length
decreasing_by all_goals simp_all only [List.length_cons]; omega

/-- A command: its words, and where its two outputs are sent. -/
structure Command where
  words : List String
  sends : List (Target × Target)

/-- A command with one more symbol. A file that output is sent to is not kept. -/
def Command.add (c : Command) : Symbol → Command
  | .word s =>
    match c.sends.head? with
    | some (_, .nowhere) => if s = "/dev/null" then c else { c with words := c.words ++ [s] }
    | _ => { c with words := c.words ++ [s] }
  | .send stream target => { c with sends := (stream, target) :: c.sends }
  | _ => c

/-- The commands of a script: each with the operator that ends it. -/
def commands : Command → List Symbol → List (Command × Symbol)
  | c, [] => [(c, .next)]
  | c, s :: rest =>
    match s with
    | .word _ | .send _ _ => commands (c.add s) rest
    | _ => (c, s) :: commands ⟨[], []⟩ rest

/-- Where the two outputs of a program go. -/
structure Routes where
  printed : Target
  complaint : Target

/-- Where an output goes at the moment. -/
def Routes.follow (r : Routes) : Target → Target
  | .printed => r.printed
  | .complaint => r.complaint
  | .nowhere => .nowhere

/-- Send one of the two outputs to where another one goes at the moment. -/
def Routes.send (r : Routes) (streams : Target × Target) : Routes :=
  match streams with
  | (.complaint, target) => { r with complaint := r.follow target }
  | (_, target) => { r with printed := r.follow target }

/-- Send the outputs of a program where they are to go; `sends` has the last redirection first. -/
def redirect (sends : List (Target × Target)) (done : Completion) : Completion :=
  let routes := sends.reverse.foldl Routes.send ⟨.printed, .complaint⟩
  let arriving := fun t =>
    (if routes.printed = t then done.printed else []) ++
      if routes.complaint = t then done.complaint else []
  ⟨done.status, arriving .printed, arriving .complaint⟩

/-- Run the words of a command; `name` stands in front of complaints. -/
def runWords (name : String) (words : List String) (input : List UInt8) : Completion :=
  match words with
  | [] => ⟨0, [], []⟩
  | ":" :: _ => ⟨0, [], []⟩
  | "echo" :: args => shellEcho args input
  | program :: args =>
    match Program.find? program with
    | some run => run args input
    | none => .failed 127 (name ++ ": 1: " ++ program ++ ": not found\n")

/-- The state of the shell: the last status, what has been printed and complained about so far, the
input of the next command, and whether the next command is left out. -/
structure State where
  status : Nat
  printed : List UInt8
  complaint : List UInt8
  input : List UInt8
  skipping : Bool

/-- Run commands until they end or one of them ends the shell. -/
def runCommands (name : String) : List (Command × Symbol) → State → Completion
  | [], s => ⟨s.status, s.printed, s.complaint⟩
  | (c, operator) :: rest, s =>
    match c.words, s.skipping with
    | "exit" :: args, false =>
      ⟨(args.head?.bind String.toNat?).getD s.status % 256, s.printed, s.complaint⟩
    | words, skipping =>
      let done : Completion :=
        if skipping || words.isEmpty then ⟨s.status, [], []⟩
        else redirect c.sends (runWords name words s.input)
      let printed := if operator = .pipe then s.printed else s.printed ++ done.printed
      let skips := match operator with
        | .ifOk => done.status ≠ 0
        | .ifFailed => done.status = 0
        | .pipe => skipping
        | _ => false
      runCommands name rest
        ⟨done.status, printed, s.complaint ++ done.complaint,
          if operator = .pipe then done.printed else [], skips⟩

/-- Run a script with its parameters, the first of which names it. -/
def runScript (params : List String) (script : String) : Completion :=
  runCommands (params.headD "sh") (commands ⟨[], []⟩ (scan params .plain none script.toList))
    ⟨0, [], [], [], false⟩

/-- The shell as a program: a script behind `-c`, then its parameters. -/
def program : Program := fun args _ =>
  match args with
  | "-c" :: script :: params => runScript (if params.isEmpty then ["sh"] else params) script
  | "-c" :: [] => .failed 2 "sh: 0: -c requires an argument\n"
  | name :: _ => .failed 2 ("sh: 0: cannot open " ++ name ++ ": No such file\n")
  | [] => ⟨0, [], []⟩

end DeckScript.Shell

namespace DeckScript

/-- The built-in program of a name, the shell among them. -/
def programOf? (name : String) : Option Program :=
  if Program.baseName name = "sh" then some Shell.program else Program.find? name

/-- The name is that of a directory by its form: a path of dots, or one that every system has. -/
def namesDirectory (name : String) : Bool :=
  !name.isEmpty && ((name.splitOn "/").all fun part => ["", ".", ".."].contains part)
    || ["/bin", "/dev", "/etc", "/tmp", "/usr", "/usr/bin"].contains name

/-- Start a built-in program without input. -/
def startBuiltIn (program : String) (args : List String) : Except String Exit :=
  if (program :: args).any fun s => s.toList.contains '\x00' then
    .error "nul byte found in provided data"
  else if namesDirectory program then .error "Permission denied (os error 13)"
  else
    match programOf? program with
    | none => .error "No such file or directory (os error 2)"
    | some run =>
      let done := run args []
      .ok ⟨done.status = 0, "exit status: " ++ toString done.status, ⟨done.printed.toArray⟩,
        done.complaint⟩

/-- Run a command where there are only the built-in programs. -/
def runCommand (command : List String) : Except String ByteArray :=
  runProgram startBuiltIn command

end DeckScript
