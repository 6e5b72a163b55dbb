import DeckScript.Text.DecimalDigit
import DeckScript.Text.Letter
import DeckScript.Text.WhiteSpace

/-!
# Lexemes

A line is cut into lexemes from left to right. At each place the first of these kinds that matches
there takes as many characters as it can:

* a run of white space;
* a comment: from two slashes to the end of the line, or from a slash and a star to the next star
  and slash;
* a literal between double quotes, backquotes or apostrophes, with its delimiters; inside the first
  and the last of them a backslash takes the character after it along, unless that is a line break;
  a literal that is not closed runs as far as it can;
* a number: hexadecimal digits behind `0x`, or decimal digits with an optional point and exponent;
* an identifier: a letter or underscore, then letters, decimal digits and underscores;
* any other single character.

The extent of a lexeme is the number of characters that follow its first one, so that no lexeme is
empty and none is longer than the text.

## Main definitions

* `Lexeme.Kind`, `Lexeme` — the kinds, and a piece of text with its kind
* `Lexeme.extent` — the kind of the lexeme at a place and how far it reaches
* `lexemes` — all lexemes of a text

## Main results

* `flatten_lexemes` — the lexemes make up the text
-/

namespace DeckScript

open Text

/-- The kinds of lexemes. -/
inductive Lexeme.Kind where
  | blank | comment | quoted | number | identifier | single
  deriving DecidableEq, Repr

/-- A piece of text and its kind. -/
structure Lexeme where
  kind : Lexeme.Kind
  chars : List Char
  deriving DecidableEq, Repr

namespace Lexeme

/-- White space and comments separate tokens and are none themselves. -/
def Kind.isGap : Kind → Bool
  | .blank | .comment => true
  | _ => false

/-! ## How far each kind reaches -/

/-- The number of characters up to and with the next star and slash, or to the end. -/
def blockCommentLength : List Char → Nat
  | [] => 0
  | '*' :: '/' :: _ => 2
  | _ :: rest => blockCommentLength rest + 1

/-- The number of characters up to and with the closing `delimiter`. A backslash takes the next
character along; one that cannot, at a line break or at the end, stops the literal in front. -/
def quotedLength (delimiter : Char) : List Char → Nat
  | [] => 0
  -- An escaped delimiter does not close the literal.
  | '\\' :: c :: rest => if c = '\n' then 0 else quotedLength delimiter rest + 2
  | ['\\'] => 0
  | c :: rest => if c = delimiter then 1 else quotedLength delimiter rest + 1

/-- The number of characters up to and with the closing `delimiter`, where nothing is escaped. -/
def rawLength (delimiter : Char) : List Char → Nat
  | [] => 0
  | c :: rest => if c = delimiter then 1 else rawLength delimiter rest + 1

/-- The number of leading characters with a property. -/
def runLength (p : Char → Bool) (s : List Char) : Nat := (s.takeWhile p).length

/-- A hexadecimal digit, or an underscore between such digits. -/
def isHexDigit (c : Char) : Bool :=
  c.isDigit || ('a' ≤ c && c ≤ 'f') || ('A' ≤ c && c ≤ 'F') || c = '_'

/-- The mark of an exponent. -/
def isExponentMark (c : Char) : Bool := c = 'e' || c = 'E'

/-- The sign of an exponent. -/
def isSign (c : Char) : Bool := c = '+' || c = '-'

/-- The length of an exponent: a mark, an optional sign and at least one digit, or nothing. -/
def exponentLength : List Char → Nat
  | mark :: c :: rest =>
    if isExponentMark mark then
      if isSign c then
        if runLength Char.isDigit rest = 0 then 0 else runLength Char.isDigit rest + 2
      else
        if runLength Char.isDigit (c :: rest) = 0 then 0 else runLength Char.isDigit (c :: rest) + 1
    else 0
  | _ => 0

/-- The length of a point with the digits behind it, or nothing. -/
def fractionLength : List Char → Nat
  | '.' :: rest => runLength Char.isDigit rest + 1
  | _ => 0

/-- How far a decimal number reaches behind its first digit. -/
def decimalExtent (rest : List Char) : Nat :=
  let whole := runLength Char.isDigit rest
  let fraction := fractionLength (rest.drop whole)
  whole + fraction + exponentLength (rest.drop (whole + fraction))

/-- How far a decimal number reaches behind its leading point. -/
def pointExtent (rest : List Char) : Nat :=
  let fraction := runLength Char.isDigit rest
  fraction + exponentLength (rest.drop fraction)

/-- How far a hexadecimal number reaches behind its leading zero, if there is one. -/
def hexExtent? : List Char → Option Nat
  | mark :: c :: rest =>
    if (mark = 'x' ∨ mark = 'X') ∧ isHexDigit c then some (runLength isHexDigit rest + 2) else none
  | _ => none

/-- The first character of an identifier. -/
def isIdentifierStart (c : Char) : Bool := isLetter c || c = '_'

/-- Any further character of an identifier. -/
def isIdentifierPart (c : Char) : Bool := isLetter c || isDecimalDigit c || c = '_'

/-! ## The lexeme at a place -/

/-- The text begins with the character. -/
def startsWith (c : Char) (s : List Char) : Bool := s.head? = some c

/-- The backquote. -/
def backquote : Char := '\x60'

/-- The kind of the lexeme that begins with `c`, and how many characters of `rest` belong to it. -/
def extent (c : Char) (rest : List Char) : Kind × Nat :=
  -- Gaps come first: a slash is a token of its own only if no comment begins with it.
  if isWhiteSpace c then (.blank, runLength isWhiteSpace rest)
  else if c = '/' && startsWith '/' rest then (.comment, runLength (· ≠ '\n') rest)
  else if c = '/' && startsWith '*' rest then (.comment, blockCommentLength rest.tail + 1)
  else if c = '"' || c = '\'' then (.quoted, quotedLength c rest)
  else if c = backquote then (.quoted, rawLength c rest)
  -- A zero without digits of its base behind the mark is a number of its own.
  else if c.isDigit then
    match if c = '0' then hexExtent? rest else none with
    | some n => (.number, n)
    | none => (.number, decimalExtent rest)
  else if c = '.' && (rest.head?.any Char.isDigit) then (.number, pointExtent rest)
  else if isIdentifierStart c then (.identifier, runLength isIdentifierPart rest)
  else (.single, 0)

end Lexeme

open Lexeme in
/-- The lexemes of a text. -/
def lexemes : List Char → List Lexeme
  | [] => []
  | c :: rest =>
    let e := extent c rest
    ⟨e.1, c :: rest.take e.2⟩ :: lexemes (rest.drop e.2)
termination_by s => s.length
decreasing_by simp only [List.length_drop, List.length_cons]; omega

/-- The lexemes of a text make it up: no character is lost, added or moved. -/
theorem flatten_lexemes (s : List Char) : ((lexemes s).map Lexeme.chars).flatten = s := by
  fun_induction lexemes s with
  | case1 => rfl
  | case2 c rest e ih => simp [ih]

end DeckScript
