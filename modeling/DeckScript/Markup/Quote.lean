/-!
# Quoted values

A quoted value stands between double quotes. Inside, double quotes and backslashes have a backslash
in front of them, and control characters are written with a letter or with their code.

## Main definitions

* `Markup.quote` — a text as a quoted value
-/

namespace DeckScript.Markup

/-- A control character: a code point below U+0020 or from U+007F to U+009F. -/
def isControl (c : Char) : Bool := c.toNat < 0x20 || (0x7F ≤ c.toNat && c.toNat ≤ 0x9F)

/-- The characters that a letter behind a backslash stands for. -/
def letterEscapes : List (Char × Char) :=
  [('"', '"'), ('\\', '\\'), ('\n', 'n'), ('\r', 'r'), ('\t', 't'), ('\x07', 'a'), ('\x08', 'b'),
   ('\x0B', 'v'), ('\x0C', 'f')]

/-- A number in hexadecimal digits, filled up with zeros to a width. -/
def hexDigits (width n : Nat) : List Char :=
  let ds := Nat.toDigits 16 n
  List.replicate (width - ds.length) '0' ++ ds

/-- A character as it stands in a quoted value. -/
def quoteChar (c : Char) : List Char :=
  match letterEscapes.lookup c with
  | some letter => ['\\', letter]
  | none =>
    if isControl c then
      if c.toNat < 0x80 then '\\' :: 'x' :: hexDigits 2 c.toNat
      else '\\' :: 'u' :: hexDigits 4 c.toNat
    else [c]

/-- Characters between double quotes. -/
def quoteChars (s : List Char) : List Char := '"' :: (s.flatMap quoteChar ++ ['"'])

/-- A text as a quoted value. -/
def quote (s : String) : String := String.ofList (quoteChars s.toList)

end DeckScript.Markup
