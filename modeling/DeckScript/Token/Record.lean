import DeckScript.Store
import DeckScript.Token.Lexeme

/-!
# Records

A record is a line of a script as its directive sees it: the line's tokens, where it stands and its
text. The tokens are the lexemes of the line that are not gaps, and all but the first of them are
replaced by the values of the variables that they name.

## Main definitions

* `tokenize` — the tokens of a text
* `resolveArgs` — the values of variables in place of their names
* `Record`, `Record.ofLine` — a scanned line
* `Record.keyword`, `Record.arg`, `Record.argsFrom` — its parts
-/

namespace DeckScript

/-- The tokens of a text: its lexemes without the gaps between them. -/
def tokenize (text : String) : List String :=
  ((lexemes text.toList).filter fun l => !l.kind.isGap).map fun l => String.ofList l.chars

/-- The tokens with every one but the first replaced by its value. -/
def resolveArgs (store : Store) : List String → List String
  | [] => []
  | first :: others => first :: others.map store.resolve

@[simp] theorem length_resolveArgs (store : Store) (tokens : List String) :
    (resolveArgs store tokens).length = tokens.length := by
  cases tokens <;> simp [resolveArgs]

/-- The first token is never replaced. -/
@[simp] theorem head?_resolveArgs (store : Store) (tokens : List String) :
    (resolveArgs store tokens).head? = tokens.head? := by
  cases tokens <;> rfl

/-- A line of a script as its directive sees it. -/
structure Record where
  /-- The number of the line in its script, from one. -/
  line : Nat
  /-- The keyword and its arguments. -/
  tokens : List String
  /-- The line as it is written. -/
  text : String
  deriving DecidableEq, Repr

namespace Record

/-- The record of a line, with the variables of a store. -/
def ofLine (store : Store) (line : Nat) (text : String) : Record :=
  ⟨line, resolveArgs store (tokenize text), text⟩

/-- The number of tokens. -/
def length (r : Record) : Nat := r.tokens.length

/-- There are no tokens. -/
def isEmpty (r : Record) : Bool := r.tokens.isEmpty

/-- Token number `i`, the keyword being number zero; the empty text past the end. -/
def arg (r : Record) (i : Nat) : String := r.tokens.getD i ""

/-- The first token. -/
def keyword (r : Record) : String := r.arg 0

/-- The tokens from number `i` on. -/
def argsFrom (r : Record) (i : Nat) : List String := r.tokens.drop i

/-- Token number `i` if there is one. -/
def arg? (r : Record) (i : Nat) : Option String := r.tokens[i]?

end Record

end DeckScript
