import DeckScript.Grid
import DeckScript.Markup.Element
import DeckScript.Operand

/-!
# Directives

A directive is a keyword's meaning: how many tokens it takes, the synopsis that reminds of them,
and what it does. Most directives only add elements to the markup, and what they add depends on
their line alone. The others ask for something that reaches beyond the line.

## Main definitions

* `Arity` — the numbers of tokens that a directive takes
* `Request` — what a directive asks for
* `Effect`, `Directive` — what a directive does, and its description
* `Vocabulary` — the keywords with their directives
-/

namespace DeckScript

open Markup

/-- The numbers of tokens, keyword included, that a directive takes. -/
structure Arity where
  least : Nat
  most : Option Nat
  deriving DecidableEq, Repr

namespace Arity

/-- Any number of tokens. -/
def any : Arity := ⟨0, none⟩

/-- Exactly `n` tokens. -/
def exactly (n : Nat) : Arity := ⟨n, some n⟩

/-- From `m` to `n` tokens. -/
def between (m n : Nat) : Arity := ⟨m, some n⟩

/-- At least `n` tokens. -/
def atLeast (n : Nat) : Arity := ⟨n, none⟩

/-- The directive takes `n` tokens. -/
def accepts (a : Arity) (n : Nat) : Bool := a.least ≤ n && a.most.all (n ≤ ·)

/-- The numbers of tokens in words. -/
def text (a : Arity) : String :=
  match a.most with
  | none =>
    if a.least = 0 then "any number of tokens" else "at least " ++ toString a.least ++ " tokens"
  | some most =>
    if most = a.least then toString most ++ " tokens"
    else toString a.least ++ "-" ++ toString most ++ " tokens"

end Arity

/-- What a directive asks for once its line is found good. -/
inductive Request where
  /-- Add elements to the markup. -/
  | emit (elements : List Element)
  /-- Run the lines of a file as part of the script. -/
  | enter (file : String)
  /-- Run each line of a file at a place of its own. -/
  | fillGrid (file : String) (layout : Grid.Layout)
  /-- Add what a program prints to the markup. -/
  | chart (command : List String)
  /-- Assign to a variable. -/
  | set (name value : String)
  /-- Run a text as a script. -/
  | run (text : String)

/-- What a directive does. -/
inductive Effect where
  /-- Add elements to the markup that the line alone decides. -/
  | markup (elements : Record → Except Fault (List Element))
  /-- Ask for something that may depend on the variables. -/
  | request (ask : Store → Record → Except Fault Request)

/-- The meaning of a keyword. -/
structure Directive where
  arity : Arity
  /-- The arguments, as the fault of a wrong number of tokens shows them. -/
  synopsis : String
  effect : Effect

/-- The keywords with their directives. -/
abbrev Vocabulary := Table Directive

namespace Directive

/-- A directive that adds one element. -/
def element (arity : Arity) (synopsis : String) (f : Record → Element) : Directive :=
  ⟨arity, synopsis, .markup fun r => .ok [f r]⟩

/-- A directive that adds elements or has a fault. -/
def elements (arity : Arity) (synopsis : String) (f : Record → Except Fault (List Element)) :
    Directive :=
  ⟨arity, synopsis, .markup f⟩

/-- What a directive asks for on a line with the variables of a store. -/
def ask (d : Directive) (store : Store) (r : Record) : Except Fault Request :=
  if d.arity.accepts r.length then
    match d.effect with
    | .markup f => (f r).map .emit
    | .request f => f store r
  else .error (.arity r.keyword d.synopsis)

end Directive

/-- A value as it is. -/
def verbatim (name value : String) : Attribute := ⟨name, .verbatim, value⟩

/-- A value between double quotes. -/
def quoted (name value : String) : Attribute := ⟨name, .quoted, value⟩

/-- Quoted attributes with the tokens of a line in order, from number `i` on. -/
def quotedArgs (r : Record) (i : Nat) (names : List String) : List Attribute :=
  names.mapIdx fun k name => quoted name (r.arg (i + k))

end DeckScript
