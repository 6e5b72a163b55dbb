import DeckScript.Assignment
import DeckScript.Proofs.NumberText
import DeckScript.Proofs.NumberToken
import DeckScript.Proofs.TokenText
import DeckScript.Vocabulary

/-!
# Reckoning with variables

A script that only calculates consists of lines that set a variable to a number, set it to the
result of an operation, or change it by one. A run keeps the variables as texts: it writes each
result down, puts the text in place of the name in later lines, and reads it again. A reckoner does
the same with one number for each variable and no texts in between.

The texts of a run and the numbers of the reckoner agree if the same variables are set and each text
writes its number. Then a token is read as the reckoner reads it, however often it is replaced by
what it stands for, and what an operation gives is the text of what it gives the reckoner.

## Main definitions

* `Operator.evaluate` — the result of an operation, or the class of its fault
* `Reckoning.Name`, `Reckoning.Constant`, `Reckoning.Operand` — what stands in the lines
* `Reckoning.Statement` — a line that calculates
* `Reckoning.Tally` — the numbers of the variables and the faults so far
* `Reckoning.Agrees` — the texts of the variables write their numbers
* `Reckoning.Accounts` — the value of a line is as the reckoner has it

## Main results

* `Reckoning.Agrees.parse?_resolve` — an operand is read as its number
* `Reckoning.accounts_operationText` — an operation gives the text of its number, or its fault
-/

namespace DeckScript

/-! ## Operations -/

/-- The token of an operation. -/
def Operator.token : Operator → String
  | .add => "+"
  | .subtract => "-"
  | .multiply => "*"
  | .divide => "/"

/-- The result of an operation on two numbers. -/
def Operator.apply (op : Operator) (x y : Float) : Float :=
  match op with
  | .add => x + y
  | .subtract => x - y
  | .multiply => x * y
  | .divide => x / y

/-- The result of an operation, or the class of its fault: an operand without a number, or a zero
of either sign that is divided by. -/
def Operator.evaluate (op : Operator) (x y : Option Float) : Except FaultKind Float :=
  match x, y with
  | some x, some y =>
    if op = .divide ∧ (y = 0 ∨ y = -0) then .error .arithmetic else .ok (op.apply x y)
  | _, _ => .error .number

/-- A number is equal to zero if it is one of the two zeros. -/
theorem beq_zero_iff (y : Float) : y == 0 ↔ y = 0 ∨ y = -0 := by
  have hzero : (0 : Float) ≠ Float.nan ∧ (-0 : Float) ≠ Float.nan ∧ (0 : Float) ≠ -0 := by
    decide +kernel
  rw [Float.beq_iff_ne_nan_and_eq]
  constructor
  · rintro ⟨-, -, rfl | ⟨rfl, -⟩ | ⟨rfl, -⟩⟩
    · exact .inl rfl
    · exact .inl rfl
    · exact .inr rfl
  · rintro (rfl | rfl)
    · exact ⟨hzero.1, hzero.1, .inl rfl⟩
    · exact ⟨hzero.2.1, hzero.1, .inr (.inr ⟨rfl, rfl⟩)⟩

theorem Operator.ofToken?_token (op : Operator) : ofToken? op.token = some op := by cases op <;> rfl

/-- The token of an operation is not the one that assigns. -/
theorem Operator.token_ne_equals (op : Operator) : op.token ≠ "=" := by cases op <;> decide

namespace Reckoning

/-! ## Lines -/

/-- The name of a variable: an identifier that stands for nothing else. -/
structure Name where
  text : String
  isIdentifier : IsIdentifier text
  notKeyword : Vocabulary.standard.get? text = none
  ne_for : text ≠ "for"
  ne_data : text ≠ "data"
  ne_random : text ≠ "random"
  /-- The words for infinity and for not-a-number are numbers. -/
  notNumber : Number.parse? text = none

/-- A decimal number token. -/
structure Constant where
  text : String
  isNumber : IsDecimalNumber text

/-- The number that a token writes. -/
def Constant.value (c : Constant) : Float :=
  (Number.parse? c.text).get (Option.isSome_iff_exists.2 c.isNumber.exists_parse?)

/-- What an operation is applied to. -/
inductive Operand where
  | constant (c : Constant)
  | name (n : Name)

/-- The token of an operand. -/
def Operand.token : Operand → String
  | constant c => c.text
  | name n => n.text

/-- A line that calculates. -/
inductive Statement where
  /-- The variable gets a number. -/
  | set (target : Name) (value : Constant)
  /-- The variable gets the result of an operation. -/
  | operate (target : Name) (left : Operand) (op : Operator) (right : Operand)
  /-- The variable is changed by an operation. -/
  | change (target : Name) (op : Operator) (right : Operand)

namespace Statement

/-- The variable that a line assigns to. -/
def target : Statement → Name
  | set target _ | operate target .. | change target .. => target

/-- The tokens of a line. -/
def tokens : Statement → List String
  | set target value => [target.text, "=", value.text]
  | operate target left op right => [target.text, "=", left.token, op.token, right.token]
  | change target op right => [target.text, op.token, "=", right.token]

end Statement

/-! ## The reckoner -/

/-- The number of an operand, if it is one or a variable that is set. -/
def Operand.value? (vars : Table Float) : Operand → Option Float
  | constant c => some c.value
  | name n => vars.get? n.text

/-- The number that a line gives to its variable, or the class of the line's fault. -/
def Statement.value (vars : Table Float) : Statement → Except FaultKind Float
  | set _ value => .ok value.value
  | operate _ left op right => op.evaluate (left.value? vars) (right.value? vars)
  | change target op right => op.evaluate (vars.get? target.text) (right.value? vars)

/-- The numbers of the variables, and the faults with their lines. -/
structure Tally where
  vars : Table Float
  faults : List (Nat × FaultKind)

namespace Tally

/-- Nothing is set, and there are no faults. -/
def empty : Tally := ⟨.empty, []⟩

/-- Reckon with one line. A fault leaves the variables as they are. -/
def step (t : Tally) (p : Statement × Nat) : Tally :=
  match p.1.value t.vars with
  | .ok v => { t with vars := t.vars.insert p.1.target.text v }
  | .error kind => { t with faults := t.faults ++ [(p.2, kind)] }

/-- Reckon with the lines of a script. -/
def ofStatements (statements : List Statement) : Tally := (statements.zipIdx 1).foldl step empty

end Tally

/-! ## Tokens that are no names -/

theorem Constant.parse?_text (c : Constant) : Number.parse? c.text = some c.value :=
  (Option.some_get _).symm

theorem Name.ne_of_parse? {token : String} {v : Float} (h : Number.parse? token = some v)
    (n : Name) : n.text ≠ token := by
  rintro rfl
  rw [n.notNumber] at h
  cases h

/-- A name is no text that begins otherwise than an identifier. -/
theorem Name.ne_of_head? (n : Name) {token : String}
    (h : token.toList.head?.any Lexeme.isIdentifierStart = false) : n.text ≠ token := by
  rintro rfl
  obtain ⟨c, rest, hs, hc, -⟩ := n.isIdentifier
  rw [hs, List.head?_cons, Option.any_some, hc] at h
  cases h

theorem Name.ne_operator (n : Name) (op : Operator) : n.text ≠ op.token :=
  n.ne_of_head? (by cases op <;> decide +kernel)

/-! ## Texts and numbers -/

/-- The variables with texts are those with numbers, and each text writes the number itself: the two
zeros are told apart, and there is one value that is not a number. -/
structure Agrees (store : Store) (vars : Table Float) : Prop where
  names : ∀ key value, store.get? key = some value → ∃ n : Name, n.text = key
  values : ∀ key, (store.get? key).map Number.parse? = (vars.get? key).map some

namespace Agrees

variable {store : Store} {vars : Table Float}

theorem empty : Agrees .empty .empty where
  names _ _ h := nomatch h
  values _ := rfl

/-- A variable that is assigned to has the new text and the new number. -/
theorem insert (h : Agrees store vars) (n : Name) {text : String} {v : Float}
    (htext : Number.parse? text = some v) :
    Agrees (store.insert n.text text) (vars.insert n.text v) where
  names key value hkey := by
    rw [Table.get?_insert] at hkey
    split at hkey
    · rename_i heq
      exact ⟨n, heq.symm⟩
    · exact h.names key value hkey
  values key := by
    rw [Table.get?_insert, Table.get?_insert]
    split
    · exact congrArg some htext
    · exact h.values key

variable (h : Agrees store vars)
include h

/-- A token that is no name stands for itself. -/
theorem resolve_of_ne {token : String} (hne : ∀ n : Name, n.text ≠ token) :
    store.resolve token = token := by
  apply Store.resolve_of_get?_eq_none
  rw [Option.eq_none_iff_forall_ne_some]
  intro value hvalue
  obtain ⟨n, hn⟩ := h.names token value hvalue
  exact hne n hn

/-- The text of a variable writes a number. -/
theorem exists_parse? {key value : String} (hvalue : store.get? key = some value) :
    ∃ v, vars.get? key = some v ∧ Number.parse? value = some v := by
  have hkey := h.values key
  rw [hvalue] at hkey
  cases hnumber : vars.get? key with
  | none =>
    rw [hnumber] at hkey
    cases hkey
  | some v =>
    rw [hnumber] at hkey
    exact ⟨v, rfl, Option.some.inj hkey⟩

/-- What a token stands for stands for itself. -/
theorem resolve_resolve (token : String) :
    store.resolve (store.resolve token) = store.resolve token := by
  cases hvalue : store.get? token with
  | none => rw [Store.resolve_of_get?_eq_none hvalue, Store.resolve_of_get?_eq_none hvalue]
  | some value =>
    obtain ⟨v, -, hv⟩ := h.exists_parse? hvalue
    rw [Store.resolve_of_get? hvalue, h.resolve_of_ne (Name.ne_of_parse? hv)]

/-- Reading an operand from the text that it stands for gives its number. -/
theorem parse?_resolve (a : Operand) :
    Number.parse? (store.resolve a.token) = a.value? vars := by
  cases a with
  | constant c =>
    rw [Operand.token, h.resolve_of_ne (Name.ne_of_parse? c.parse?_text), c.parse?_text]
    rfl
  | name n =>
    rw [Operand.token, Operand.value?]
    cases hvalue : store.get? n.text with
    | none =>
      have hkey := h.values n.text
      rw [hvalue, Option.map_none] at hkey
      rw [Store.resolve_of_get?_eq_none hvalue, n.notNumber, Option.map_eq_none_iff.1 hkey.symm]
    | some value =>
      obtain ⟨v, hv, hparse⟩ := h.exists_parse? hvalue
      rw [Store.resolve_of_get? hvalue, hparse, hv]

/-- A token is read as an operand by reading what it stands for. -/
theorem operand_eq (token : String) : operand store token = number (store.resolve token) := by
  cases hvalue : store.get? token with
  | none => rw [operand, Store.resolve_of_get?_eq_none hvalue, number]
  | some value =>
    obtain ⟨v, -, hv⟩ := h.exists_parse? hvalue
    rw [operand, Store.resolve_of_get? hvalue, number, hv]

/-- It makes no difference that the line was already resolved. -/
theorem operand_resolve (token : String) :
    operand store (store.resolve token) = number (store.resolve token) := by
  rw [h.operand_eq, h.resolve_resolve]

/-- No operand is the word for a random number. -/
theorem resolve_ne_random (a : Operand) : store.resolve a.token ≠ "random" := by
  intro hrandom
  have hword : Number.parse? "random" = none := by decide +kernel
  have hnumber := h.parse?_resolve a
  rw [hrandom, hword] at hnumber
  cases a with
  | constant c => cases hnumber
  | name n =>
    -- A name that is not set stands for itself.
    cases hvalue : store.get? n.text with
    | none => exact n.ne_random ((Store.resolve_of_get?_eq_none hvalue).symm.trans hrandom)
    | some value =>
      obtain ⟨v, hv, -⟩ := h.exists_parse? hvalue
      rw [Operand.value?, hv] at hnumber
      cases hnumber

end Agrees

/-! ## Results -/

/-- What a run finds for the value of a line is what the reckoner finds: a text of the number, or a
fault of the class. -/
inductive Accounts : Except Fault String → Except FaultKind Float → Prop
  | value {text : String} {v : Float} (h : Number.parse? text = some v) :
      Accounts (.ok text) (.ok v)
  | fault (fault : Fault) : Accounts (.error fault) (.error fault.kind)

/-- The text of a calculated number is read as the number again. -/
theorem accounts_calculate (op : Operator) (x y : Float) :
    Accounts (do return Number.text (← calculate op x y))
      (op.evaluate (some x) (some y)) := by
  rw [Operator.evaluate]
  cases op with
  | add | subtract | multiply => exact .value (Number.parse?_text _)
  | divide =>
    rw [calculate]
    by_cases hzero : y == 0
    · rw [if_pos hzero, if_pos ⟨rfl, (beq_zero_iff y).1 hzero⟩]
      exact .fault (.divisionByZero x y)
    · rw [if_neg hzero, if_neg fun h => hzero ((beq_zero_iff y).2 h.2)]
      exact .value (Number.parse?_text _)

/-- The text of an operation on two tokens. -/
def operationText (op : Operator) (s t : String) : Except Fault String := do
  let x ← number s
  let y ← number t
  return Number.text (← calculate op x y)

theorem accounts_operationText (op : Operator) (s t : String) :
    Accounts (operationText op s t)
      (op.evaluate (Number.parse? s) (Number.parse? t)) := by
  rw [operationText, number, number]
  cases Number.parse? s with
  | none => exact .fault (.notANumber s)
  | some x =>
    cases Number.parse? t with
    | none => exact .fault (.notANumber t)
    | some y => exact accounts_calculate op x y

end Reckoning

end DeckScript
