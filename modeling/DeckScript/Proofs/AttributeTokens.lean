import DeckScript.Markup.Attribute
import DeckScript.Proofs.QuotedValues

/-!
# Attributes read back

The scanner that cuts the lines of a script can cut attributes as well. An attribute is a name, an
equals sign and a value, and if the value is a single token that a blank cuts off, these are three
tokens. Quoted values are such tokens whatever they hold; values that are written as they are have
to be such tokens themselves. Then no value reaches into the next attribute, and the values of a
clause can be read back from what is written.

## Main definitions

* `IsTerminated` — a token of its own text that a blank cuts off
* `Clause.read?` — the values that the tokens of a clause hold
* `clauses` — the clauses of the elements

## Main results

* `Attribute.tokenChars_append_blank` — the tokens of an attribute and of what a blank sets off
* `tokenize_attributesText` — the tokens of attributes
* `Clause.read?_tokenize_fill` — the values of a clause are read back
* `clause_decodes` — what the scanner makes of a clause
-/

namespace DeckScript

open Lexeme

/-! ## Terminated tokens -/

/-- The text is a single token, and if it is a literal, the literal is closed. -/
def IsTerminated (token : String) : Prop :=
  tokenize token = [token] ∧ (BeginsLiteral token → IsClosedLiteral token.toList)

namespace IsTerminated

variable {token : String} (h : IsTerminated token)
include h

theorem mem_tokenize : token ∈ tokenize token := by
  rw [h.1]
  exact List.mem_singleton_self token

theorem tokenChars_eq : tokenChars token.toList = [token.toList] := tokenChars_of_mem h.mem_tokenize

theorem tokenChars_append_blank (u : List Char) :
    tokenChars (token.toList ++ ' ' :: u) = token.toList :: tokenChars u :=
  tokenChars_append_blank_of_mem h.mem_tokenize h.2 u

end IsTerminated

namespace Markup

theorem isTerminated_quote (value : String) : IsTerminated (quote value) :=
  ⟨tokenize_quote value, fun _ => isClosedLiteral_quote value⟩

/-! ## Attributes -/

/-- The name is an identifier, and the value a terminated token if it is written as it is. -/
structure Attribute.IsScannable (a : Attribute) : Prop where
  name : IsIdentifier a.name
  value : a.style = .verbatim → IsTerminated a.value

/-- The tokens of an attribute. -/
def Attribute.tokens (a : Attribute) : List String := [a.name, "=", a.style.write a.value]

namespace Attribute.IsScannable

variable {a : Attribute} (h : a.IsScannable)
include h

/-- However the value is written, it is a terminated token. -/
theorem isTerminated_write : IsTerminated (a.style.write a.value) := by
  cases hstyle : a.style with
  | verbatim => exact h.value hstyle
  | quoted => exact isTerminated_quote a.value

/-- The name and the sign are cut off, whatever stands behind the sign. -/
theorem tokenChars_head (u : List Char) :
    tokenChars (a.name.toList ++ '=' :: u) = a.name.toList :: ['='] :: tokenChars u := by
  rw [h.name.tokenChars_append_cons (by decide +kernel), tokenChars_equals]

theorem tokenChars_text : tokenChars a.text.toList = a.tokens.map String.toList := by
  have htext : a.text.toList = a.name.toList ++ '=' :: (a.style.write a.value).toList := by
    simp [Attribute.text]
  rw [htext, h.tokenChars_head, h.isTerminated_write.tokenChars_eq]
  rfl

/-- An attribute is cut off by the blank behind it. -/
theorem tokenChars_append_blank (u : List Char) :
    tokenChars (a.text.toList ++ ' ' :: u) = tokenChars a.text.toList ++ tokenChars u := by
  have htext : a.text.toList ++ ' ' :: u =
      a.name.toList ++ '=' :: ((a.style.write a.value).toList ++ ' ' :: u) := by
    simp [Attribute.text]
  rw [h.tokenChars_text, htext, h.tokenChars_head, h.isTerminated_write.tokenChars_append_blank]
  rfl

end Attribute.IsScannable

/-- The tokens of attributes are those of each of them, in order. -/
theorem tokenize_attributesText {attributes : List Attribute}
    (h : ∀ a ∈ attributes, a.IsScannable) :
    tokenize (attributesText attributes) = attributes.flatMap Attribute.tokens := by
  have hpieces : ∀ piece ∈ attributes.map Attribute.text, ∀ u : List Char,
      tokenChars (piece.toList ++ ' ' :: u) = tokenChars piece.toList ++ tokenChars u := by
    rw [List.forall_mem_map]
    exact fun a ha u => (h a ha).tokenChars_append_blank u
  have htokens : ∀ a ∈ attributes,
      (tokenChars a.text.toList).map String.ofList = a.tokens := by
    intro a ha
    rw [(h a ha).tokenChars_text, List.map_map]
    simp
  rw [tokenize_eq_map_tokenChars, attributesText, tokenChars_intercalate hpieces,
    List.flatMap_map, List.map_flatMap]
  exact List.flatMap_congr htokens

/-! ## Clauses -/

/-- The value that a token holds. -/
def Style.read? : Style → String → Option String
  | .verbatim, token => some token
  | .quoted, token => unquote token

theorem Style.read?_write (style : Style) (value : String) :
    style.read? (style.write value) = some value := by
  cases style with
  | verbatim => rfl
  | quoted => exact unquote_quote value

namespace Clause

/-- The values that the tokens of a clause hold; none if they are no attributes of the clause from
its front on. -/
def read? : Clause → List String → Option (List String)
  | _, [] => some []
  | (name, style) :: places, n :: sign :: token :: tokens =>
    if n = name ∧ sign = "=" then
      (style.read? token).bind fun value => (read? places tokens).map (value :: ·)
    else none
  | _, _ => none

/-- The attributes of a clause with values in its first places. -/
def pair (c : Clause) (values : List String) : List Attribute :=
  (c.zip values).map fun p => ⟨p.1.1, p.1.2, p.2⟩

theorem fill_of_length_le {c : Clause} {values : List String} (h : values.length ≤ c.capacity) :
    c.fill values = c.pair values := if_neg (Nat.not_lt.2 h)

theorem fill_of_capacity_lt {c : Clause} {values : List String} (h : c.capacity < values.length) :
    c.fill values = [] := if_pos h

/-- The values of a clause are read back from its tokens. -/
theorem read?_flatMap_pair {c : Clause} {values : List String} (h : values.length ≤ c.capacity) :
    c.read? ((c.pair values).flatMap Attribute.tokens) = some values := by
  induction c generalizing values with
  | nil =>
    obtain rfl : values = [] := List.length_eq_zero_iff.1 (Nat.le_zero.1 h)
    rfl
  | cons place places ih =>
    cases values with
    | nil => rfl
    | cons value values =>
      have hrest := @ih values (Nat.le_of_succ_le_succ h)
      obtain ⟨name, style⟩ := place
      change read? _ (name :: "=" :: style.write value :: (pair places values).flatMap _) = _
      rw [read?, if_pos ⟨rfl, rfl⟩, Style.read?_write, Option.bind_some, hrest, Option.map_some]

end Clause

/-- The clauses of the elements. -/
def clauses : List Clause := [.font, .spacedFont, .fillPaint, .strokePaint]

theorem isIdentifier_of_mem_clauses {c : Clause} (hc : c ∈ clauses) {place : String × Style}
    (hplace : place ∈ c) : IsIdentifier place.1 := by
  have hlower : ∀ c ∈ clauses, ∀ place ∈ c, place.1 ≠ "" ∧ place.1.toList.all Char.isLower := by
    decide
  obtain ⟨hne, hall⟩ := hlower c hc place hplace
  cases hname : place.1.toList with
  | nil => exact absurd (String.toList_eq_nil_iff.1 hname) hne
  | cons d rest =>
    rw [hname] at hall
    exact isIdentifier_of_isLower hname hall

/-- The scanner reads a clause as it was filled. If there are no more values than places, and those
that are written as they are are terminated tokens, then each value in turn gives three tokens: the
name of its place, an equals sign, and the value itself or its quoted value. There are no others,
and the values can be read back from them. If there are more values than places, the clause is
empty and leaves the head of its element as it is. -/
theorem clause_decodes {c : Clause} (hc : c ∈ clauses) (values : List String) :
    (values.length ≤ c.capacity →
      (∀ p ∈ c.zip values, p.1.2 = .verbatim → IsTerminated p.2) →
      tokenize (attributesText (c.fill values)) =
        (c.zip values).flatMap (fun p => [p.1.1, "=", p.1.2.write p.2]) ∧
      c.read? (tokenize (attributesText (c.fill values))) = some values) ∧
    (c.capacity < values.length → attributesText (c.fill values) = "" ∧
      ∀ head, appendClause head (attributesText (c.fill values)) = head) := by
  constructor
  · intro hlength hvalues
    have hscannable : ∀ a ∈ c.pair values, a.IsScannable := by
      rw [Clause.pair, List.forall_mem_map]
      intro p hp
      exact ⟨isIdentifier_of_mem_clauses hc (List.of_mem_zip hp).1, hvalues p hp⟩
    rw [Clause.fill_of_length_le hlength, tokenize_attributesText hscannable]
    refine ⟨?_, Clause.read?_flatMap_pair hlength⟩
    rw [Clause.pair, List.flatMap_map]
    rfl
  · intro hlength
    have hempty : attributesText (c.fill values) = "" := by
      rw [Clause.fill_of_capacity_lt hlength]
      rfl
    rw [hempty]
    exact ⟨rfl, fun head => rfl⟩

/-- Quoted values with double quotes, blanks and slashes in them, and next to equals signs a literal
with a blank, a slash and a number that begins with its point. -/
theorem clause_decodes_label :
    let values := ["'a b'", "/", "5\" /* \n", "\x01=", ".5"]
    Clause.spacedFont ∈ clauses ∧ values.length ≤ Clause.spacedFont.capacity ∧
      (∀ p ∈ Clause.spacedFont.zip values, p.1.2 = .verbatim → IsTerminated p.2) ∧
      tokenize "font='a b' color=/ opacity=\"5\\\" /* \\n\" lp=\"\\x01=\" link=.5" =
        ["font", "=", "'a b'", "color", "=", "/", "opacity", "=", "\"5\\\" /* \\n\"",
          "lp", "=", "\"\\x01=\"", "link", "=", ".5"] ∧
      appendClause "<rect" (attributesText (Clause.fillPaint.fill values)) = "<rect" := by
  intro values
  have hliteral : IsTerminated "'a b'" :=
    ⟨by decide +kernel, fun _ => .quoted (.inr rfl) (isEscaped_of_all (s := ['a', ' ', 'b']) rfl)⟩
  have hslash : IsTerminated "/" := ⟨by decide +kernel, fun h => absurd h (by decide)⟩
  have hnumber : IsTerminated ".5" := ⟨by decide +kernel, fun h => absurd h (by decide)⟩
  have hvalues : ∀ p ∈ Clause.spacedFont.zip values, p.1.2 = .verbatim → IsTerminated p.2 := by
    simp [values, Clause.spacedFont, hliteral, hslash, hnumber]
  have hspaced : Clause.spacedFont ∈ clauses := by decide
  have hlength : values.length ≤ Clause.spacedFont.capacity := by decide
  refine ⟨hspaced, hlength, hvalues, ?_, ?_⟩
  · have htext : attributesText (Clause.spacedFont.fill values) =
        "font='a b' color=/ opacity=\"5\\\" /* \\n\" lp=\"\\x01=\" link=.5" := by
      decide +kernel
    rw [← htext, ((clause_decodes hspaced values).1 hlength hvalues).1]
    decide +kernel
  · exact ((clause_decodes (c := .fillPaint) (by decide) values).2 (by decide)).2 "<rect"

end Markup

end DeckScript
