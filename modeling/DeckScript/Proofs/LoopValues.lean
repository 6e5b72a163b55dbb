import DeckScript.Proofs.Sequence
import DeckScript.Proofs.Standard
import Mathlib.Tactic.SplitIfs

/-!
# The values of a loop

The values of a loop are numbers, or they stand between double quotes. The keywords of the language
are lowercase words. So a value that is put into a line never makes it begin with a keyword.

## Main definitions

* `BeginsUpright` — a text that begins with something else than a lowercase letter

## Main results

* `Number.beginsUpright_chars` — numbers begin so
* `get?_of_mem_values` — no value of a loop is a keyword
-/

namespace DeckScript

variable {φ : Type}

/-! ## Numbers and literals -/

/-- The text begins with a character that is no lowercase letter. -/
def BeginsUpright (s : List Char) : Prop := ∃ c rest, s = c :: rest ∧ c.isLower = false

theorem BeginsUpright.append {s : List Char} (h : BeginsUpright s) (t : List Char) :
    BeginsUpright (s ++ t) := by
  obtain ⟨c, rest, rfl, hc⟩ := h
  exact ⟨c, rest ++ t, rfl, hc⟩

theorem isLower_eq_false_of_isDigit {c : Char} (h : c.isDigit) : c.isLower = false := by
  have hle : c.val ≤ 57 := by
    rw [Char.isDigit, Bool.and_eq_true, decide_eq_true_eq, decide_eq_true_eq] at h
    exact h.2
  refine Bool.and_eq_false_iff.2 (.inl (decide_eq_false ?_))
  rw [ge_iff_le, UInt32.not_le]
  exact UInt32.lt_of_le_of_lt hle (by decide)

namespace Number

theorem beginsUpright_digitChars (n : Nat) : BeginsUpright (digitChars n) := by
  obtain ⟨c, rest, h⟩ := List.exists_cons_of_ne_nil (Nat.toDigits_ne_nil : Nat.toDigits 10 n ≠ [])
  have hdigit : c.isDigit := by
    apply Nat.isDigit_of_mem_toDigits (b := 10) (n := n) (by decide) (by decide)
    rw [h]
    exact List.mem_cons_self
  exact ⟨c, rest, h, isLower_eq_false_of_isDigit hdigit⟩

theorem beginsUpright_pointAfter {ds : List Char} (h : BeginsUpright ds) (k : Nat) :
    BeginsUpright (pointAfter (k + 1) ds) := by
  obtain ⟨c, rest, rfl, hc⟩ := h
  rw [pointAfter]
  split
  · exact ⟨c, rest, rfl, hc⟩
  · exact ⟨c, _, rfl, hc⟩

theorem beginsUpright_decimalChars (l : Layout) (d : Decimal) :
    BeginsUpright (decimalChars l d) := by
  have hdigits := beginsUpright_digitChars d.digits
  rw [decimalChars]
  split
  · rw [positional]
    split_ifs
    · exact hdigits.append _
    · exact beginsUpright_pointAfter hdigits _
    · exact ⟨'0', _, rfl, rfl⟩
  · exact (beginsUpright_pointAfter hdigits 0).append _

theorem beginsUpright_chars (v : Float) : BeginsUpright (chars v) := by
  rw [chars]
  dsimp only
  split_ifs
  · exact ⟨'N', _, rfl, rfl⟩
  · exact ⟨'-', _, rfl, rfl⟩
  · exact ⟨'+', _, rfl, rfl⟩
  · exact ⟨'-', _, rfl, rfl⟩
  · exact beginsUpright_decimalChars _ _

end Number

theorem beginsUpright_requote (item : String) : BeginsUpright (Literal.requote item).toList := by
  rw [Literal.requote, String.append_assoc, String.toList_append]
  exact ⟨'"', _, rfl, rfl⟩

/-! ## Keywords -/

theorem isLower_of_mem_standardEntries :
    ∀ e ∈ Vocabulary.standardEntries, e.1.toList.head?.any Char.isLower := by
  decide +kernel

/-- All keywords of the language begin with a lowercase letter. -/
theorem get?_of_beginsUpright {word : String} (h : BeginsUpright word.toList) :
    Vocabulary.standard.get? word = none := by
  obtain ⟨c, rest, hword, hc⟩ := h
  cases hd : Vocabulary.standard.get? word with
  | none => rfl
  | some d =>
    have hlower := isLower_of_mem_standardEntries _ (Table.mem_of_get?_ofList hd)
    rw [hword, List.head?_cons, Option.any_some, hc] at hlower
    cases hlower

/-- No value of a loop is a keyword. -/
theorem get?_of_mem_values [FileStore φ] {source : Loop.Source} {w : World φ}
    {values : List String} (hvalues : (source.values w).2 = .ok values) :
    ∀ value ∈ values, Vocabulary.standard.get? value = none := by
  intro value hvalue
  apply get?_of_beginsUpright
  cases source with
  | range first last step =>
    obtain rfl := Except.ok.inj hvalues
    obtain ⟨k, -, rfl⟩ := List.mem_map.1 hvalue
    rw [Loop.rangeValue, Number.text, String.toList_ofList]
    exact Number.beginsUpright_chars _
  | items tokens =>
    obtain rfl := Except.ok.inj hvalues
    obtain ⟨token, -, rfl⟩ := List.mem_map.1 hvalue
    exact beginsUpright_requote token
  | file name =>
    rw [Loop.Source.values, World.open?] at hvalues
    cases hread : FileStore.read w.files name with
    | error reason =>
      rw [hread] at hvalues
      cases hvalues
    | ok contents =>
      rw [hread] at hvalues
      obtain rfl := Except.ok.inj hvalues
      rw [fileValues] at hvalue
      obtain ⟨line, -, rfl⟩ := List.mem_map.1 hvalue
      exact beginsUpright_requote line

end DeckScript
