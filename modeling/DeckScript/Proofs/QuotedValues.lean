import DeckScript.Markup.Quote
import DeckScript.Proofs.TokenSpacing
import Mathlib.Algebra.Order.Group.Nat

/-!
# Quoted values

A quoted value can be read back: its escapes are of three sorts, a letter, two hexadecimal digits
behind an `x` and four behind a `u`, and none of the letters is one of these two. No control
character is left in it, and no double quote that could be taken for its end; so the scanner reads
it as a single token wherever it stands.

## Main definitions

* `escapesNext` — a backslash at the end of a text takes the next character along
* `Spells` — how a character stands in a quoted value
* `readHex?` — the number that hexadecimal digits make up
* `unquoteChars`, `unquote` — a quoted value read back

## Main results

* `spells_quoteChar` — the spellings of the characters
* `readHex?_hexDigits`, `length_hexDigits` — codes are of a fixed width, and can be read back
* `unquoteChars_flatMap_quoteChar` — a value is read back character by character
* `isEscaped_flatMap_quoteChar` — the inside of a quoted value
* `quote_faithful` — what quoting does to a text
-/

namespace DeckScript

namespace Lexeme

/-! ## What a backslash takes along -/

/-- The text ends with a backslash that takes the next character along. A backslash that is taken
along itself does not. -/
def escapesNext (s : List Char) : Bool := s.foldl (fun taken c => !taken && c = '\\') false

theorem escapesNext_cons {c : Char} (hc : c ≠ '\\') (s : List Char) :
    escapesNext (c :: s) = escapesNext s := by
  simp [escapesNext, hc]

theorem escapesNext_escape (c : Char) (s : List Char) :
    escapesNext ('\\' :: c :: s) = escapesNext s := by
  simp [escapesNext]

theorem IsEscaped.escapesNext_eq_false {q : Char} {s : List Char} (h : IsEscaped q s) :
    escapesNext s = false := by
  induction h with
  | nil => rfl
  | plain _ hbackslash _ ih => rw [escapesNext_cons hbackslash, ih]
  | escape _ _ ih => rw [escapesNext_escape, ih]

/-- A delimiter inside of a literal is taken along by a backslash. -/
theorem IsEscaped.escapesNext_of_eq_append {q : Char} {s front behind : List Char}
    (h : IsEscaped q s) (hq : q ≠ '\\') (hs : s = front ++ q :: behind) : escapesNext front := by
  induction h generalizing front with
  | nil => simp at hs
  | plain hdelimiter hbackslash _ ih =>
    cases front with
    | nil => exact absurd (List.cons.inj hs).1 hdelimiter
    | cons d front =>
      obtain ⟨rfl, hrest⟩ := List.cons.inj hs
      rw [escapesNext_cons hbackslash]
      exact ih hrest
  | escape _ _ ih =>
    -- The delimiter is not the backslash; it is what the backslash takes along, or stands behind.
    match front with
    | [] => exact absurd (List.cons.inj hs).1.symm hq
    | [d] =>
      obtain ⟨rfl, -⟩ := List.cons.inj hs
      rfl
    | d :: e :: front =>
      obtain ⟨rfl, htail⟩ := List.cons.inj hs
      obtain ⟨rfl, hrest⟩ := List.cons.inj htail
      rw [escapesNext_escape]
      exact ih hrest

end Lexeme

namespace Markup

open Lexeme

/-! ## Spellings -/

/-- How a character stands in a quoted value: behind a backslash as a letter or as its code, or as
it is. -/
inductive Spells (c : Char) : List Char → Prop
  | letter {l : Char} : (c, l) ∈ letterEscapes → Spells c ['\\', l]
  | shortCode : isControl c → c.toNat < 0x80 → Spells c ('\\' :: 'x' :: hexDigits 2 c.toNat)
  | longCode : isControl c → Spells c ('\\' :: 'u' :: hexDigits 4 c.toNat)
  | plain : isControl c = false → c ≠ '"' → c ≠ '\\' → Spells c [c]

theorem spells_quoteChar (c : Char) : Spells c (quoteChar c) := by
  rw [quoteChar]
  cases hletter : letterEscapes.lookup c with
  | some l =>
    obtain ⟨before, after, hescapes, -⟩ := List.lookup_eq_some_iff.1 hletter
    refine .letter ?_
    rw [hescapes]
    simp
  | none =>
    dsimp only
    split_ifs with hcontrol hshort
    · exact .shortCode hcontrol hshort
    · exact .longCode hcontrol
    · refine .plain (by simpa using hcontrol) ?_ ?_ <;>
        (rintro rfl; cases hletter)

/-! ## Codes -/

/-- The value of a hexadecimal digit. -/
def hexValue? (c : Char) : Option Nat :=
  if c.isDigit then some (c.toNat - '0'.toNat)
  else if 'a' ≤ c ∧ c ≤ 'f' then some (c.toNat - 'a'.toNat + 10)
  else none

/-- The number that hexadecimal digits make up behind those of `n`. -/
def readHexFrom? (n : Nat) (digits : List Char) : Option Nat :=
  digits.foldlM (fun n c => (hexValue? c).map (16 * n + ·)) n

/-- The number that hexadecimal digits make up. -/
def readHex? (digits : List Char) : Option Nat := readHexFrom? 0 digits

theorem hexValue?_digitChar : ∀ d < 16, hexValue? d.digitChar = some d := by decide

theorem readHexFrom?_append (n : Nat) (ds es : List Char) :
    readHexFrom? n (ds ++ es) = (readHexFrom? n ds).bind (readHexFrom? · es) :=
  List.foldlM_append

theorem readHexFrom?_digitChar {d : Nat} (hd : d < 16) (n : Nat) :
    readHexFrom? n [d.digitChar] = some (16 * n + d) := by
  simp [readHexFrom?, hexValue?_digitChar d hd]

theorem readHexFrom?_zeros (k : Nat) : readHexFrom? 0 (List.replicate k '0') = some 0 := by
  induction k with
  | zero => rfl
  | succ k ih =>
    rw [List.replicate_succ']
    rw [readHexFrom?_append, ih]
    rfl

theorem readHexFrom?_toDigits (n : Nat) : readHexFrom? 0 (Nat.toDigits 16 n) = some n := by
  induction n using Nat.strongRecOn with
  | ind n ih =>
    rw [Nat.toDigits_eq_if (by decide)]
    split
    · rename_i hsmall
      rw [readHexFrom?_digitChar hsmall, Nat.mul_zero, Nat.zero_add]
    · -- The last digit stands behind those of the quotient.
      rename_i hlarge
      rw [readHexFrom?_append, ih (n / 16) (by omega), Option.bind_some,
        readHexFrom?_digitChar (Nat.mod_lt n (by decide)), Nat.div_add_mod]

/-- Codes can be read back, whatever their width. -/
theorem readHex?_hexDigits (width n : Nat) : readHex? (hexDigits width n) = some n := by
  rw [readHex?, hexDigits, readHexFrom?_append, readHexFrom?_zeros, Option.bind_some,
    readHexFrom?_toDigits]

/-- Codes that are not too large fill their width. -/
theorem length_hexDigits {width n : Nat} (hwidth : 0 < width) (h : n < 16 ^ width) :
    (hexDigits width n).length = width := by
  have hlength := (Nat.length_toDigits_le_iff (by decide) hwidth).2 h
  rw [hexDigits, List.length_append, List.length_replicate, Nat.sub_add_cancel hlength]

theorem exists_of_mem_toDigits {n : Nat} {c : Char} (h : c ∈ Nat.toDigits 16 n) :
    ∃ d < 16, c = d.digitChar := by
  induction n using Nat.strongRecOn with
  | ind n ih =>
    rw [Nat.toDigits_eq_if (by decide)] at h
    split at h
    · rename_i hsmall
      exact ⟨n, hsmall, List.mem_singleton.1 h⟩
    · rename_i hlarge
      rcases List.mem_append.1 h with h | h
      · exact ih (n / 16) (by omega) h
      · exact ⟨n % 16, Nat.mod_lt n (by decide), List.mem_singleton.1 h⟩

/-- The digits of codes are hexadecimal digits. -/
theorem exists_of_mem_hexDigits {width n : Nat} {c : Char} (h : c ∈ hexDigits width n) :
    ∃ d < 16, c = d.digitChar := by
  rcases List.mem_append.1 h with h | h
  · exact ⟨0, by decide, List.eq_of_mem_replicate h⟩
  · exact exists_of_mem_toDigits h

theorem toNat_lt_of_isControl {c : Char} (h : isControl c) : c.toNat < 0xA0 := by
  simp only [isControl, Bool.or_eq_true, Bool.and_eq_true, decide_eq_true_eq] at h
  omega

/-! ## Reading values back -/

/-- The character that a letter behind a backslash stands for. -/
def letterCharacter? : Char → Option Char
  | '"' => some '"'
  | '\\' => some '\\'
  | 'n' => some '\n'
  | 'r' => some '\r'
  | 't' => some '\t'
  | 'a' => some '\x07'
  | 'b' => some '\x08'
  | 'v' => some '\x0B'
  | 'f' => some '\x0C'
  | _ => none

/-- The characters between the double quotes of a quoted value, without the backslashes; none if a
backslash stands in front of nothing that it goes with, or a double quote stands alone. -/
def unquoteChars : List Char → Option (List Char)
  | [] => some []
  | '\\' :: 'x' :: a :: b :: rest => do
    let n ← readHex? [a, b]
    return Char.ofNat n :: (← unquoteChars rest)
  | '\\' :: 'u' :: a :: b :: c :: d :: rest => do
    let n ← readHex? [a, b, c, d]
    return Char.ofNat n :: (← unquoteChars rest)
  | '\\' :: l :: rest => do
    let c ← letterCharacter? l
    return c :: (← unquoteChars rest)
  | c :: rest => if c = '\\' ∨ c = '"' then none else return c :: (← unquoteChars rest)

/-- The text of a quoted value. -/
def unquote (value : String) : Option String :=
  match value.toList with
  | '"' :: rest =>
    if rest.getLast? = some '"' then (unquoteChars rest.dropLast).map String.ofList else none
  | _ => none

theorem unquoteChars_letter {l : Char} (hx : l ≠ 'x') (hu : l ≠ 'u') (rest : List Char) :
    unquoteChars ('\\' :: l :: rest) =
      (letterCharacter? l).bind fun c => (unquoteChars rest).map (c :: ·) := by
  rw [unquoteChars]
  · cases letterCharacter? l <;> cases unquoteChars rest <;> rfl
  · rintro a b more rfl
    exact fun _ => hx rfl
  · rintro a b c d more rfl
    exact fun _ => hu rfl

theorem unquoteChars_plain {c : Char} (hbackslash : c ≠ '\\') (hquote : c ≠ '"')
    (rest : List Char) :
    unquoteChars (c :: rest) = (unquoteChars rest).map (c :: ·) := by
  rw [unquoteChars, if_neg (by simp [hbackslash, hquote])]
  · cases unquoteChars rest <;> rfl
  -- The equations for escapes do not apply, as there is no backslash in front.
  · exact fun a b more h => absurd h hbackslash
  · exact fun a b c d more h => absurd h hbackslash
  · exact fun l more h => absurd h hbackslash

theorem unquoteChars_shortCode {digits : List Char} (hlength : digits.length = 2)
    (rest : List Char) :
    unquoteChars ('\\' :: 'x' :: (digits ++ rest)) =
      (readHex? digits).bind fun n => (unquoteChars rest).map (Char.ofNat n :: ·) := by
  obtain ⟨a, b, rfl⟩ := List.length_eq_two.1 hlength
  rw [List.cons_append, List.singleton_append, unquoteChars]
  cases readHex? [a, b] <;> cases unquoteChars rest <;> rfl

theorem unquoteChars_longCode {digits : List Char} (hlength : digits.length = 4)
    (rest : List Char) :
    unquoteChars ('\\' :: 'u' :: (digits ++ rest)) =
      (readHex? digits).bind fun n => (unquoteChars rest).map (Char.ofNat n :: ·) := by
  obtain ⟨a, b, c, d, rfl⟩ : ∃ a b c d, digits = [a, b, c, d] := by
    match digits, hlength with
    | [a, b, c, d], _ => exact ⟨a, b, c, d, rfl⟩
  change unquoteChars ('\\' :: 'u' :: a :: b :: c :: d :: rest) = _
  rw [unquoteChars]
  cases readHex? [a, b, c, d] <;> cases unquoteChars rest <;> rfl

theorem letterEscapes_spec : ∀ p ∈ letterEscapes,
    p.2 ≠ 'x' ∧ p.2 ≠ 'u' ∧ p.2 ≠ '\n' ∧ isControl p.2 = false ∧
      letterCharacter? p.2 = some p.1 := by
  decide

/-- A spelling is read back as its character. -/
theorem Spells.unquoteChars_append {c : Char} {word : List Char} (h : Spells c word)
    (rest : List Char) : unquoteChars (word ++ rest) = (unquoteChars rest).map (c :: ·) := by
  have hcode {width : Nat} {digits : List Char} (hdigits : digits = hexDigits width c.toNat) :
      ((readHex? digits).bind fun n => (unquoteChars rest).map (Char.ofNat n :: ·)) =
        (unquoteChars rest).map (c :: ·) := by
    rw [hdigits, readHex?_hexDigits, Option.bind_some, Char.ofNat_toNat]
  cases h with
  | letter hl =>
    obtain ⟨hx, hu, -, -, hread⟩ := letterEscapes_spec _ hl
    exact (unquoteChars_letter hx hu rest).trans (by rw [hread, Option.bind_some])
  | shortCode _ hshort =>
    have hlength : (hexDigits 2 c.toNat).length = 2 := length_hexDigits (by decide) (by omega)
    exact (unquoteChars_shortCode hlength rest).trans (hcode rfl)
  | longCode hcontrol =>
    have hlow := toNat_lt_of_isControl hcontrol
    have hlength : (hexDigits 4 c.toNat).length = 4 := length_hexDigits (by decide) (by omega)
    exact (unquoteChars_longCode hlength rest).trans (hcode rfl)
  | plain _ hquote hbackslash => exact unquoteChars_plain hbackslash hquote rest

theorem unquoteChars_flatMap_quoteChar (s : List Char) :
    unquoteChars (s.flatMap quoteChar) = some s := by
  induction s with
  | nil => rfl
  | cons c s ih =>
    rw [List.flatMap_cons, (spells_quoteChar c).unquoteChars_append, ih, Option.map_some]

theorem toList_quote (s : String) :
    (quote s).toList = '"' :: (s.toList.flatMap quoteChar ++ ['"']) := String.toList_ofList

/-- A quoted value is read back as the text that was quoted. -/
theorem unquote_quote (s : String) : unquote (quote s) = some s := by
  rw [unquote, toList_quote]
  simp only
  rw [if_pos List.getLast?_concat, List.dropLast_concat, unquoteChars_flatMap_quoteChar,
    Option.map_some, String.ofList_toList]

/-- Different texts have different quoted values. -/
theorem quote_injective : Function.Injective quote := by
  intro s t h
  rw [← Option.some_inj, ← unquote_quote s, ← unquote_quote t, h]

/-! ## What a quoted value holds -/

/-- No spelling holds a control character. -/
theorem Spells.isControl_eq_false {c d : Char} {word : List Char} (h : Spells c word)
    (hd : d ∈ word) : isControl d = false := by
  have hdigit : ∀ k < 16, isControl k.digitChar = false := by decide
  have hcode {mark : Char} (hmark : isControl mark = false) {width : Nat}
      (hd : d ∈ '\\' :: mark :: hexDigits width c.toNat) : isControl d = false := by
    rcases List.mem_cons.1 hd with rfl | hd
    · decide
    rcases List.mem_cons.1 hd with rfl | hd
    · exact hmark
    obtain ⟨k, hk, rfl⟩ := exists_of_mem_hexDigits hd
    exact hdigit k hk
  cases h with
  | letter hl =>
    obtain ⟨-, -, -, hprinted, -⟩ := letterEscapes_spec _ hl
    rcases List.mem_cons.1 hd with rfl | hd
    · decide
    · rw [List.mem_singleton.1 hd]
      exact hprinted
  | shortCode _ _ => exact hcode (by decide) hd
  | longCode _ => exact hcode (by decide) hd
  | plain hprinted _ _ =>
    rw [List.mem_singleton.1 hd]
    exact hprinted

theorem isControl_eq_false_of_mem_quote {s : String} {c : Char} (h : c ∈ (quote s).toList) :
    isControl c = false := by
  rw [toList_quote, List.mem_cons, List.mem_append, List.mem_singleton, List.mem_flatMap] at h
  rcases h with rfl | ⟨d, -, hd⟩ | rfl
  · decide
  · exact (spells_quoteChar d).isControl_eq_false hd
  · decide

theorem isEscaped_hexDigits (width n : Nat) : IsEscaped '"' (hexDigits width n) := by
  have hdigit : ∀ k < 16, k.digitChar ≠ '"' ∧ k.digitChar ≠ '\\' := by decide
  apply isEscaped_of_all
  rw [List.all_eq_true]
  intro c hc
  obtain ⟨k, hk, rfl⟩ := exists_of_mem_hexDigits hc
  exact decide_eq_true (hdigit k hk)

theorem Spells.isEscaped {c : Char} {word : List Char} (h : Spells c word) :
    IsEscaped '"' word := by
  cases h with
  | letter hl =>
    obtain ⟨-, -, hbreak, -⟩ := letterEscapes_spec _ hl
    exact .escape hbreak .nil
  | shortCode _ _ => exact .escape (by decide) (isEscaped_hexDigits 2 _)
  | longCode _ => exact .escape (by decide) (isEscaped_hexDigits 4 _)
  | plain _ hquote hbackslash => exact .plain hquote hbackslash .nil

/-- Inside of a quoted value there is no double quote that no backslash takes along. -/
theorem isEscaped_flatMap_quoteChar (s : List Char) : IsEscaped '"' (s.flatMap quoteChar) := by
  induction s with
  | nil => exact .nil
  | cons c s ih => exact (spells_quoteChar c).isEscaped.append ih

theorem isClosedLiteral_quote (s : String) : IsClosedLiteral (quote s).toList := by
  rw [toList_quote]
  exact .quoted (.inl rfl) (isEscaped_flatMap_quoteChar s.toList)

/-- The scanner reads a quoted value as a single token. -/
theorem tokenize_quote (s : String) : tokenize (quote s) = [quote s] := by
  have hreads : Reads .quoted (quote s).toList [] :=
    .inl (.quoted (.closed (isClosedLiteral_quote s)))
  rw [tokenize_eq_map_tokenChars, tokenChars_of_reads hreads rfl]
  simp

/-- The only double quotes of a quoted value that no backslash takes along are its first and its
last character. -/
theorem escapesNext_eq_false_iff {s : String} {front behind : List Char}
    (h : (quote s).toList = front ++ '"' :: behind) :
    escapesNext front = false ↔ front = [] ∨ behind = [] := by
  have hinside := isEscaped_flatMap_quoteChar s.toList
  rw [toList_quote] at h
  cases front with
  | nil => exact iff_of_true rfl (.inl rfl)
  | cons d front =>
    rw [List.cons_append] at h
    obtain ⟨rfl, hrest⟩ := List.cons.inj h
    rw [escapesNext_cons (by decide)]
    rcases List.eq_nil_or_concat behind with rfl | ⟨behind, last, rfl⟩
    · obtain ⟨rfl, -⟩ := List.append_inj' hrest rfl
      exact iff_of_true hinside.escapesNext_eq_false (.inr rfl)
    · -- The double quote stands in front of the last one, so it is inside.
      rw [List.concat_eq_append, ← List.cons_append, ← List.append_assoc] at hrest
      obtain ⟨hfront, -⟩ := List.append_inj' hrest rfl
      refine iff_of_false ?_ (by simp)
      rw [hinside.escapesNext_of_eq_append (by decide) hfront]
      decide

/-- A quoted value can be decoded, and nothing in it can be taken for its end. It holds no control
character, and of its double quotes only the first and the last character are not taken along by a
backslash. The scanner reads it as a single token. Between these two double quotes stands what
decodes to the text; so different texts have different quoted values. -/
theorem quote_faithful (s : String) :
    (∀ c ∈ (quote s).toList, isControl c = false) ∧
    (∃ inside, (quote s).toList = '"' :: (inside ++ ['"']) ∧ unquoteChars inside = some s.toList) ∧
    (∀ front behind : List Char, (quote s).toList = front ++ '"' :: behind →
      (escapesNext front = false ↔ front = [] ∨ behind = [])) ∧
    tokenize (quote s) = [quote s] ∧
    ∀ t, quote s = quote t → s = t :=
  ⟨fun _ hc => isControl_eq_false_of_mem_quote hc,
    ⟨_, toList_quote s, unquoteChars_flatMap_quoteChar s.toList⟩,
    fun _ _ h => escapesNext_eq_false_iff h, tokenize_quote s, fun _ h => quote_injective h⟩

end Markup

end DeckScript
