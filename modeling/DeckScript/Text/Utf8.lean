/-!
# Reading bytes as text

Bytes are read as UTF-8. Where they are not, each longest run that begins a well-formed sequence
without completing it, or a single byte that begins none, is read as one U+FFFD.

## Main definitions

* `Lead` — what the first byte of a sequence says about the rest of it
* `decodeChars` — the characters of a list of bytes
* `decode` — the same as text
-/

namespace DeckScript.Text.Utf8

/-- What the first byte of a sequence announces: its share of the code point, the bounds of the
second byte, and how many bytes follow. -/
structure Lead where
  value : Nat
  low : UInt8
  high : UInt8
  following : Nat

/-- The announcement of a first byte; none for a byte that begins no sequence. -/
def lead? (b : UInt8) : Option Lead :=
  if b < 0x80 then some ⟨b.toNat, 0x80, 0xBF, 0⟩
  -- Continuation bytes begin nothing, and two lead bytes would only write short forms at length.
  else if b < 0xC2 then none
  else if b < 0xE0 then some ⟨b.toNat - 0xC0, 0x80, 0xBF, 1⟩
  -- The narrower bounds keep out long forms, surrogates and all beyond the last code point.
  else if b = 0xE0 then some ⟨0x0, 0xA0, 0xBF, 2⟩
  else if b = 0xED then some ⟨0xD, 0x80, 0x9F, 2⟩
  else if b < 0xF0 then some ⟨b.toNat - 0xE0, 0x80, 0xBF, 2⟩
  else if b = 0xF0 then some ⟨0, 0x90, 0xBF, 3⟩
  else if b < 0xF4 then some ⟨b.toNat - 0xF0, 0x80, 0xBF, 3⟩
  else if b = 0xF4 then some ⟨4, 0x80, 0x8F, 3⟩
  else none

/-- Take `n` further bytes into the code point `value`, the next of them between `low` and `high`.
Stops in front of the first byte that does not fit. -/
def extend (low high : UInt8) (value : Nat) : Nat → List UInt8 → Option Nat × List UInt8
  | 0, rest => (some value, rest)
  | _ + 1, [] => (none, [])
  | n + 1, b :: rest =>
    if low ≤ b ∧ b ≤ high then extend 0x80 0xBF (value * 64 + (b.toNat - 0x80)) n rest
    else (none, b :: rest)

theorem length_extend_le (low high : UInt8) (value n : Nat) (s : List UInt8) :
    (extend low high value n s).2.length ≤ s.length := by
  induction n generalizing low high value s with
  | zero => simp [extend]
  | succ n ih =>
    cases s with
    | nil => simp [extend]
    | cons b rest =>
      rw [extend]
      split
      · exact Nat.le_trans (ih ..) (by simp)
      · simp

/-- The replacement character. -/
def replacement : Char := '\uFFFD'

/-- The first character of a nonempty list of bytes, and the bytes after it. -/
def next (b : UInt8) (rest : List UInt8) : Char × List UInt8 :=
  match lead? b with
  | none => (replacement, rest)
  | some l =>
    match extend l.low l.high l.value l.following rest with
    | (some n, rest) => (Char.ofNat n, rest)
    | (none, rest) => (replacement, rest)

theorem length_next_le (b : UInt8) (s : List UInt8) : (next b s).2.length ≤ s.length := by
  unfold next
  split
  · exact Nat.le_refl _
  · rename_i l _
    have := length_extend_le l.low l.high l.value l.following s
    split <;> simp_all

/-- The characters of a list of bytes. -/
def decodeChars : List UInt8 → List Char
  | [] => []
  | b :: rest => (next b rest).1 :: decodeChars (next b rest).2
termination_by s => s.length
decreasing_by
  have := length_next_le b rest
  simp only [List.length_cons]
  omega

/-- The text of a list of bytes. -/
def decode (bytes : List UInt8) : String := String.ofList (decodeChars bytes)

end DeckScript.Text.Utf8
