import DeckScript.Text.Utf8

/-!
# Text and its bytes

A text is read back from its own bytes as it was. The bytes of a text are those of its characters,
and only the byte of a character of ASCII has a value below 128.

## Main definitions

* `bytes` — the bytes of a text

## Main results

* `decode_bytes` — reading the bytes of a text gives the text
* `mem_toList_of_mem_bytes` — a byte of ASCII is there for a character of ASCII only
-/

namespace DeckScript

namespace Text.Utf8

/-! ## One character -/

theorem toNat_ofNat_lt {k : Nat} (h : k < 256) : (UInt8.ofNat k).toNat = k := by
  rw [UInt8.toNat_ofNat', Nat.mod_eq_of_lt h]

/-- A continuation byte adds its six bits to the code point. -/
theorem extend_cons {low high : UInt8} {k : Nat} (value n : Nat) (rest : List UInt8)
    (hlow : low.toNat ≤ k % 64 + 128) (hhigh : k % 64 + 128 ≤ high.toNat) :
    extend low high value (n + 1) (UInt8.ofNat (k % 64 + 128) :: rest) =
      extend 0x80 0xBF (value * 64 + k % 64) n rest := by
  have hbyte : (UInt8.ofNat (k % 64 + 128)).toNat = k % 64 + 128 := toNat_ofNat_lt (by omega)
  have hbounds : low ≤ UInt8.ofNat (k % 64 + 128) ∧ UInt8.ofNat (k % 64 + 128) ≤ high := by
    rw [UInt8.le_iff_toNat_le, UInt8.le_iff_toNat_le, hbyte]
    exact ⟨hlow, hhigh⟩
  rw [extend, if_pos hbounds, hbyte, Nat.add_sub_cancel]

theorem lead?_one {k : Nat} (h : k < 0x80) :
    lead? (UInt8.ofNat k) = some ⟨k, 0x80, 0xBF, 0⟩ := by
  have hbyte := toNat_ofNat_lt (show k < 256 by omega)
  have hlt : UInt8.ofNat k < 0x80 := by
    rw [UInt8.lt_iff_toNat_lt, hbyte]
    exact h
  rw [lead?, if_pos hlt, hbyte]

theorem lead?_two {k : Nat} (hlow : 2 ≤ k) (hhigh : k < 32) :
    lead? (UInt8.ofNat (k + 0xC0)) = some ⟨k, 0x80, 0xBF, 1⟩ := by
  have hbyte := toNat_ofNat_lt (show k + 0xC0 < 256 by omega)
  simp only [lead?, UInt8.lt_iff_toNat_lt, ← UInt8.toNat_inj, hbyte, UInt8.reduceToNat]
  rw [if_neg (by omega), if_neg (by omega), if_pos (by omega), Nat.add_sub_cancel]

theorem lead?_three {k : Nat} (h : k < 16) :
    lead? (UInt8.ofNat (k + 0xE0)) = some ⟨k, if k = 0 then 0xA0 else 0x80,
      if k = 13 then 0x9F else 0xBF, 2⟩ := by
  have hbyte := toNat_ofNat_lt (show k + 0xE0 < 256 by omega)
  simp only [lead?, UInt8.lt_iff_toNat_lt, ← UInt8.toNat_inj, hbyte, UInt8.reduceToNat]
  rw [if_neg (by omega), if_neg (by omega), if_neg (by omega)]
  by_cases h₀ : k = 0
  · simp [h₀]
  by_cases h₁ : k = 13
  · simp [h₁]
  rw [if_neg (by omega), if_neg (by omega), if_pos (by omega), if_neg h₀, if_neg h₁,
    Nat.add_sub_cancel]

theorem lead?_four {k : Nat} (h : k < 5) :
    lead? (UInt8.ofNat (k + 0xF0)) = some ⟨k, if k = 0 then 0x90 else 0x80,
      if k = 4 then 0x8F else 0xBF, 3⟩ := by
  have hbyte := toNat_ofNat_lt (show k + 0xF0 < 256 by omega)
  simp only [lead?, UInt8.lt_iff_toNat_lt, ← UInt8.toNat_inj, hbyte, UInt8.reduceToNat]
  rw [if_neg (by omega), if_neg (by omega), if_neg (by omega), if_neg (by omega),
    if_neg (by omega), if_neg (by omega)]
  by_cases h₀ : k = 0
  · simp [h₀]
  by_cases h₁ : k = 4
  · simp [h₁]
  rw [if_neg (by omega), if_pos (by omega), if_neg h₀, if_neg h₁, Nat.add_sub_cancel]

/-- Reading a character's bytes gives the character and leaves the bytes behind it. -/
theorem next_utf8EncodeChar (c : Char) (rest : List UInt8) :
    ∃ b bs, String.utf8EncodeChar c = b :: bs ∧ next b (bs ++ rest) = (c, rest) := by
  have hvalid : c.toNat < 0xD800 ∨ 0xDFFF < c.toNat ∧ c.toNat < 0x110000 := c.valid
  have hchar : Char.ofNat c.toNat = c := Char.ofNat_toNat c
  rw [String.utf8EncodeChar]
  change c.toNat < 0xD800 ∨ _ at hvalid
  have hv : c.val.toNat = c.toNat := rfl
  simp only [hv]
  generalize c.toNat = v at *
  -- One case for each number of bytes, and in each the code point is put together again.
  by_cases h₁ : v ≤ 0x7F
  · rw [if_pos h₁]
    refine ⟨_, _, rfl, ?_⟩
    rw [next, lead?_one (by omega)]
    simp only [extend, hchar, List.nil_append]
  by_cases h₂ : v ≤ 0x7FF
  · rw [if_neg h₁, if_pos h₂]
    refine ⟨_, _, rfl, ?_⟩
    rw [next, lead?_two (by omega) (by omega)]
    dsimp only [List.cons_append, List.nil_append]
    rw [extend_cons _ _ _ (by simp) (by simp; omega)]
    have hvalue : v / 64 % 32 * 64 + v % 64 = v := by omega
    simp only [extend, hvalue, hchar]
  by_cases h₃ : v ≤ 0xFFFF
  · rw [if_neg h₁, if_neg h₂, if_pos h₃]
    refine ⟨_, _, rfl, ?_⟩
    rw [next, lead?_three (by omega)]
    dsimp only [List.cons_append, List.nil_append]
    -- The bounds of the second byte keep out long forms and surrogates.
    have hlow : (if v / 4096 % 16 = 0 then 0xA0 else 0x80 : UInt8).toNat ≤ v / 64 % 64 + 128 := by
      split <;> simp only [UInt8.reduceToNat] <;> omega
    have hhigh : v / 64 % 64 + 128 ≤ (if v / 4096 % 16 = 13 then 0x9F else 0xBF : UInt8).toNat := by
      split <;> simp only [UInt8.reduceToNat] <;> omega
    rw [extend_cons _ _ _ hlow hhigh, extend_cons _ _ _ (by simp) (by simp; omega)]
    have hvalue : (v / 4096 % 16 * 64 + v / 64 % 64) * 64 + v % 64 = v := by omega
    simp only [extend, hvalue, hchar]
  · rw [if_neg h₁, if_neg h₂, if_neg h₃]
    refine ⟨_, _, rfl, ?_⟩
    rw [next, lead?_four (by omega)]
    dsimp only [List.cons_append, List.nil_append]
    have hlow : (if v / 262144 % 8 = 0 then 0x90 else 0x80 : UInt8).toNat ≤
        v / 4096 % 64 + 128 := by
      split <;> simp only [UInt8.reduceToNat] <;> omega
    have hhigh : v / 4096 % 64 + 128 ≤
        (if v / 262144 % 8 = 4 then 0x8F else 0xBF : UInt8).toNat := by
      split <;> simp only [UInt8.reduceToNat] <;> omega
    rw [extend_cons _ _ _ hlow hhigh, extend_cons _ _ _ (by simp) (by simp; omega),
      extend_cons _ _ _ (by simp) (by simp; omega)]
    have hvalue : ((v / 262144 % 8 * 64 + v / 4096 % 64) * 64 + v / 64 % 64) * 64 + v % 64 = v := by
      omega
    simp only [extend, hvalue, hchar]

/-- The only byte of a character that has a value below 128 is that of a character of ASCII. -/
theorem toNat_eq_of_mem_utf8EncodeChar {c : Char} {b : UInt8}
    (h : b ∈ String.utf8EncodeChar c) (hb : b.toNat < 0x80) : c.toNat = b.toNat := by
  have hv : c.val.toNat = c.toNat := rfl
  simp only [String.utf8EncodeChar, hv] at h
  generalize c.toNat = v at *
  by_cases h₁ : v ≤ 0x7F
  · rw [if_pos h₁, List.mem_singleton] at h
    rw [h, toNat_ofNat_lt (by omega)]
  -- All bytes of longer sequences are lead bytes or continuation bytes.
  rw [if_neg h₁] at h
  by_cases h₂ : v ≤ 0x7FF
  · rw [if_pos h₂] at h
    simp only [List.mem_cons, List.not_mem_nil, or_false] at h
    rcases h with rfl | rfl <;> (rw [toNat_ofNat_lt (by omega)] at hb; omega)
  rw [if_neg h₂] at h
  by_cases h₃ : v ≤ 0xFFFF
  · rw [if_pos h₃] at h
    simp only [List.mem_cons, List.not_mem_nil, or_false] at h
    rcases h with rfl | rfl | rfl <;> (rw [toNat_ofNat_lt (by omega)] at hb; omega)
  · rw [if_neg h₃] at h
    simp only [List.mem_cons, List.not_mem_nil, or_false] at h
    rcases h with rfl | rfl | rfl | rfl <;> (rw [toNat_ofNat_lt (by omega)] at hb; omega)

/-! ## Texts -/

theorem decodeChars_flatMap (cs : List Char) :
    decodeChars (cs.flatMap String.utf8EncodeChar) = cs := by
  induction cs with
  | nil => rw [List.flatMap_nil, decodeChars]
  | cons c rest ih =>
    obtain ⟨b, bs, hbytes, hnext⟩ := next_utf8EncodeChar c (rest.flatMap String.utf8EncodeChar)
    rw [List.flatMap_cons, hbytes, List.cons_append, decodeChars, hnext, ih]

/-- The bytes of a text. -/
def bytes (s : String) : List UInt8 := s.toList.flatMap String.utf8EncodeChar

theorem bytes_append (s t : String) : bytes (s ++ t) = bytes s ++ bytes t := by
  rw [bytes, String.toList_append, List.flatMap_append, bytes, bytes]

theorem toList_loop (b : ByteArray) (i : Nat) (acc : List UInt8) :
    ByteArray.toList.loop b i acc = acc.reverse ++ b.data.toList.drop i := by
  fun_induction ByteArray.toList.loop b i acc with
  | case1 i acc hi ih =>
    have hlength : i < b.data.toList.length := by simpa using hi
    have hget : b.get! i = b.data.toList[i] := getElem!_pos b.data i hi
    rw [ih, List.drop_eq_getElem_cons hlength, hget, List.reverse_cons, List.append_assoc,
      List.singleton_append]
  | case2 i acc hi =>
    rw [List.drop_eq_nil_of_le (by simpa using hi), List.append_nil]

/-- The packed bytes of a text are its bytes. -/
theorem toList_toByteArray (s : String) : s.toByteArray.toList = bytes s := by
  rw [ByteArray.toList, toList_loop, List.reverse_nil, List.nil_append, List.drop_zero,
    ← String.utf8Encode_toList, List.utf8Encode, List.toList_data_toByteArray, bytes]

/-- Reading the bytes of a text gives the text. -/
theorem decode_bytes (s : String) : decode (bytes s) = s := by
  rw [decode, bytes, decodeChars_flatMap, String.ofList_toList]

/-- A character of ASCII whose byte is among the bytes of a text is in the text. -/
theorem mem_toList_of_mem_bytes {s : String} {b : UInt8} (h : b ∈ bytes s)
    (hb : b.toNat < 0x80) : Char.ofNat b.toNat ∈ s.toList := by
  obtain ⟨c, hc, hbc⟩ := List.mem_flatMap.1 h
  rw [← toNat_eq_of_mem_utf8EncodeChar hbc hb, Char.ofNat_toNat]
  exact hc

end Text.Utf8

end DeckScript
