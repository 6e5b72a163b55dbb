import DeckScript.Text.Range

/-!
# White space

The characters that separate words, and the two ways of cutting text along them.

## Main definitions

* `isWhiteSpace` — the characters with the White_Space property
* `trim` — text without the white space at its two ends
* `fields` — the maximal runs of other characters, in order

## Main results

* `fieldChars_append_cons` — white space divides the fields in front of it from those behind it
* `isWhiteSpace_eq_false_of_mem_fieldChars` — a field holds something, and no white space
-/

namespace DeckScript.Text

/-- The code points that carry the White_Space property. -/
def WhiteSpace.ranges : List (Nat × Nat) :=
  [(0x09, 0x0D), (0x20, 0x20), (0x85, 0x85), (0xA0, 0xA0), (0x1680, 0x1680), (0x2000, 0x200A),
   (0x2028, 0x2029), (0x202F, 0x202F), (0x205F, 0x205F), (0x3000, 0x3000)]

/-- A character with the White_Space property: a blank, a tab, a line break or a wide blank. -/
def isWhiteSpace (c : Char) : Bool := inRanges WhiteSpace.ranges c

/-- The characters of a text without the white space at its two ends. -/
def trimChars (s : List Char) : List Char :=
  ((s.dropWhile isWhiteSpace).reverse.dropWhile isWhiteSpace).reverse

/-- A text without the white space at its two ends. -/
def trim (s : String) : String := String.ofList (trimChars s.toList)

/-- The maximal runs of characters that are not white space, in order. -/
def fieldChars : List Char → List (List Char)
  | [] => []
  | c :: rest =>
    if isWhiteSpace c then fieldChars rest
    else
      (c :: rest.takeWhile fun d => !isWhiteSpace d) ::
        fieldChars (rest.dropWhile fun d => !isWhiteSpace d)
termination_by s => s.length
decreasing_by
  · simp
  · have := (List.dropWhile_sublist (fun d => !isWhiteSpace d) (l := rest)).length_le
    simp only [List.length_cons]
    omega

/-- The words of a text: what stands between its white space, in order. -/
def fields (s : String) : List String := (fieldChars s.toList).map String.ofList

@[simp] theorem fieldChars_nil : fieldChars [] = [] := by simp [fieldChars]

/-- White space in front of a text does not count. -/
theorem fieldChars_cons_of_isWhiteSpace {c : Char} (h : isWhiteSpace c = true) (s : List Char) :
    fieldChars (c :: s) = fieldChars s := by
  rw [fieldChars, if_pos h]

/-- White space divides the fields in front of it from those behind it. -/
theorem fieldChars_append_cons {c : Char} (hc : isWhiteSpace c = true) (s t : List Char) :
    fieldChars (s ++ c :: t) = fieldChars s ++ fieldChars t := by
  fun_induction fieldChars s with
  | case1 => simp [fieldChars_cons_of_isWhiteSpace hc]
  | case2 d rest hd ih => simpa [fieldChars_cons_of_isWhiteSpace hd] using ih
  | case3 d rest hd ih =>
    have hsplit := List.takeWhile_append_dropWhile (p := fun e => !isWhiteSpace e) (l := rest)
    have hlength := congrArg List.length hsplit
    rw [List.length_append] at hlength
    rw [List.cons_append, fieldChars, if_neg hd, List.takeWhile_append, List.dropWhile_append]
    cases hdrop : rest.dropWhile fun e => !isWhiteSpace e with
    | nil =>
      -- All of `s` is one field, and the white space behind it ends the field.
      rw [hdrop, List.append_nil] at hsplit
      rw [hsplit, if_pos rfl, List.isEmpty_nil, if_pos rfl]
      simp [hc, fieldChars_cons_of_isWhiteSpace hc]
    | cons e more =>
      -- The first field ends inside `s`, so what is behind `s` does not reach it.
      rw [hdrop, List.length_cons] at hlength
      rw [hdrop] at ih
      rw [if_neg (by omega)]
      simpa using ih

/-- A field holds something, and nothing of it is white space. -/
theorem isWhiteSpace_eq_false_of_mem_fieldChars {s f : List Char} (h : f ∈ fieldChars s) :
    f ≠ [] ∧ ∀ c ∈ f, isWhiteSpace c = false := by
  fun_induction fieldChars s with
  | case1 => simp at h
  | case2 c rest hc ih => exact ih h
  | case3 c rest hc ih =>
    rcases List.mem_cons.1 h with rfl | h
    · refine ⟨by simp, fun d hd => ?_⟩
      rcases List.mem_cons.1 hd with rfl | hd
      · simpa using hc
      · simpa using List.all_eq_true.1 List.all_takeWhile d hd
    · exact ih h

end DeckScript.Text
