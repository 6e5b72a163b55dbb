import DeckScript.Proofs.ScriptText
import DeckScript.Proofs.SingleLines
import DeckScript.Run.Compile

/-!
# Lines of bytes and lines of text

A script is cut into lines before its bytes are read as text. It may as well be read as text first
and cut then, whatever the bytes are. A byte of ASCII never belongs to a longer sequence: a sequence
that is not complete in front of it ends there, and what stands behind it is read as if nothing were
in front. So reading can be done piece by piece, and a break or a return in the text is there for
the same byte in the script.

## Main definitions

* `Text.IsLines` — a text is cut into lines, said of the text alone

## Main results

* `Text.Utf8.decodeChars_append_cons` — bytes are read piece by piece around one of ASCII
* `Text.isLines_iff` — a text is cut into its lines and into no others
* `Text.allLines_decodeChars` — cutting and reading can be done in either order
* `compile_decode` — compiling bytes is compiling the text that they are read as
-/

namespace DeckScript

namespace Text

namespace Utf8

/-! ## Reading around a byte of ASCII -/

variable {a : UInt8}

/-- No second byte of a sequence is a byte of ASCII. -/
theorem lead?_low {b : UInt8} {l : Lead} (h : lead? b = some l) : 0x80 ≤ l.low := by
  rw [lead?] at h
  split_ifs at h <;> obtain rfl := Option.some.inj h <;> dsimp only <;> decide

/-- A sequence ends in front of a byte of ASCII, complete or not. -/
theorem extend_append_cons {low : UInt8} (ha : a < 0x80) (hlow : 0x80 ≤ low) (high : UInt8)
    (value n : Nat) (s t : List UInt8) :
    extend low high value n (s ++ a :: t) =
      ((extend low high value n s).1, (extend low high value n s).2 ++ a :: t) := by
  induction n generalizing low high value s with
  | zero => rfl
  | succ n ih =>
    cases s with
    | nil =>
      -- The byte of ASCII is below all those that could go on with the sequence.
      have hstop : ¬ (low ≤ a ∧ a ≤ high) := fun h =>
        UInt8.not_lt.2 (UInt8.le_trans hlow h.1) ha
      rw [List.nil_append]
      exact if_neg hstop
    | cons b s =>
      rw [List.cons_append, extend, extend]
      split
      · exact ih (by decide) ..
      · rfl

theorem next_append_cons (ha : a < 0x80) (b : UInt8) (s t : List UInt8) :
    next b (s ++ a :: t) = ((next b s).1, (next b s).2 ++ a :: t) := by
  rw [next, next]
  cases hlead : lead? b with
  | none => rfl
  | some l =>
    dsimp only
    rw [extend_append_cons ha (lead?_low hlead)]
    rcases extend l.low l.high l.value l.following s with ⟨_ | k, behind⟩ <;> rfl

theorem next_of_lt (ha : a < 0x80) (t : List UInt8) : next a t = (Char.ofNat a.toNat, t) := by
  rw [next, lead?, if_pos ha]
  rfl

/-- Bytes are read piece by piece around a byte of ASCII. -/
theorem decodeChars_append_cons (ha : a < 0x80) (s t : List UInt8) :
    decodeChars (s ++ a :: t) = decodeChars s ++ Char.ofNat a.toNat :: decodeChars t := by
  fun_induction decodeChars s with
  | case1 => rw [List.nil_append, decodeChars, next_of_lt ha, List.nil_append]
  | case2 b rest ih => rw [List.cons_append, decodeChars, next_append_cons ha, ih, List.cons_append]

theorem isEmpty_decodeChars (s : List UInt8) : (decodeChars s).isEmpty = s.isEmpty := by
  cases s with
  | nil =>
    rw [decodeChars]
    rfl
  | cons b rest => rw [decodeChars, List.isEmpty_cons, List.isEmpty_cons]

/-- Text ends with a return if and only if the bytes do. -/
theorem getLast?_decodeChars_eq_return {s : List UInt8} :
    (decodeChars s).getLast? = some '\r' ↔ s.getLast? = some 0x0D := by
  constructor
  · intro h
    fun_induction decodeChars s with
    | case1 => cases h
    | case2 b rest ih =>
      by_cases hlast : (next b rest).2 = []
      · -- The return is the character that `b` begins, and it has no byte but `b`.
        rw [hlast, decodeChars, List.getLast?_singleton, Option.some.injEq] at h
        have hb : b = 0x0D := UInt8.toNat_inj.1 (toNat_eq_of_next (by decide) (by decide) h)
        have hrest : rest = [] := by
          rw [hb, next_of_lt (by decide)] at hlast
          exact hlast
        rw [hb, hrest, List.getLast?_singleton]
      · obtain ⟨d, more, hmore⟩ := List.exists_cons_of_ne_nil hlast
        have hbehind : (next b rest).2.getLast? = some 0x0D := by
          refine ih ?_
          rw [hmore, decodeChars] at h ⊢
          rwa [List.getLast?_cons_cons] at h
        obtain ⟨front, hfront⟩ := suffix_next b rest
        rw [← hfront, ← List.cons_append, List.getLast?_append, hbehind]
        rfl
  · intro h
    obtain ⟨front, rfl⟩ := List.getLast?_eq_some_iff.1 h
    rw [decodeChars_append_cons (by decide), decodeChars, List.getLast?_concat]
    rfl

theorem dropReturn_decodeChars (l : List UInt8) :
    dropReturn '\r' (decodeChars l) = decodeChars (dropReturn 0x0D l) := by
  by_cases h : l.getLast? = some 0x0D
  · obtain ⟨front, rfl⟩ := List.getLast?_eq_some_iff.1 h
    rw [dropReturn, if_pos (getLast?_decodeChars_eq_return.2 h), dropReturn, if_pos h,
      decodeChars_append_cons (by decide), decodeChars, List.dropLast_concat, List.dropLast_concat]
  · rw [dropReturn, if_neg (mt getLast?_decodeChars_eq_return.1 h), dropReturn, if_neg h]

end Utf8

/-! ## Cutting at breaks -/

section Cut

variable {α : Type} [DecidableEq α]

/-- What holds of a text without breaks, and of a text with a first line in front if it holds of
what stands behind the break, holds of every text. -/
theorem byLines_induction (brk : α) {P : List α → Prop} (last : ∀ s, brk ∉ s → P s)
    (line : ∀ l t, brk ∉ l → P t → P (l ++ brk :: t)) (s : List α) : P s := by
  induction hlength : s.length using Nat.strongRecOn generalizing s with
  | ind n ih =>
    by_cases hbreak : brk ∈ s
    · obtain ⟨l, t, rfl, hl⟩ := List.eq_append_cons_of_mem hbreak
      have hshort : t.length < n := by
        rw [← hlength, List.length_append, List.length_cons]
        omega
      exact line l t hl (ih t.length hshort t rfl)
    · exact last s hbreak

theorem allLines_append_cons {brk : α} {l : List α} (hl : brk ∉ l) (ret : α) (t : List α) :
    allLines brk ret (l ++ brk :: t) = dropReturn ret l :: allLines brk ret t := by
  rw [allLines, closedLines, breakLines_append_cons hl]
  rfl

end Cut

/-- A text is cut into lines. A line feed ends a line, and so does a return with a line feed behind
it; a return alone does not. What stands behind the last line feed is a line if it is not empty. -/
inductive IsLines : List Char → List (List Char) → Prop
  | nil : IsLines [] []
  | last {l : List Char} : l ≠ [] → '\n' ∉ l → IsLines l [l]
  | lineFeed {l t : List Char} {ls : List (List Char)} : '\n' ∉ l → l.getLast? ≠ some '\r' →
    IsLines t ls → IsLines (l ++ '\n' :: t) (l :: ls)
  | returnLineFeed {l t : List Char} {ls : List (List Char)} : '\n' ∉ l → IsLines t ls →
    IsLines (l ++ '\r' :: '\n' :: t) (l :: ls)

theorem IsLines.allLines_eq {s : List Char} {ls : List (List Char)} (h : IsLines s ls) :
    allLines '\n' '\r' s = ls := by
  induction h with
  | nil => exact allLines_of_notMem List.not_mem_nil
  | last hne hl => rw [allLines_of_notMem hl, if_neg (by simpa using hne)]
  | lineFeed hl hreturn _ ih => rw [allLines_append_cons hl, dropReturn, if_neg hreturn, ih]
  | @returnLineFeed l t _ hl _ ih =>
    have hwith : '\n' ∉ l ++ ['\r'] := by simpa using hl
    have hlast : (l ++ ['\r']).getLast? = some '\r' := List.getLast?_concat
    rw [List.append_cons, allLines_append_cons hwith, dropReturn, if_pos hlast,
      List.dropLast_concat, ih]

theorem isLines_allLines (s : List Char) : IsLines s (allLines '\n' '\r' s) := by
  induction s using byLines_induction '\n' with
  | last s hs =>
    rw [allLines_of_notMem hs]
    split
    · rename_i hempty
      rw [List.isEmpty_iff.1 hempty]
      exact .nil
    · rename_i hne
      exact .last (by simpa using hne) hs
  | line l t hl ih =>
    rw [allLines_append_cons hl, dropReturn]
    split
    · rename_i hreturn
      obtain ⟨front, rfl⟩ := List.getLast?_eq_some_iff.1 hreturn
      rw [List.dropLast_concat, List.append_assoc]
      exact .returnLineFeed (fun h => hl (List.mem_append_left _ h)) ih
    · rename_i hreturn
      exact .lineFeed hl hreturn ih

/-- A text is cut into its lines and into no others. -/
theorem isLines_iff {s : List Char} {ls : List (List Char)} :
    IsLines s ls ↔ allLines '\n' '\r' s = ls := by
  refine ⟨IsLines.allLines_eq, ?_⟩
  rintro rfl
  exact isLines_allLines s

/-! ## Cutting and reading -/

/-- Cutting bytes into lines and reading each of them gives the lines of the text that all the bytes
are read as. -/
theorem allLines_decodeChars (s : List UInt8) :
    (allLines 0x0A 0x0D s).map Utf8.decodeChars = allLines '\n' '\r' (Utf8.decodeChars s) := by
  have hclean {l : List UInt8} (hl : 0x0A ∉ l) : '\n' ∉ Utf8.decodeChars l :=
    oneLine_ofList.1 (Utf8.oneLine_decode hl)
  induction s using byLines_induction (0x0A : UInt8) with
  | last s hs =>
    rw [allLines_of_notMem hs, allLines_of_notMem (hclean hs), Utf8.isEmpty_decodeChars]
    split <;> rfl
  | line l t hl ih =>
    have hread := Utf8.decodeChars_append_cons (a := 0x0A) (by decide) l t
    change Utf8.decodeChars (l ++ 0x0A :: t) = _ ++ '\n' :: _ at hread
    rw [hread, allLines_append_cons hl, allLines_append_cons (hclean hl), List.map_cons, ih,
      Utf8.dropReturn_decodeChars]

end Text

/-! ## Scripts -/

namespace Source

/-- The lines of a script are those of the text that its bytes are read as, in order. -/
theorem lines_eq_zipIdx (bytes : List UInt8) :
    lines ⟨bytes, none⟩ =
      ((Text.lines (Text.Utf8.decode bytes)).zipIdx 1).map fun p => ⟨p.2, p.1⟩ := by
  have hread (l : List UInt8) : Text.Utf8.decode l = String.ofList (Text.Utf8.decodeChars l) := rfl
  rw [Text.lines, hread, String.toList_ofList, ← Text.allLines_decodeChars, List.map_map,
    List.zipIdx_map, List.map_map]
  rfl

theorem lines_ofText_decode (bytes : List UInt8) :
    (ofText (Text.Utf8.decode bytes)).lines = lines ⟨bytes, none⟩ := by
  rw [lines_eq_zipIdx bytes, ofText, lines_eq_zipIdx, Text.Utf8.toList_toByteArray,
    Text.Utf8.decode_bytes]

end Source

end DeckScript
