import DeckScript.Proofs.ScriptText
import DeckScript.Proofs.TokenSpacing
import DeckScript.Vocabulary

/-!
# The line that includes a file

A name that stands between double quotes as it is makes a line with two tokens, and the line asks
for the file of that name.

## Main definitions

* `PlainName` — a name that needs no escapes between double quotes
* `quotedName`, `includeLine` — its token, and the line that includes the file

## Main results

* `tokenize_includeLine` — the tokens of the line
* `numbered_includeLine`, `ofLines_includeLine` — the line is a line and a block of its own
* `ask_includeLine` — the line asks for the file
-/

namespace DeckScript

open Lexeme

/-- A name that can stand between double quotes as it is. -/
structure PlainName (name : String) : Prop where
  nonempty : name ≠ ""
  quote : '"' ∉ name.toList
  backslash : '\\' ∉ name.toList
  newline : '\n' ∉ name.toList

/-- The token that holds a name. -/
def quotedName (name : String) : String := "\"" ++ name ++ "\""

theorem toList_quotedName (name : String) :
    (quotedName name).toList = '"' :: (name.toList ++ ['"']) := by
  simp [quotedName]

theorem utf8ByteSize_quotedName (name : String) :
    (quotedName name).utf8ByteSize = name.utf8ByteSize + 2 := by
  rw [quotedName, String.utf8ByteSize_append, String.utf8ByteSize_append]
  change 1 + name.utf8ByteSize + 1 = _
  omega

theorem inner_quotedName (name : String) : Literal.inner (quotedName name) = name := by
  rw [Literal.inner, toList_quotedName, List.drop_succ_cons, List.drop_zero, List.dropLast_concat,
    String.ofList_toList]

theorem utf8ByteSize_pos {name : String} (h : name ≠ "") : 0 < name.utf8ByteSize :=
  Nat.pos_of_ne_zero fun hzero => h (String.utf8ByteSize_eq_zero_iff.1 hzero)

/-- The line that includes a file. -/
def includeLine (name : String) : String := "include " ++ quotedName name

namespace PlainName

variable {name : String}

theorem isClosedLiteral (h : PlainName name) : IsClosedLiteral (quotedName name).toList := by
  rw [toList_quotedName]
  refine .quoted (.inl rfl) (isEscaped_of_all (List.all_eq_true.2 fun c hc => decide_eq_true ?_))
  exact ⟨ne_of_mem_of_not_mem hc h.quote, ne_of_mem_of_not_mem hc h.backslash⟩

/-- A closed literal is cut off by whatever follows it. -/
theorem tokenChars_append (h : PlainName name) (rest : List Char) :
    tokenChars ((quotedName name).toList ++ rest) =
      (quotedName name).toList :: tokenChars rest := by
  have hreads : Reads .quoted (quotedName name).toList rest :=
    .inl (.quoted (.closed h.isClosedLiteral))
  rw [hreads.tokenChars_append]
  rfl

end PlainName

theorem tokenize_includeLine {name : String} (h : PlainName name) :
    tokenize (includeLine name) = ["include", quotedName name] := by
  have hlist : (includeLine name).toList =
      "include".toList ++ ' ' :: ((quotedName name).toList ++ []) := by
    simp [includeLine]
  have hinclude : IsIdentifier "include" := isIdentifier_of_isLower rfl (by decide)
  rw [tokenize_eq_map_tokenChars, hlist, hinclude.tokenChars_append, h.tokenChars_append,
    tokenChars_nil]
  simp

theorem file?_quotedName {name : String} (h : name ≠ "") :
    Literal.file? (quotedName name) = some name := by
  -- A token of two bytes would be the empty name, which is none.
  have hsize : 3 ≤ (quotedName name).utf8ByteSize := by
    have hname := utf8ByteSize_pos h
    rw [utf8ByteSize_quotedName]
    omega
  have hopens : Literal.opens (quotedName name) := by
    rw [Literal.opens, toList_quotedName]
    rfl
  rw [Literal.file?, inner_quotedName, hopens, if_neg]
  simpa using hsize

/-! ## The block of the line -/

theorem numbered_includeLine {name : String} (h : PlainName name) (k : Nat) :
    Text.numbered k (includeLine name ++ "\n") = [⟨k, includeLine name⟩] := by
  refine Text.numbered_line ?_ ?_ k
  · have := h.newline
    simp [includeLine, quotedName, this]
  -- The quote at the end keeps a return of the name away from the break.
  · have hlast : (Text.Utf8.bytes (includeLine name)).getLast? = some 0x22 := by
      rw [includeLine, quotedName, Text.Utf8.bytes_append, Text.Utf8.bytes_append,
        List.getLast?_append, List.getLast?_append]
      rfl
    rw [hlast]
    decide

theorem step_includeLine {name : String} (h : PlainName name) (k : Nat) :
    Block.step none ⟨k, includeLine name⟩ =
      (none, some (.directive ⟨k, includeLine name⟩)) := by
  have hkeyword : SourceLine.keyword? ⟨k, includeLine name⟩ = some "include" := by
    rw [SourceLine.keyword?, tokenize_includeLine h, if_neg]
    · rfl
    · simp [includeLine]
  rw [Block.step, hkeyword]
  rfl

theorem split_includeLine {name : String} (h : PlainName name) (k : Nat) :
    Block.split none (Text.numbered k (includeLine name ++ "\n")) =
      ([.directive ⟨k, includeLine name⟩], none) := by
  rw [numbered_includeLine h, Block.split, step_includeLine h]
  rfl

theorem ofLines_includeLine {name : String} (h : PlainName name) (k : Nat) :
    Block.ofLines (Text.numbered k (includeLine name ++ "\n")) =
      [.directive ⟨k, includeLine name⟩] := by
  rw [Block.ofLines, split_includeLine h]
  rfl

/-! ## What the line asks for -/

theorem tokens_includeLine {name : String} (h : PlainName name) {store : Store}
    (hstore : store.get? (quotedName name) = none) (k : Nat) :
    (SourceLine.record ⟨k, includeLine name⟩ store).tokens = ["include", quotedName name] := by
  rw [SourceLine.tokens_record (l := ⟨k, includeLine name⟩) (tokenize_includeLine h),
    List.map_singleton, Store.resolve_of_get?_eq_none hstore]

theorem get?_includeLine {name : String} (h : PlainName name) {store : Store}
    (hstore : store.get? (quotedName name) = none) (k : Nat) :
    Vocabulary.standard.get? (SourceLine.record ⟨k, includeLine name⟩ store).keyword =
      some Directive.inclusion := by
  rw [Record.keyword, Record.arg, tokens_includeLine h hstore]
  rfl

theorem ask_includeLine {name : String} (h : PlainName name) {store : Store}
    (hstore : store.get? (quotedName name) = none) (k : Nat) :
    Directive.inclusion.ask store (SourceLine.record ⟨k, includeLine name⟩ store) =
      .ok (.enter name) := by
  have hlength : (SourceLine.record ⟨k, includeLine name⟩ store).length = 2 := by
    rw [Record.length, tokens_includeLine h hstore]
    rfl
  have harg : (SourceLine.record ⟨k, includeLine name⟩ store).arg 1 = quotedName name := by
    rw [Record.arg, tokens_includeLine h hstore]
    rfl
  rw [Directive.ask, hlength, if_pos (by rfl)]
  simp only [Directive.inclusion, harg, fileName, file?_quotedName h.nonempty]
  rfl

end DeckScript
