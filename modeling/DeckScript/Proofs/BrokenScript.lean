import DeckScript.Proofs.ScriptParts
import DeckScript.Run.Compile
import DeckScript.Vocabulary
import Mathlib.Data.Finset.Dedup
import Mathlib.Data.Finset.Max
import Mathlib.Data.List.Infix

/-!
# Scripts that break off

When the bytes of a script break off, the line that was not ended is lost, and so is the block that
was open, with its header and the lines it had. What is carried out is the longest first part of
the bytes that consists of whole lines and leaves no block open. So the compilation fails to read,
and otherwise it did what compiling that part does.

## Main definitions

* `Source.LongestSettled` — the longest settled first part of bytes

## Main results

* `Source.existsUnique_longestSettled` — all bytes have one
* `Source.blocks_of_failure` — a script that breaks off has the blocks of that part
* `compile_of_failure` — compiling it does what compiling that part does, and fails to read
-/

namespace DeckScript

/-! ## Lines at which no block is open -/

namespace Block

/-- No block is open behind the line that completes one. -/
theorem open_eq_none_of_step {state next : Option OpenBlock} {l : SourceLine} {b : Block}
    (h : step state l = (next, some b)) : next = none := by
  cases state with
  | none =>
    rw [step] at h
    split at h
    · cases h
    · split_ifs at h <;> cases h
      rfl
  | some state =>
    cases state with
    | loop header body =>
      rw [step] at h
      split at h
      · cases h
      · split_ifs at h <;> cases h
        rfl
    | data header rows =>
      rw [step] at h
      split_ifs at h <;> cases h
      rfl

/-- Lines that complete a block have a first part that leaves none open. -/
theorem exists_closed_of_split {state : Option OpenBlock} {ls : List SourceLine}
    (h : (split state ls).1 ≠ []) :
    ∃ before after, ls = before ++ after ∧ before ≠ [] ∧ (split state before).2 = none := by
  induction ls generalizing state with
  | nil => exact absurd rfl h
  | cons l rest ih =>
    rcases hstep : step state l with ⟨next, done | b⟩
    · rw [split_cons_of_step hstep, Option.toList_none, List.nil_append] at h
      obtain ⟨before, after, rfl, -, hclosed⟩ := ih h
      refine ⟨l :: before, after, rfl, List.cons_ne_nil l before, ?_⟩
      rw [split_cons_of_step hstep, hclosed]
    · obtain rfl := open_eq_none_of_step hstep
      refine ⟨[l], rest, rfl, List.cons_ne_nil l [], ?_⟩
      rw [split_cons_of_step hstep]
      rfl

end Block

namespace Text

variable {α : Type} {brk : α}

theorem eq_of_mem_getLast?_append {s t : List α} (ht : ∀ c ∈ t.getLast?, c = brk)
    (hs : t = [] → ∀ c ∈ s.getLast?, c = brk) : ∀ c ∈ (s ++ t).getLast?, c = brk := by
  rcases List.eq_nil_or_concat t with rfl | ⟨init, d, rfl⟩
  · rw [List.append_nil]
    exact hs rfl
  · rw [List.concat_eq_append] at ht ⊢
    rw [← List.append_assoc, List.getLast?_concat]
    rwa [List.getLast?_concat] at ht

/-- The first `n` lines that breaks end are a first part of the bytes. -/
theorem exists_breakLines_take [DecidableEq α] {s : List α} {n : Nat}
    (hn : n ≤ (breakLines brk s).1.length) :
    ∃ t, t <+: s ∧ (∀ c ∈ t.getLast?, c = brk) ∧ (n ≠ 0 → t ≠ []) ∧
      breakLines brk t = ((breakLines brk s).1.take n, []) := by
  induction n generalizing s with
  | zero =>
    refine ⟨[], List.nil_prefix, by simp, by simp, ?_⟩
    rw [breakLines_of_notMem List.not_mem_nil, List.take_zero]
  | succ n ih =>
    have hmem : brk ∈ s := by
      by_contra hnot
      rw [breakLines_of_notMem hnot] at hn
      cases hn
    obtain ⟨l, rest, rfl, hl⟩ := List.eq_append_cons_of_mem hmem
    rw [breakLines_append_cons hl, List.length_cons] at hn
    obtain ⟨t, ⟨u, rfl⟩, hlast, -, hlines⟩ := ih (Nat.le_of_succ_le_succ hn)
    have hcut : l ++ brk :: t = (l ++ [brk]) ++ t := by simp
    refine ⟨l ++ brk :: t, ⟨u, by simp⟩, ?_, by simp, ?_⟩
    · rw [hcut]
      exact eq_of_mem_getLast?_append hlast fun _ => by simp
    · rw [breakLines_append_cons hl, breakLines_append_cons hl, hlines, List.take_succ_cons]

end Text

namespace Source

/-! ## The longest settled part -/

/-- The longest first part of the bytes that consists of whole lines and leaves no block open. -/
structure LongestSettled (bytes part : List UInt8) : Prop where
  isFirst : part <+: bytes
  settled : Settled part
  longest : ∀ other, other <+: bytes → Settled other → other.length ≤ part.length

theorem existsUnique_longestSettled (bytes : List UInt8) : ∃! part, LongestSettled bytes part := by
  classical
  -- The first parts of the bytes are finitely many, and the empty one is settled.
  let parts := bytes.inits.toFinset.filter Settled
  have hmem {part : List UInt8} : part ∈ parts ↔ part <+: bytes ∧ Settled part := by
    rw [Finset.mem_filter, List.mem_toFinset, List.mem_inits]
  have hnonempty : parts.Nonempty := ⟨[], hmem.2 ⟨List.nil_prefix, settled_nil⟩⟩
  obtain ⟨part, hpart, hlongest⟩ := parts.exists_max_image List.length hnonempty
  obtain ⟨hfirst, hsettled⟩ := hmem.1 hpart
  refine ⟨part, ⟨hfirst, hsettled, fun other h h' => hlongest other (hmem.2 ⟨h, h'⟩)⟩, ?_⟩
  intro other h
  have hlength : other.length = part.length :=
    Nat.le_antisymm (hlongest other (hmem.2 ⟨h.isFirst, h.settled⟩))
      (h.longest part hfirst hsettled)
  exact (List.prefix_of_prefix_length_le h.isFirst hfirst hlength.le).eq_of_length hlength

/-- Whole lines behind a settled part leave the whole settled if they leave no block open. -/
theorem Settled.append {part : List UInt8} (h : Settled part) {rest : List UInt8}
    (hwhole : WholeLines rest)
    (hclosed : (Block.split none (numberedFrom (1 + (lines ⟨part, none⟩).length)
      (byteLines ⟨rest, none⟩))).2 = none) : Settled (part ++ rest) where
  whole := Text.eq_of_mem_getLast?_append hwhole fun _ => h.whole
  closed := by rw [lines_append h.whole, Block.split_append, h.closed, hclosed]

/-- Behind the longest settled part no block is completed any more. -/
theorem LongestSettled.split_eq_nil {part rest : List UInt8}
    (h : LongestSettled (part ++ rest) part) (reason : String) :
    (Block.split none (numberedFrom (1 + (lines ⟨part, none⟩).length)
      (byteLines ⟨rest, some reason⟩))).1 = [] := by
  by_contra hne
  obtain ⟨before, after, hlines, hbefore, hclosed⟩ := Block.exists_closed_of_split hne
  -- The bytes of the lines up to one that completes a block would make a longer settled part.
  obtain ⟨ls, hls⟩ : ∃ ls, ls = byteLines ⟨rest, some reason⟩ := ⟨_, rfl⟩
  rw [← hls] at hlines
  have hlength : before.length ≤ ls.length := by
    have := congrArg List.length hlines
    rw [length_numberedFrom, List.length_append] at this
    omega
  have hbreaks : before.length ≤ (Text.breakLines 0x0A rest).1.length := by
    rwa [hls, byteLines, Text.closedLines, List.length_map] at hlength
  obtain ⟨t, ⟨u, rfl⟩, hwhole, hnonempty, ht⟩ := Text.exists_breakLines_take hbreaks
  have htaken : byteLines ⟨t, none⟩ = ls.take before.length := by
    simp only [hls, byteLines, Text.allLines, Text.closedLines, ht, List.isEmpty_nil, if_true,
      List.append_nil, List.map_take]
  have hnumbered : numberedFrom (1 + (lines ⟨part, none⟩).length) (byteLines ⟨t, none⟩) =
      before := by
    rw [← List.take_append_drop before.length ls, numberedFrom_append] at hlines
    rw [htaken]
    refine (List.append_inj hlines ?_).1
    rw [length_numberedFrom, List.length_take, Nat.min_eq_left hlength]
  have hlonger := h.longest (part ++ t) ⟨u, by rw [List.append_assoc]⟩
    (h.settled.append hwhole (hnumbered ▸ hclosed))
  rw [List.length_append] at hlonger
  have hempty : t = [] := List.eq_nil_of_length_eq_zero (by omega)
  exact hnonempty (fun hzero => hbefore (List.eq_nil_of_length_eq_zero hzero)) hempty

/-- A script that breaks off has the blocks of the longest settled part of its bytes. -/
theorem blocks_of_failure {bytes part : List UInt8} (h : LongestSettled bytes part)
    (reason : String) : blocks ⟨bytes, some reason⟩ = blocks ⟨part, none⟩ := by
  obtain ⟨rest, rfl⟩ := h.isFirst
  rw [blocks_append h.settled, blocksOf, h.split_eq_nil reason]
  simp

end Source

variable {φ : Type} [FileStore φ]

/-- Let the bytes of a script break off. All that compiling it leaves behind is what compiling the
longest part leaves behind that consists of whole lines and leaves no block open; and it fails to
read where that one is completed. -/
theorem compile_of_failure (env : Environment) (levels : Nat) (bytes : List UInt8)
    (reason : String) (w : World φ) :
    (∃! part, Source.LongestSettled bytes part) ∧
    ∀ part, Source.LongestSettled bytes part →
      (compile env levels ⟨bytes, some reason⟩ w).2 = (compile env levels ⟨part, none⟩ w).2 ∧
      ((compile env levels ⟨part, none⟩ w).1 = .completed →
        (compile env levels ⟨bytes, some reason⟩ w).1 = .failed (.read reason)) := by
  refine ⟨Source.existsUnique_longestSettled bytes, fun part hpart => ?_⟩
  have hrun : run env levels ⟨bytes, some reason⟩ w = run env levels ⟨part, none⟩ w := by
    rw [run, run, Source.blocks_of_failure hpart]
  rw [compile, compile, hrun]
  refine ⟨rfl, fun hcompleted => ?_⟩
  revert hcompleted
  cases run env levels ⟨part, none⟩ w with
  | finished u => exact fun _ => rfl
  | refused u | exhausted u => exact fun h => nomatch h

/-! ## A loop that is cut off -/

/-- A script that breaks off in a loop whose header is malformed. -/
def brokenBytes : List UInt8 := Text.Utf8.bytes "deck\nfor i\nsquare i 1"

/-- The line in front of the loop. -/
def deckBytes : List UInt8 := Text.Utf8.bytes "deck\n"

theorem longestSettled_deckBytes : Source.LongestSettled brokenBytes deckBytes where
  isFirst := ⟨Text.Utf8.bytes "for i\nsquare i 1", by decide +kernel⟩
  settled := ⟨by unfold Source.WholeLines; decide +kernel, by decide +kernel⟩
  longest := by
    rintro other ⟨rest, hrest⟩ hsettled
    by_contra hlonger
    have hother : other = brokenBytes.take other.length := by rw [← hrest, List.take_left]
    have hlength : other.length < brokenBytes.length + 1 := by
      rw [← hrest, List.length_append]
      omega
    have hopen : ∀ n < brokenBytes.length + 1, deckBytes.length < n →
        ¬ ((∀ b ∈ (brokenBytes.take n).getLast?, b = 0x0A) ∧
          (Block.split none (Source.lines ⟨brokenBytes.take n, none⟩)).2 = none) := by
      decide +kernel
    rw [hother] at hsettled
    exact hopen _ hlength (Nat.lt_of_not_le hlonger) ⟨hsettled.whole, hsettled.closed⟩

theorem compile_of_failure_openLoop :
    let env : Environment := ⟨.standard, 16, false, .ofAnswers fun _ => .ok .empty⟩
    let w : World MemoryFiles := ⟨.empty, .ofSeed 1, .empty, .empty, .unlimited, [], []⟩
    let broken := compile env 1 ⟨brokenBytes, some "gone"⟩ w
    Source.LongestSettled brokenBytes deckBytes ∧ broken.1 = .failed (.read "gone") ∧
      broken.2 = (compile env 1 ⟨deckBytes, none⟩ w).2 ∧ broken.2.output.text = "<deck>\n" ∧
      broken.2.report.toList = [] := by
  intro env w broken
  obtain ⟨hstate, hverdict⟩ :=
    (compile_of_failure env 1 brokenBytes "gone" w).2 deckBytes longestSettled_deckBytes
  refine ⟨longestSettled_deckBytes, hverdict (by decide +kernel), hstate, ?_, ?_⟩
  · rw [hstate]
    decide +kernel
  · rw [hstate]
    decide +kernel

end DeckScript
