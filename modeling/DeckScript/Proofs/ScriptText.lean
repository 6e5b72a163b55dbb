import DeckScript.Proofs.Coupling
import DeckScript.Proofs.TextBytes

/-!
# Scripts put together from texts

When one text ends with a line break, or is empty, the lines of the two put together are the lines
of the first and then those of the second, with higher numbers. When the first also leaves no block
open, the same is true of the blocks.

## Main definitions

* `Text.Ended` — a text that is empty or ends with a line break
* `Text.numbered` — the lines of a text, numbered from any number on
* `Block.ofLines` — the blocks of lines that make up a script
* `OpenBlock.Alike` — open blocks that are the same but for the numbers of their lines

## Main results

* `Text.exists_numbered_append` — the lines of two texts put together
* `Block.alike_ofLines` — the blocks of a text do not depend on the numbers of its lines
* `exists_blocks_ofText` — the blocks of a script put together from three texts
-/

namespace DeckScript

namespace Text

/-! ## Lines of a list -/

section Lists

variable {α : Type} [DecidableEq α] {brk : α}

/-- The first line of a text that does not begin with a break. -/
theorem breakLines_append_cons {l : List α} (hl : brk ∉ l) (t : List α) :
    breakLines brk (l ++ brk :: t) = (l :: (breakLines brk t).1, (breakLines brk t).2) := by
  have hne : ∀ c ∈ l, decide (c ≠ brk) = true := by
    intro c hc
    apply decide_eq_true
    rintro rfl
    exact hl hc
  have hstop : decide (brk ≠ brk) = false := by simp
  have htake : (l ++ brk :: t).takeWhile (fun c => decide (c ≠ brk)) = l := by
    rw [List.takeWhile_append_of_pos hne, List.takeWhile_cons, hstop]
    simp
  have hdrop : (l ++ brk :: t).dropWhile (fun c => decide (c ≠ brk)) = brk :: t := by
    rw [List.dropWhile_append_of_pos hne, List.dropWhile_cons, hstop]
    simp
  rw [breakLines]
  split
  · rename_i hnil
    rw [hdrop] at hnil
    cases hnil
  · rename_i c rest hcons
    rw [hdrop] at hcons
    obtain ⟨-, rfl⟩ := List.cons.inj hcons
    rw [htake]

/-- The lines of two lists put together, when the first is empty or ends with a break. -/
theorem breakLines_append {s : List α} (hs : ∀ c ∈ s.getLast?, c = brk) (t : List α) :
    breakLines brk (s ++ t) =
      ((breakLines brk s).1 ++ (breakLines brk t).1, (breakLines brk t).2) ∧
    (breakLines brk s).2 = [] := by
  induction hn : s.length using Nat.strongRecOn generalizing s with
  | ind n ih =>
    by_cases hmem : brk ∈ s
    -- The first line is cut off, and what is behind its break ends like the whole.
    · obtain ⟨l, rest, rfl, hl⟩ := List.eq_append_cons_of_mem hmem
      have hrest : ∀ c ∈ rest.getLast?, c = brk := by
        intro c hc
        refine hs c ?_
        rw [List.getLast?_append, List.getLast?_cons, hc]
        rfl
      have hshorter : rest.length < n := by
        rw [← hn, List.length_append, List.length_cons]
        omega
      obtain ⟨happend, htail⟩ := ih rest.length hshorter hrest rfl
      rw [List.append_assoc, List.cons_append, breakLines_append_cons hl,
        breakLines_append_cons hl, happend]
      exact ⟨rfl, htail⟩
    · -- What ends without a break can only be empty here.
      have hnil : s = [] := by
        by_contra hne
        have hlast := hs _ (List.getLast?_eq_some_getLast hne)
        exact hmem (hlast ▸ List.getLast_mem hne)
      rw [hnil, breakLines_of_notMem List.not_mem_nil]
      exact ⟨rfl, rfl⟩

theorem allLines_append {s : List α} (hs : ∀ c ∈ s.getLast?, c = brk) (ret : α) (t : List α) :
    allLines brk ret (s ++ t) = allLines brk ret s ++ allLines brk ret t := by
  obtain ⟨happend, htail⟩ := breakLines_append hs t
  simp only [allLines, closedLines, happend, htail, List.map_append, List.append_assoc,
    List.isEmpty_nil, if_true, List.nil_append]

/-- A line with its break. -/
theorem allLines_line {l : List α} (hl : brk ∉ l) {ret : α} (hret : l.getLast? ≠ some ret) :
    allLines brk ret (l ++ [brk]) = [l] := by
  rw [allLines, closedLines, breakLines_append_cons hl, breakLines_of_notMem List.not_mem_nil]
  simp [dropReturn, hret]

end Lists

/-! ## Numbered lines -/

/-- A text that is empty or ends with a line break. -/
def Ended (s : String) : Prop := s = "" ∨ ∃ t, s = t ++ "\n"

/-- The lines of a text, numbered from `k` on. -/
def numbered (k : Nat) (s : String) : List SourceLine :=
  ((allLines 0x0A 0x0D (Utf8.bytes s)).zipIdx k).map fun p => ⟨p.2, Utf8.decode p.1⟩

theorem lines_ofText (s : String) : (Source.ofText s).lines = numbered 1 s := by
  rw [Source.lines, Source.byteLines, Source.ofText, numbered]
  dsimp only
  rw [Utf8.toList_toByteArray]

theorem Ended.getLast?_bytes {s : String} (h : Ended s) :
    ∀ b ∈ (Utf8.bytes s).getLast?, b = 0x0A := by
  rcases h with rfl | ⟨t, rfl⟩
  · intro b hb
    cases hb
  · intro b hb
    rw [Utf8.bytes_append, List.getLast?_append] at hb
    exact (Option.some.inj hb).symm

/-- The lines of two texts put together, when the first is empty or ends with a line break. -/
theorem exists_numbered_append {s : String} (h : Ended s) (k : Nat) (t : String) :
    ∃ m, numbered k (s ++ t) = numbered k s ++ numbered m t := by
  refine ⟨k + (allLines 0x0A 0x0D (Utf8.bytes s)).length, ?_⟩
  rw [numbered, Utf8.bytes_append, allLines_append h.getLast?_bytes, List.zipIdx_append,
    List.map_append, numbered, numbered]

/-- The lines of a text are the same from whatever number on they are numbered. -/
theorem alike_numbered (k m : Nat) (s : String) :
    List.Forall₂ (SourceLine.Alike fun _ _ => True) (numbered k s) (numbered m s) := by
  rw [numbered, numbered]
  generalize allLines 0x0A 0x0D (Utf8.bytes s) = ls
  induction ls generalizing k m with
  | nil => exact .nil
  | cons l rest ih => exact .cons ⟨trivial, rfl⟩ (ih (k + 1) (m + 1))

theorem numbered_line {s : String} (hbreak : '\n' ∉ s.toList)
    (hreturn : (Utf8.bytes s).getLast? ≠ some 0x0D) (k : Nat) :
    numbered k (s ++ "\n") = [⟨k, s⟩] := by
  have hbyte : (0x0A : UInt8) ∉ Utf8.bytes s := by
    intro h
    exact hbreak (Utf8.mem_toList_of_mem_bytes h (by decide))
  have hbytes : Utf8.bytes (s ++ "\n") = Utf8.bytes s ++ [0x0A] := Utf8.bytes_append s "\n"
  rw [numbered, hbytes, allLines_line hbyte hreturn]
  simp only [List.zipIdx_cons, List.zipIdx_nil, List.map_cons, List.map_nil, Utf8.decode_bytes]

end Text

/-! ## Blocks -/

/-- Open blocks that are the same but for the numbers of their lines. -/
inductive OpenBlock.Alike (N : Nat → Nat → Prop) : OpenBlock → OpenBlock → Prop
  | loop {l m : SourceLine} {ls ms : List SourceLine} :
    l.Alike N m → List.Forall₂ (SourceLine.Alike N) ls ms → Alike N (.loop l ls) (.loop m ms)
  | data {l m : SourceLine} {ls ms : List SourceLine} :
    l.Alike N m → List.Forall₂ (SourceLine.Alike N) ls ms → Alike N (.data l ls) (.data m ms)

section Alike

variable {N : Nat → Nat → Prop} {l m : SourceLine} {ls ms : List SourceLine}
  {state state' : Option OpenBlock}

theorem SourceLine.Alike.keyword? (h : l.Alike N m) : l.keyword? = m.keyword? := by
  rw [SourceLine.keyword?, SourceLine.keyword?, h.text]

theorem OpenBlock.Alike.close {b c : OpenBlock} (h : b.Alike N c) : b.close.Alike N c.close := by
  cases h with
  | loop hheader hbody => exact .loop hheader (List.rel_reverse hbody)
  | data hheader hrows => exact .data hheader (List.rel_reverse hrows)

theorem Block.alike_step (hstate : Option.Rel (OpenBlock.Alike N) state state')
    (hl : l.Alike N m) :
    Option.Rel (OpenBlock.Alike N) (step state l).1 (step state' m).1 ∧
      List.Forall₂ (Block.Alike N) (step state l).2.toList (step state' m).2.toList := by
  -- Which way a line is read depends on its keyword and its text, which both lines share.
  cases hstate with
  | none =>
    rw [step, step, hl.keyword?]
    cases m.keyword? with
    | none => exact ⟨.none, .nil⟩
    | some keyword =>
      dsimp only
      split
      · exact ⟨.some (.loop hl .nil), .nil⟩
      · split
        · exact ⟨.some (.data hl .nil), .nil⟩
        · exact ⟨.none, .cons (.directive hl) .nil⟩
  | some h =>
    cases h with
    | loop hheader hbody =>
      rw [step, step, hl.keyword?]
      cases m.keyword? with
      | none => exact ⟨.some (.loop hheader hbody), .nil⟩
      | some keyword =>
        dsimp only
        split
        · exact ⟨.none, .cons (OpenBlock.Alike.loop hheader hbody).close .nil⟩
        · exact ⟨.some (.loop hheader (.cons hl hbody)), .nil⟩
    | data hheader hrows =>
      rw [step, step, hl.text]
      split
      · exact ⟨.none, .cons (OpenBlock.Alike.data hheader hrows).close .nil⟩
      · exact ⟨.some (.data hheader (.cons hl hrows)), .nil⟩

theorem Block.alike_split (hls : List.Forall₂ (SourceLine.Alike N) ls ms)
    (hstate : Option.Rel (OpenBlock.Alike N) state state') :
    Option.Rel (OpenBlock.Alike N) (split state ls).2 (split state' ms).2 ∧
      List.Forall₂ (Block.Alike N) (split state ls).1 (split state' ms).1 := by
  induction hls generalizing state state' with
  | nil => exact ⟨hstate, .nil⟩
  | cons hl _ ih =>
    obtain ⟨hstep, hdone⟩ := alike_step hstate hl
    obtain ⟨hopen, hrest⟩ := ih hstep
    exact ⟨hopen, List.rel_append hdone hrest⟩

end Alike

/-- The blocks of lines that make up a script. -/
def Block.ofLines (ls : List SourceLine) : List Block :=
  (split none ls).1 ++ ((split none ls).2.map OpenBlock.close).toList

theorem blocks_ofText (s : String) :
    (Source.ofText s).blocks = Block.ofLines (Text.numbered 1 s) := by
  rw [Source.blocks, Text.lines_ofText]
  rfl

/-- Lines that leave no block open are blocks of their own. -/
theorem Block.ofLines_append {ls : List SourceLine} (h : (split none ls).2 = none)
    (ms : List SourceLine) : ofLines (ls ++ ms) = ofLines ls ++ ofLines ms := by
  simp only [ofLines, split_append, h, Option.map_none, Option.toList_none, List.append_nil,
    List.append_assoc]

/-- The blocks of a text are the same from whatever number on its lines are numbered. -/
theorem Block.alike_ofLines (k m : Nat) (s : String) :
    List.Forall₂ (Block.Alike fun _ _ => True) (ofLines (Text.numbered k s))
      (ofLines (Text.numbered m s)) := by
  obtain ⟨hopen, hblocks⟩ := alike_split (Text.alike_numbered k m s) .none
  refine List.rel_append hblocks ?_
  revert hopen
  generalize (split none (Text.numbered k s)).2 = state
  generalize (split none (Text.numbered m s)).2 = state'
  rintro (h | -)
  · exact .cons h.close .nil
  · exact .nil

theorem Block.split_numbered {s : String} (h : (split none (Text.numbered 1 s)).2 = none)
    (k : Nat) : (split none (Text.numbered k s)).2 = none := by
  have hopen := (alike_split (Text.alike_numbered k 1 s) .none).1
  rw [h] at hopen
  revert hopen
  generalize (split none (Text.numbered k s)).2 = state
  rintro (- | -)
  rfl

/-- The blocks of a script put together from three texts, the first two of which end with a line
break, or are empty, and leave no block open. -/
theorem exists_blocks_ofText {a c : String} (ha : Text.Ended a) (hc : Text.Ended c)
    (hasplit : (Block.split none (Source.ofText a).lines).2 = none)
    (hcsplit : (Block.split none (Source.ofText c).lines).2 = none) (b : String) :
    ∃ k m, (Source.ofText (a ++ c ++ b)).blocks = (Source.ofText a).blocks ++
      (Block.ofLines (Text.numbered k c) ++ Block.ofLines (Text.numbered m b)) := by
  rw [Text.lines_ofText] at hasplit hcsplit
  obtain ⟨k, hk⟩ := Text.exists_numbered_append ha 1 (c ++ b)
  obtain ⟨m, hm⟩ := Text.exists_numbered_append hc k b
  refine ⟨k, m, ?_⟩
  rw [blocks_ofText, String.append_assoc, hk, hm, Block.ofLines_append hasplit,
    Block.ofLines_append (Block.split_numbered hcsplit k), blocks_ofText]

end DeckScript
