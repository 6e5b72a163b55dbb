import DeckScript.Script.Block
import Mathlib.Tactic.SplitIfs

/-!
# The lines of a block

The lines of a block are lines of its script, in the order of the script, so no two of them have the
same number. Lines that open no block are blocks of their own, and a loop reaches up to the line
that closes it.

## Main definitions

* `Block.lines` — the lines of a block
* `Block.actLines`, `Source.actLines` — those of its lines that are carried out, and of a script

## Main results

* `Source.sublist_lines` — the lines of a block are lines of the script, in order
* `Source.nodup_numbers` — no two lines of a block have the same number
* `Source.blocks_eq_directives`, `Source.blocks_eq_loop` — the blocks of two kinds of scripts
-/

namespace DeckScript

/-- The lines of a block, without the one that closes it. -/
def Block.lines : Block → List SourceLine
  | .directive l => [l]
  | .loop header body => header :: body
  | .data header rows => header :: rows

/-- The lines of a block that are carried out; the rows of a data block are not. -/
def Block.actLines : Block → List SourceLine
  | .directive l => [l]
  | .loop header body => header :: body
  | .data header _ => [header]

theorem Block.sublist_actLines (b : Block) : b.actLines.Sublist b.lines := by
  cases b with
  | directive l => exact List.Sublist.refl _
  | loop header body => exact List.Sublist.refl _
  | data header rows => exact List.Sublist.cons_cons header (List.nil_sublist rows)

/-- The lines of a script that are carried out. -/
def Source.actLines (s : Source) : List SourceLine := s.blocks.flatMap Block.actLines

/-- The lines of a block that is open, in order. -/
def OpenBlock.lines (b : OpenBlock) : List SourceLine := b.close.lines

namespace Block

theorem split_cons_of_step {state next : Option OpenBlock} {done : Option Block} {l : SourceLine}
    (h : step state l = (next, done)) (rest : List SourceLine) :
    split state (l :: rest) = (done.toList ++ (split next rest).1, (split next rest).2) := by
  rw [split, h]

/-! ## Lines in order -/

/-- The lines of the block that is open, if there is one. -/
def openLines (state : Option OpenBlock) : List SourceLine := (state.map OpenBlock.lines).getD []

/-- A line that is read goes to the end of the open block, or nowhere. -/
theorem sublist_step {state next : Option OpenBlock} {done : Option Block} {l : SourceLine}
    (h : step state l = (next, done)) :
    (openLines next).Sublist (openLines state ++ [l]) ∧
      ∀ b ∈ done, b.lines.Sublist (openLines state ++ [l]) := by
  have hkeep (ls : List SourceLine) : ls.Sublist (ls ++ [l]) := List.sublist_append_left ls [l]
  have hself (ls : List SourceLine) : [l].Sublist (ls ++ [l]) := List.sublist_append_right ls [l]
  have hadd (header : SourceLine) (body : List SourceLine) :
      (header :: (l :: body).reverse).Sublist ((header :: body.reverse) ++ [l]) := by simp
  cases state with
  | none =>
    rw [step] at h
    split at h
    · obtain ⟨rfl, rfl⟩ := Prod.mk.inj h
      exact ⟨List.nil_sublist _, by simp⟩
    · split_ifs at h <;> obtain ⟨rfl, rfl⟩ := Prod.mk.inj h
      · exact ⟨hself [], by simp⟩
      · exact ⟨hself [], by simp⟩
      · exact ⟨List.nil_sublist _, fun b hb => by cases hb; exact hself []⟩
  | some b =>
    cases b with
    | loop header body =>
      rw [step] at h
      split at h
      · obtain ⟨rfl, rfl⟩ := Prod.mk.inj h
        exact ⟨hkeep _, by simp⟩
      · split_ifs at h <;> obtain ⟨rfl, rfl⟩ := Prod.mk.inj h
        · exact ⟨List.nil_sublist _, fun b hb => by cases hb; exact hkeep _⟩
        · exact ⟨hadd header body, by simp⟩
    | data header rows =>
      rw [step] at h
      split_ifs at h <;> obtain ⟨rfl, rfl⟩ := Prod.mk.inj h
      · exact ⟨List.nil_sublist _, fun b hb => by cases hb; exact hkeep _⟩
      · exact ⟨hadd header rows, by simp⟩

theorem sublist_split (state : Option OpenBlock) (ls : List SourceLine) :
    ∀ b ∈ (split state ls).1 ++ ((split state ls).2.map OpenBlock.close).toList,
      b.lines.Sublist (openLines state ++ ls) := by
  induction ls generalizing state with
  | nil =>
    intro b hb
    rw [split, List.nil_append, Option.mem_toList] at hb
    obtain ⟨c, hc, rfl⟩ := Option.map_eq_some_iff.1 hb
    dsimp only at hc
    rw [List.append_nil, hc]
    exact List.Sublist.refl _
  | cons l rest ih =>
    intro b hb
    rcases hstep : step state l with ⟨next, done⟩
    obtain ⟨hnext, hdone⟩ := sublist_step hstep
    rw [split_cons_of_step hstep, List.append_assoc, List.mem_append] at hb
    have hline : openLines state ++ [l] ++ rest = openLines state ++ l :: rest := by simp
    rw [← hline]
    rcases hb with hb | hb
    · exact (hdone b (Option.mem_toList.1 hb)).trans (List.sublist_append_left _ _)
    · exact (ih next b hb).trans (hnext.append_right rest)

/-! ## Blocks that are known -/

/-- Lines that open no block are blocks of their own. -/
theorem split_directives {ls : List SourceLine}
    (h : ∀ l ∈ ls, ∃ keyword, l.keyword? = some keyword ∧ keyword ≠ "for" ∧ keyword ≠ "data") :
    split none ls = (ls.map .directive, none) := by
  induction ls with
  | nil => rfl
  | cons l rest ih =>
    obtain ⟨keyword, hkeyword, hfor, hdata⟩ := h l List.mem_cons_self
    have hstep : step none l = (none, some (.directive l)) := by
      rw [step, hkeyword]
      dsimp only
      rw [if_neg hfor, if_neg hdata]
    rw [split_cons_of_step hstep, ih fun m hm => h m (List.mem_cons_of_mem l hm)]
    rfl

/-- The lines up to the closing one are the body of the loop. -/
theorem split_loop {header closing : SourceLine} {body : List SourceLine}
    (hbody : ∀ l ∈ body, ∃ keyword, l.keyword? = some keyword ∧ keyword ≠ "efor")
    (hcloses : closing.keyword? = some "efor") (before : List SourceLine) :
    split (some (.loop header before)) (body ++ [closing]) =
      ([.loop header (before.reverse ++ body)], none) := by
  induction body generalizing before with
  | nil =>
    have hstep : step (some (.loop header before)) closing =
        (none, some (.loop header before.reverse)) := by
      rw [step, hcloses]
      rfl
    rw [List.nil_append, split_cons_of_step hstep, List.append_nil]
    rfl
  | cons l rest ih =>
    obtain ⟨keyword, hkeyword, hefor⟩ := hbody l List.mem_cons_self
    have hstep : step (some (.loop header before)) l =
        (some (.loop header (l :: before)), none) := by
      rw [step, hkeyword]
      dsimp only
      rw [if_neg hefor]
    rw [List.cons_append, split_cons_of_step hstep,
      ih fun m hm => hbody m (List.mem_cons_of_mem l hm)]
    simp

end Block

namespace Source

/-- The blocks of a script whose lines leave no block open. -/
theorem blocks_of_split {source : Source} {blocks : List Block}
    (hfailure : source.failure = none) (h : Block.split none source.lines = (blocks, none)) :
    source.blocks = blocks := by
  rw [Source.blocks, h, hfailure]
  simp

/-- A script whose lines open no block. -/
theorem blocks_eq_directives {source : Source} (hfailure : source.failure = none)
    (h : ∀ l ∈ source.lines, ∃ keyword, l.keyword? = some keyword ∧ keyword ≠ "for" ∧
      keyword ≠ "data") :
    source.blocks = source.lines.map .directive :=
  blocks_of_split hfailure (Block.split_directives h)

/-- A script that is one loop. -/
theorem blocks_eq_loop {source : Source} {header closing : SourceLine} {body : List SourceLine}
    (hfailure : source.failure = none) (hlines : source.lines = header :: (body ++ [closing]))
    (hopens : header.keyword? = some "for") (hcloses : closing.keyword? = some "efor")
    (hbody : ∀ l ∈ body, ∃ keyword, l.keyword? = some keyword ∧ keyword ≠ "efor") :
    source.blocks = [.loop header body] := by
  have hstep : Block.step none header = (some (.loop header []), none) := by
    rw [Block.step, hopens]
    rfl
  apply blocks_of_split hfailure
  rw [hlines, Block.split_cons_of_step hstep, Block.split_loop hbody hcloses]
  rfl

/-- The lines of a block are lines of the script, in order. -/
theorem sublist_lines {source : Source} {b : Block} (h : b ∈ source.blocks) :
    b.lines.Sublist source.lines := by
  refine Block.sublist_split none source.lines b ?_
  rw [Source.blocks] at h
  revert h
  cases source.failure with
  | none => exact id
  | some reason => exact fun h => List.mem_append_left _ h

theorem mem_lines_of_mem_actLines {source : Source} {l : SourceLine} (h : l ∈ source.actLines) :
    l ∈ source.lines := by
  obtain ⟨b, hb, hl⟩ := List.mem_flatMap.1 h
  exact (sublist_lines hb).subset (b.sublist_actLines.subset hl)

theorem numbers_lines (source : Source) :
    source.lines.map (·.number) = List.range' 1 source.byteLines.length := by
  rw [Source.lines, List.map_map, ← List.zipIdx_map_snd]
  rfl

/-- A line is numbered by its place. -/
theorem number_of_lines_eq {source : Source} {before after : List SourceLine} {l : SourceLine}
    (h : source.lines = before ++ l :: after) : l.number = before.length + 1 := by
  have hplace : (source.lines.map (·.number))[before.length]? = some l.number := by
    rw [h, List.map_append, List.getElem?_append_right (by simp)]
    simp
  rw [numbers_lines] at hplace
  obtain ⟨_, hnumber⟩ := List.getElem?_eq_some_iff.1 hplace
  rw [List.getElem_range'] at hnumber
  omega

/-- No two lines of a block have the same number. -/
theorem nodup_numbers {source : Source} {b : Block} (h : b ∈ source.blocks) :
    (b.lines.map (·.number)).Nodup := by
  have hall : (source.lines.map (·.number)).Nodup := by
    rw [numbers_lines]
    exact List.nodup_range'
  exact hall.sublist ((sublist_lines h).map _)

end Source

end DeckScript
