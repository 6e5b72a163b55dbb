/-!
# Lines

Text is cut into lines at each line break. A return that stands right before a break belongs to
the break; any other return is text. What follows the last break is a line of its own only if it
is not empty.

The cut is the same for bytes and for characters, so it is defined over any alphabet with the two
marks as parameters.

## Main definitions

* `breakLines` — the pieces that a break ends, and what is left after the last of them
* `closedLines` — the lines that a break ends
* `allLines` — these and the unfinished last line, if there is one
* `lines` — the lines of a text
-/

namespace DeckScript.Text

variable {α : Type} [DecidableEq α]

/-- The pieces of `s` that end in `brk`, without it, and the rest after the last one. -/
def breakLines (brk : α) (s : List α) : List (List α) × List α :=
  match _h : s.dropWhile (· ≠ brk) with
  | [] => ([], s)
  | _ :: rest =>
    let tail := breakLines brk rest
    (s.takeWhile (· ≠ brk) :: tail.1, tail.2)
termination_by s.length
decreasing_by
  have := (List.dropWhile_sublist (fun x => decide (x ≠ brk)) (l := s)).length_le
  simp_all only [List.length_cons]
  omega

/-- A line without the return that belongs to its break. -/
def dropReturn (ret : α) (line : List α) : List α :=
  if line.getLast? = some ret then line.dropLast else line

/-- The lines that a break ends. -/
def closedLines (brk ret : α) (s : List α) : List (List α) :=
  (breakLines brk s).1.map (dropReturn ret)

/-- All lines: the ones that a break ends, and the unfinished last one if it is not empty. -/
def allLines (brk ret : α) (s : List α) : List (List α) :=
  let tail := (breakLines brk s).2
  closedLines brk ret s ++ if tail.isEmpty then [] else [tail]

/-- The lines of a text. -/
def lines (s : String) : List String := (allLines '\n' '\r' s.toList).map String.ofList

theorem breakLines_of_notMem {brk : α} {s : List α} (h : brk ∉ s) : breakLines brk s = ([], s) := by
  have hd : s.dropWhile (fun x => decide (x ≠ brk)) = [] := by
    induction s with
    | nil => rfl
    | cons c rest ih =>
      have hc : c ≠ brk := fun e => h (by simp [e])
      simp only [List.dropWhile_cons, decide_eq_true hc, if_true]
      exact ih fun hm => h (by simp [hm])
  rw [breakLines]
  split
  · rfl
  · rename_i hcons
    rw [hd] at hcons
    cases hcons

/-- A text without breaks is one line, or none if it is empty. -/
theorem allLines_of_notMem {brk ret : α} {s : List α} (h : brk ∉ s) :
    allLines brk ret s = if s.isEmpty then [] else [s] := by
  simp [allLines, closedLines, breakLines_of_notMem h]

end DeckScript.Text
