import DeckScript.Geometry.Brace
import Mathlib.Algebra.Field.Rat
import Mathlib.Data.Fin.VecNotation
import Mathlib.Tactic.Ring

/-!
# The figures of braces and arrowheads

A brace is one line: it comes from one of its ends, runs through its point and goes on to its other
end. Its two halves are mirror images of each other, and so are the braces of opposite directions.
The same holds of the heads of curved arrows. Everything here is about exact numbers, so that the
strokes meet without any gap.

The strokes of a brace are listed in an order of their own, which differs between the directions
along the two axes. So they are compared with the halves up to their order.

## Main definitions

* `Point.acrossVertical`, `Point.acrossHorizontal` — the mirror images of a point
* `Stroke.IsPath` — strokes that lead from a point to another
* `Stroke.IsHalf` — a curve, a line and a curve that do so
* `Direction.offset`, `Direction.behind` — how far a point lies off an axis, and behind another point
* `Stroke.IsFigure`, `Arrowhead.IsFigure` — the figures of braces and heads, with their measures

## Main results

* `exists_halves_uprightBrace`, `exists_halves_levelBrace` — the halves of a brace
* `exists_isFigure_brace`, `isFigure_axial` — braces and heads have these figures
* `brace_axial_symmetric` — braces and heads are connected and symmetric
-/

namespace DeckScript.Geometry

/-! ## Mirror images -/

/-- The mirror image of a point across the vertical line at `a`. -/
def Point.acrossVertical (a : ℚ) (p : Point ℚ) : Point ℚ := ⟨2 * a - p.x, p.y⟩

/-- The mirror image of a point across the horizontal line at `b`. -/
def Point.acrossHorizontal (b : ℚ) (p : Point ℚ) : Point ℚ := ⟨p.x, 2 * b - p.y⟩

namespace Stroke

variable {α β : Type}

/-- Where a stroke begins. -/
def start : Stroke α → Point α
  | .curve p _ _ => p
  | .line p _ => p

/-- Where a stroke ends. -/
def finish : Stroke α → Point α
  | .curve _ _ r => r
  | .line _ q => q

/-- The same stroke, drawn from its end. -/
def reverse : Stroke α → Stroke α
  | .curve p q r => .curve r q p
  | .line p q => .line q p

/-- A stroke with each of its points moved. -/
def map (f : Point α → Point β) : Stroke α → Stroke β
  | .curve p q r => .curve (f p) (f q) (f r)
  | .line p q => .line (f p) (f q)

@[simp] theorem start_reverse (s : Stroke α) : s.reverse.start = s.finish := by cases s <;> rfl

@[simp] theorem finish_reverse (s : Stroke α) : s.reverse.finish = s.start := by cases s <;> rfl

@[simp] theorem start_map (f : Point α → Point β) (s : Stroke α) : (s.map f).start = f s.start := by
  cases s <;> rfl

@[simp] theorem finish_map (f : Point α → Point β) (s : Stroke α) :
    (s.map f).finish = f s.finish := by
  cases s <;> rfl

/-! ## Paths -/

/-- Strokes that lead from a point to another: each begins where the one before it ends. -/
inductive IsPath : Point α → List (Stroke α) → Point α → Prop
  | nil (p : Point α) : IsPath p [] p
  | cons (s : Stroke α) {rest : List (Stroke α)} {q : Point α} :
    IsPath s.finish rest q → IsPath s.start (s :: rest) q

namespace IsPath

variable {p q r : Point α} {ss ts : List (Stroke α)}

theorem singleton (s : Stroke α) : IsPath s.start [s] s.finish := .cons s (.nil s.finish)

theorem append (hs : IsPath p ss q) (ht : IsPath q ts r) : IsPath p (ss ++ ts) r := by
  induction hs with
  | nil => exact ht
  | cons s _ ih => exact .cons s (ih ht)

/-- A path can be drawn from its end. -/
theorem reverse (h : IsPath p ss q) : IsPath q (ss.reverse.map Stroke.reverse) p := by
  induction h with
  | nil p => exact .nil p
  | cons s _ ih =>
    have hlast : IsPath s.finish [s.reverse] s.start := by simpa using singleton s.reverse
    simpa using ih.append hlast

theorem map (f : Point α → Point β) (h : IsPath p ss q) :
    IsPath (f p) (ss.map (Stroke.map f)) (f q) := by
  induction h with
  | nil p => exact .nil (f p)
  | @cons s rest q _ ih => simpa using cons (s.map f) (by simpa using ih)

end IsPath

/-! ## Halves -/

/-- A curve, a line and another curve that lead from a point to an end. -/
def IsHalf (p : Point α) (half : List (Stroke α)) (tip : Point α) : Prop :=
  ∃ bend shoulder near far,
    half = [.curve p near bend, .line bend shoulder, .curve shoulder far tip]

namespace IsHalf

variable {p tip : Point α} {half : List (Stroke α)}

theorem isPath (h : IsHalf p half tip) : IsPath p half tip := by
  obtain ⟨bend, shoulder, near, far, rfl⟩ := h
  exact .cons (.curve p near bend)
    (.cons (.line bend shoulder) (.singleton (.curve shoulder far tip)))

theorem map (f : Point α → Point β) (h : IsHalf p half tip) :
    IsHalf (f p) (half.map (Stroke.map f)) (f tip) := by
  obtain ⟨bend, shoulder, near, far, rfl⟩ := h
  exact ⟨f bend, f shoulder, f near, f far, rfl⟩

/-- Where a half begins on the mirror, it and its image make up one path. -/
theorem isPath_mirror {f : Point α → Point α} (h : IsHalf p half tip) (hp : f p = p) :
    IsPath (f tip) ((half.map (Stroke.map f)).reverse.map Stroke.reverse ++ half) tip := by
  have himage := h.isPath.map f
  rw [hp] at himage
  exact himage.reverse.append h.isPath

end IsHalf

end Stroke

/-! ## The halves of a brace -/

section Halves

variable (x y size width height sign : ℚ)

/-- The curves of an upright brace come first, and those at its ends follow those at its point. -/
theorem perm_upright {α : Type} (a b c d e f : α) : [a, b, c, d, e, f].Perm [a, e, c, b, f, d] := by
  have hplaces : ([0, 1, 2, 3, 4, 5] : List (Fin 6)).Perm [0, 4, 2, 1, 5, 3] := by decide
  exact hplaces.map ![a, b, c, d, e, f]

/-- The strokes of a level brace take turns between its halves. -/
theorem perm_level {α : Type} (a b c d e f : α) : [a, b, c, d, e, f].Perm [a, c, e, b, d, f] := by
  have hplaces : ([0, 1, 2, 3, 4, 5] : List (Fin 6)).Perm [0, 2, 4, 1, 3, 5] := by decide
  exact hplaces.map ![a, b, c, d, e, f]

theorem exists_halves_uprightBrace :
    ∃ half, Stroke.IsHalf ⟨x, y⟩ half ⟨x + sign * width, y + size / 2⟩ ∧
      (uprightBrace x y size width height sign).Perm
        (half ++ half.map (Stroke.map (Point.acrossHorizontal y))) := by
  let bend := x + sign * width / 2
  refine ⟨_, ⟨⟨bend, y + height⟩, ⟨bend, y + (size / 2 - height / 2)⟩, ⟨bend, y⟩,
    ⟨bend, y + size / 2⟩, rfl⟩, (perm_upright ..).trans (List.Perm.of_eq ?_)⟩
  simp only [List.map_cons, List.map_nil, List.cons_append, List.nil_append, Stroke.map,
    Point.acrossHorizontal, bend]
  ring_nf

theorem exists_halves_levelBrace :
    ∃ half, Stroke.IsHalf ⟨x, y⟩ half ⟨x + size / 2, y + sign * 2 * height⟩ ∧
      (levelBrace x y size width height sign).Perm
        (half ++ half.map (Stroke.map (Point.acrossVertical x))) := by
  let bend := y + sign * height
  refine ⟨_, ⟨⟨x + width, bend⟩, ⟨x + (size / 2 - width), bend⟩, ⟨x, bend⟩,
    ⟨x + size / 2, bend⟩, rfl⟩, (perm_level ..).trans (List.Perm.of_eq ?_)⟩
  simp only [List.map_cons, List.map_nil, List.cons_append, List.nil_append, Stroke.map,
    Point.acrossVertical, bend]
  ring_nf

end Halves

/-! ## Directions -/

namespace Direction

/-- The other direction along the same axis. -/
def opposite : Direction → Direction
  | .left => .right
  | .right => .left
  | .up => .down
  | .down => .up

/-- The mirror image of a point across the axis of a direction through `p`. -/
def acrossAxis : Direction → Point ℚ → Point ℚ → Point ℚ
  | .left, p | .right, p => Point.acrossHorizontal p.y
  | .up, p | .down, p => Point.acrossVertical p.x

/-- The mirror image of a point across the line through `p` that stands upright on the axis. -/
def acrossNormal : Direction → Point ℚ → Point ℚ → Point ℚ
  | .left, p | .right, p => Point.acrossVertical p.x
  | .up, p | .down, p => Point.acrossHorizontal p.y

/-- How far a point lies off the axis of a direction through `p`. -/
def offset : Direction → Point ℚ → Point ℚ → ℚ
  | .left, p, q | .right, p, q => q.y - p.y
  | .up, p, q | .down, p, q => q.x - p.x

/-- How far a point lies behind `p`, seen in a direction. -/
def behind : Direction → Point ℚ → Point ℚ → ℚ
  | .left, p, q => q.x - p.x
  | .right, p, q => p.x - q.x
  | .up, p, q => p.y - q.y
  | .down, p, q => q.y - p.y

/-- Of a width and a height, the one that is measured along the axis of a direction. -/
def sizeAlong : Direction → ℚ → ℚ → ℚ
  | .left, width, _ | .right, width, _ => width
  | .up, _, height | .down, _, height => height

/-- Of a width and a height, the one that is measured across the axis of a direction. -/
def sizeAcross : Direction → ℚ → ℚ → ℚ
  | .left, _, height | .right, _, height => height
  | .up, width, _ | .down, width, _ => width

variable (d : Direction) (p q : Point ℚ)

/-- The axis passes through the point. -/
theorem acrossAxis_self : d.acrossAxis p p = p := by
  cases d <;> simp only [acrossAxis, Point.acrossHorizontal, Point.acrossVertical] <;> ring_nf

/-- Mirror images lie on the two sides of the axis, equally far off it. -/
theorem offset_acrossAxis : d.offset p (d.acrossAxis p q) = -d.offset p q := by
  cases d <;>
    simp only [offset, acrossAxis, Point.acrossHorizontal, Point.acrossVertical] <;> ring

end Direction

/-- An arrowhead with each of its corners moved. -/
def Arrowhead.map {α β : Type} (f : Point α → Point β) (a : Arrowhead α) : Arrowhead β :=
  ⟨f a.tip, f a.left, f a.notch, f a.right⟩

/-! ## Figures -/

/-- Strokes with a point at `p` that make up one path of a size across the axis of a direction: a
half of them and its mirror image, in any order. -/
structure Stroke.IsFigure (d : Direction) (p : Point ℚ) (size : ℚ) (strokes : List (Stroke ℚ))
    (half : List (Stroke ℚ)) (tip : Point ℚ) : Prop where
  perm : strokes.Perm (half ++ half.map (map (d.acrossAxis p)))
  isHalf : IsHalf p half tip
  isHalf_image : IsHalf p (half.map (map (d.acrossAxis p))) (d.acrossAxis p tip)
  isPath : IsPath (d.acrossAxis p tip)
    ((half.map (map (d.acrossAxis p))).reverse.map reverse ++ half) tip
  offset_tip : d.offset p tip = size / 2
  offset_image : d.offset p (d.acrossAxis p tip) = -(size / 2)

/-- A head with its tip at `p`, its notch on the axis and its barbs on the two sides of it. The
barbs lie the head's length behind the tip and its span apart, the notch lies at a share of the
length. -/
structure Arrowhead.IsFigure (d : Direction) (p : Point ℚ) (length span share : ℚ)
    (a : Arrowhead ℚ) : Prop where
  tip : a.tip = p
  notch : d.offset p a.notch = 0
  behind_notch : d.behind p a.notch = length * share
  left : d.offset p a.left = span / 2
  behind_left : d.behind p a.left = length
  right : a.right = d.acrossAxis p a.left

section Figures

variable (x y size width height notch : ℚ) (d : Direction)

/-- A half of a brace ends half of its size off the axis. -/
theorem exists_half_brace :
    ∃ half tip, Stroke.IsHalf ⟨x, y⟩ half tip ∧
      (brace x y size width height d).Perm
        (half ++ half.map (Stroke.map (d.acrossAxis ⟨x, y⟩))) ∧
      d.offset ⟨x, y⟩ tip = size / 2 := by
  cases d with
  | left =>
    obtain ⟨half, hhalf, hperm⟩ := exists_halves_uprightBrace x y size width height 1
    exact ⟨half, _, hhalf, hperm, add_sub_cancel_left y _⟩
  | right =>
    obtain ⟨half, hhalf, hperm⟩ := exists_halves_uprightBrace x y size width height (-1)
    exact ⟨half, _, hhalf, hperm, add_sub_cancel_left y _⟩
  | up =>
    obtain ⟨half, hhalf, hperm⟩ := exists_halves_levelBrace x y size width height (-1)
    exact ⟨half, _, hhalf, hperm, add_sub_cancel_left x _⟩
  | down =>
    obtain ⟨half, hhalf, hperm⟩ := exists_halves_levelBrace x y size width height 1
    exact ⟨half, _, hhalf, hperm, add_sub_cancel_left x _⟩

theorem exists_isFigure_brace :
    ∃ half tip, Stroke.IsFigure d ⟨x, y⟩ size (brace x y size width height d) half tip := by
  obtain ⟨half, tip, hhalf, hperm, hoffset⟩ := exists_half_brace x y size width height d
  have hpoint := d.acrossAxis_self ⟨x, y⟩
  refine ⟨half, tip, hperm, hhalf, ?_, hhalf.isPath_mirror hpoint, hoffset, ?_⟩
  · have himage := hhalf.map (d.acrossAxis ⟨x, y⟩)
    rwa [hpoint] at himage
  · rw [d.offset_acrossAxis, hoffset]

/-- The braces of opposite directions have the same strokes in the same order, seen in a mirror. -/
theorem brace_opposite :
    brace x y size width height d.opposite =
      (brace x y size width height d).map (Stroke.map (d.acrossNormal ⟨x, y⟩)) := by
  cases d <;>
    simp only [Direction.opposite, Direction.acrossNormal, brace, uprightBrace, levelBrace,
      List.map_cons, List.map_nil, Stroke.map, Point.acrossVertical, Point.acrossHorizontal] <;>
    ring_nf

theorem isFigure_axial :
    Arrowhead.IsFigure d ⟨x, y⟩ (d.sizeAlong width height) (d.sizeAcross width height) notch
      (Arrowhead.axial x y width height notch d) := by
  cases d <;> constructor <;>
    simp only [Arrowhead.axial, Direction.offset, Direction.behind, Direction.acrossAxis,
      Direction.sizeAlong, Direction.sizeAcross, Point.acrossVertical, Point.acrossHorizontal] <;>
    ring_nf

/-- The heads of opposite directions have the same corners, seen in a mirror. -/
theorem axial_opposite :
    Arrowhead.axial x y width height notch d.opposite =
      (Arrowhead.axial x y width height notch d).map (d.acrossNormal ⟨x, y⟩) := by
  cases d <;>
    simp only [Direction.opposite, Direction.acrossNormal, Arrowhead.axial, Arrowhead.map,
      Point.acrossVertical, Point.acrossHorizontal] <;>
    ring_nf

/-- A brace is one path through its point, and its halves are mirror images of each other that end
half of its size off the axis. A head has its tip at the point, its notch on the axis at a share of
the head's length behind the tip, and its barbs on the two sides of the axis, the whole length
behind the tip. Braces and heads of opposite directions are mirror images. -/
theorem brace_axial_symmetric :
    (∃ half tip, Stroke.IsFigure d ⟨x, y⟩ size (brace x y size width height d) half tip) ∧
      brace x y size width height d.opposite =
        (brace x y size width height d).map (Stroke.map (d.acrossNormal ⟨x, y⟩)) ∧
      Arrowhead.IsFigure d ⟨x, y⟩ (d.sizeAlong width height) (d.sizeAcross width height) notch
        (Arrowhead.axial x y width height notch d) ∧
      Arrowhead.axial x y width height notch d.opposite =
        (Arrowhead.axial x y width height notch d).map (d.acrossNormal ⟨x, y⟩) :=
  ⟨exists_isFigure_brace x y size width height d, brace_opposite x y size width height d,
    isFigure_axial x y width height notch d, axial_opposite x y width height notch d⟩

end Figures

end DeckScript.Geometry
