import Awen.Library.Boxes
import Awen.Library.OrderedMap
import Awen.Workbench.State

/-!
# Pane rectangles

`computePaneLayoutRects` of `layoutGeometry.ts`: the rectangle of every Pane of a Tab, and the
sashes between them, for a viewport and a gap. A BSP layout is laid out by recursion over the split
tree, a scrolling one column by column. Lengths are exact rationals.

The source has one branch for rows and one for stacks, which differ in the axis only; here the axis
is a parameter.
-/

namespace Awen.Workbench

abbrev ComputedPaneRect := Box ℚ

structure ComputedSash where
  id : String
  label : String
  dir : SplitDir
  rect : Box ℚ
  splitId : Option String := none
  index : Option ℕ := none
  totalPx : Option ℚ := none
  sizes : Option (List ℚ) := none
  columnId : Option String := none
  isColumnWidth : Bool := false
  isPaneHeight : Bool := false
  paneIndex : Option ℕ := none

/-- What has been laid out so far. -/
structure LaidOut where
  rects : OrderedMap String ComputedPaneRect := .empty
  sashes : List ComputedSash := []

/-- The axis along which a split places its children. -/
def SplitDir.axis : SplitDir → Axis
  | .right => .horizontal
  | .down => .vertical

def LaidOut.setRect (laid : LaidOut) (paneId : String) (rect : ComputedPaneRect) : LaidOut :=
  { laid with rects := laid.rects.set paneId rect }

def LaidOut.pushSash (laid : LaidOut) (sash : ComputedSash) : LaidOut :=
  { laid with sashes := laid.sashes ++ [sash] }

/-! ## Sashes -/

/-- The extent of a sash across the gap it lies in. -/
def sashHit (gap : ℚ) : ℚ := if gap = 0 then 8 else max gap 8

/-- Where a sash begins, relative to its gap. -/
def sashOffset (gap : ℚ) : ℚ := if gap = 0 then -4 else (gap - sashHit gap) / 2

/-- The sash behind child `index` of a split, which ends at `gapStart`. -/
def bspSash (gap : ℚ) (splitId : String) (dir : SplitDir) (sizes : List ℚ) (box : Box ℚ)
    (availSpan : ℚ) (index : ℕ) (gapStart : ℚ) : ComputedSash where
  id := "sash-bsp-" ++ splitId ++ "-" ++ toString index
  label := "Pane size"
  dir := dir
  rect := box.slice dir.axis (gapStart + sashOffset gap) (sashHit gap)
  splitId := some splitId
  index := some index
  totalPx := some availSpan
  sizes := some sizes

/-- What is left of an extent for `count` children, once the gaps between them are taken off. -/
def availSpan (gap : ℚ) (count : ℕ) (span : ℚ) : ℚ := max 0 (span - (count - 1) * gap)

mutual
def layoutBspNode (gap : ℚ) : LayoutNode → Box ℚ → LaidOut → LaidOut
  | .leaf id, box, laid => laid.setRect id box
  | .split id dir children sizes, box, laid =>
    layoutBspChildren gap id dir sizes box children.length
      (availSpan gap children.length (box.span dir.axis)) 0 (box.start dir.axis) children laid

/-- The children of a split from position `i` on, which begin at `cur`. -/
def layoutBspChildren (gap : ℚ) (splitId : String) (dir : SplitDir) (sizes : List ℚ) (box : Box ℚ)
    (k : ℕ) (avail : ℚ) (i : ℕ) (cur : ℚ) : List LayoutNode → LaidOut → LaidOut
  | [], laid => laid
  | child :: rest, laid =>
    let childSpan := sizes.getD i (1 / k) * avail
    let laid := layoutBspNode gap child (box.slice dir.axis cur childSpan) laid
    let laid := if i + 1 < k then
        laid.pushSash (bspSash gap splitId dir sizes box avail i (cur + childSpan))
      else laid
    layoutBspChildren gap splitId dir sizes box k avail (i + 1) (cur + childSpan + gap) rest laid
end

/-! ## Scrolling layouts -/

end Awen.Workbench
