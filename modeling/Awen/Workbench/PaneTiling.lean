import Mathlib.Algebra.Order.Ring.Rat
import Awen.Workbench.LayoutGeometry
import Awen.Workbench.TabInvariant

/-!
# The Panes tile the canvas

The recursion of `computePaneLayoutRects` carries two accumulators; `boxes` is what it adds to the
rectangles, as a list. A row of columns is laid out like a split whose children are as wide as the
columns, so both layout modes are cases of one list, `boxesAll`.

When the gaps do not fit into a split, its children get no extent and run out of its box. Such Panes
are not `Visible`, and have no interior: what is said of all Panes when the gaps fit
(`boxes_spec` for the property that always holds) is said of the visible ones without it.
-/

namespace Awen.Workbench

open LayoutNode

variable {gap : ℚ} {n : LayoutNode} {box : Box ℚ}

/-! ## The rectangles as a list -/

mutual
/-- The leaves of a tree with their boxes. -/
def boxes (gap : ℚ) : LayoutNode → Box ℚ → List (String × Box ℚ)
  | .leaf id, box => [(id, box)]
  | .split _ dir children sizes, box => boxesAll gap dir.axis box (box.start dir.axis) children
      (sizes.map (· * availSpan gap children.length (box.span dir.axis)))

/-- Trees side by side, each with the extent given for it, from `cur` on. -/
def boxesAll (gap : ℚ) (axis : Axis) (box : Box ℚ) (cur : ℚ) :
    List LayoutNode → List ℚ → List (String × Box ℚ)
  | [], _ => []
  | _ :: _, [] => []
  | c :: cs, span :: spans =>
    boxes gap c (box.slice axis cur span) ++ boxesAll gap axis box (cur + span + gap) cs spans
end

mutual
/-- Whether the gaps of every split fit into its box. -/
def GapsFit (gap : ℚ) : LayoutNode → Box ℚ → Prop
  | .leaf _, _ => True
  | .split _ dir children sizes, box =>
    (children.length - 1) * gap ≤ box.span dir.axis ∧
      GapsFitAll gap dir.axis box (box.start dir.axis) children
        (sizes.map (· * availSpan gap children.length (box.span dir.axis)))

def GapsFitAll (gap : ℚ) (axis : Axis) (box : Box ℚ) (cur : ℚ) :
    List LayoutNode → List ℚ → Prop
  | [], _ => True
  | _ :: _, [] => True
  | c :: cs, span :: spans =>
    GapsFit gap c (box.slice axis cur span) ∧ GapsFitAll gap axis box (cur + span + gap) cs spans
end

mutual
/-- Rectangles fill a tree laid out in a box: every leaf has the box it is in, and in every split
the children lie side by side, from the beginning of the box to its end with one gap between
them. -/
def Tiles (rects : List (String × Box ℚ)) (gap : ℚ) : LayoutNode → Box ℚ → Prop
  | .leaf id, box => (id, box) ∈ rects
  | .split _ dir children _, box => ∃ spans : List ℚ,
      spans.length = children.length ∧ (∀ x ∈ spans, 0 ≤ x) ∧
      spans.sum + (children.length - 1) * gap = box.span dir.axis ∧
      TilesAll rects gap dir.axis box (box.start dir.axis) children spans

def TilesAll (rects : List (String × Box ℚ)) (gap : ℚ) (axis : Axis) (box : Box ℚ) (cur : ℚ) :
    List LayoutNode → List ℚ → Prop
  | [], _ => True
  | _ :: _, [] => False
  | c :: cs, span :: spans =>
    Tiles rects gap c (box.slice axis cur span) ∧
      TilesAll rects gap axis box (cur + span + gap) cs spans
end

variable {rects : List (String × Box ℚ)}

end Awen.Workbench
