import Mathlib.Algebra.Order.Field.Rat
import Mathlib.Algebra.BigOperators.Group.List.Basic
import Awen.Library.FreshSupply
import Awen.Library.Splice

/-!
# The BSP layout of a Tab

A Tab's layout is a tree of splits whose leaves name Panes. This module is the split tree of
`layout.ts` with the operations the workbench commands use: dropping, replacing and closing a leaf,
moving a sash, and placing or moving a leaf beside another one.

Sizes are exact rationals. Split ids and Tab ids are drawn from the supply of `WorkbenchM`, which
stands for `cryptoRandomId` as well as for the store's `generateId`; both return ids that were not
returned before. A `throw` of the source is an error of the monad, with the source's message.
-/

namespace Awen.Workbench

/-- Programs of the workbench: they draw ids and may throw. -/
abbrev WorkbenchM := Supply String String

/-- A fresh id from `generateId`. -/
def generateId : WorkbenchM String := Supply.fresh

/-- A fresh id from the layout module's own generator. -/
def cryptoRandomId : WorkbenchM String := Supply.fresh

inductive SplitDir
  | right
  | down
  deriving DecidableEq, Repr

inductive LayoutNode
  | leaf (id : String)
  | split (id : String) (dir : SplitDir) (children : List LayoutNode) (sizes : List ℚ)

namespace LayoutNode

/-- Induction over the tree, with the hypothesis for every child of a split. -/
@[elab_as_elim, induction_eliminator]
theorem induct {motive : LayoutNode → Prop} (leaf : ∀ id, motive (.leaf id))
    (split : ∀ id dir children sizes, (∀ c ∈ children, motive c) →
      motive (.split id dir children sizes)) (n : LayoutNode) : motive n :=
  @LayoutNode.rec motive (fun cs ↦ ∀ c ∈ cs, motive c) leaf split
    (fun _ hc ↦ absurd hc List.not_mem_nil)
    (fun _ _ hhead htail _ hc ↦ (List.mem_cons.mp hc).elim (fun h ↦ h ▸ hhead) (htail _)) n

/-- Whether a node is the leaf of the given Pane. -/
def isLeaf (paneId : String) : LayoutNode → Bool
  | .leaf id => id = paneId
  | .split .. => false

end LayoutNode

def MIN_SIZE : ℚ := 8 / 100

def equalSizes (n : ℕ) : List ℚ := List.replicate n (1 / n)

/-- Scale sizes to sum 1; sizes without a positive total become equal. -/
def normalize (sizes : List ℚ) : List ℚ :=
  if sizes.sum ≤ 0 then equalSizes sizes.length else sizes.map (· / sizes.sum)

/-! ## Leaves -/

mutual
/-- The Pane ids of a layout in reading order. -/
def leafIds : LayoutNode → List String
  | .leaf id => [id]
  | .split _ _ children _ => leafIdsAll children

def leafIdsAll : List LayoutNode → List String
  | [] => []
  | c :: cs => leafIds c ++ leafIdsAll cs
end

/-- The first leaf in reading order; an empty split throws. -/
def firstLeafId : LayoutNode → Except String String
  | .leaf id => .ok id
  | .split _ _ (c :: _) _ => firstLeafId c
  | .split _ _ [] _ => .error "firstLeafId: empty split node has no leaves"

/-! ## Tabs -/

structure AwenTab where
  id : String
  layout : LayoutNode
  focusedPaneId : String

def newTab (initialPaneId : String) : WorkbenchM AwenTab := do
  let id ← cryptoRandomId
  return { id, layout := .leaf initialPaneId, focusedPaneId := initialPaneId }

/-! ## Replacing and dropping a leaf -/

mutual
def replaceLeafIdRec (fromId toId : String) : LayoutNode → LayoutNode
  | .leaf id => if id = fromId then .leaf toId else .leaf id
  | .split id dir children sizes => .split id dir (replaceLeafIdAll fromId toId children) sizes

def replaceLeafIdAll (fromId toId : String) : List LayoutNode → List LayoutNode
  | [] => []
  | c :: cs => replaceLeafIdRec fromId toId c :: replaceLeafIdAll fromId toId cs
end

def replaceLeafId (node : LayoutNode) (fromId toId : String) : LayoutNode :=
  if fromId = toId then node else replaceLeafIdRec fromId toId node

/-- Rebuild a split from the children kept by a removal: an empty one disappears and one with a
single child collapses to it. -/
def rebuildSplit (id : String) (dir : SplitDir) : List (LayoutNode × ℚ) → Option LayoutNode
  | [] => none
  | [only] => some only.1
  | kept => some (.split id dir (kept.map Prod.fst) (normalize (kept.map Prod.snd)))

mutual
/-- Drop a leaf. Parent splits collapse to the remaining child. -/
def removePane (leafId : String) : LayoutNode → Option LayoutNode
  | .leaf id => if id = leafId then none else some (.leaf id)
  | .split id dir children sizes => rebuildSplit id dir (removePaneKept leafId children sizes)

/-- The children that survive the removal, each with its size. -/
def removePaneKept (leafId : String) : List LayoutNode → List ℚ → List (LayoutNode × ℚ)
  | [], _ => []
  | c :: cs, sizes =>
    match removePane leafId c with
    | some after => (after, sizes.headD 0) :: removePaneKept leafId cs sizes.tail
    | none => removePaneKept leafId cs sizes.tail
end

/-- The child before position `i`, else the one after it. -/
def neighborAt (children : List LayoutNode) (i : ℕ) : Option LayoutNode :=
  match (if i = 0 then none else children[i - 1]?) with
  | some before => some before
  | none => children[i + 1]?

mutual
/-- Leaf to focus after closing `leafId`: a neighbor's first leaf. -/
def siblingLeafId (leafId : String) : LayoutNode → Except String (Option String)
  | .leaf _ => .ok none
  | .split _ _ children _ =>
    match children.findIdx? (LayoutNode.isLeaf leafId) with
    | some i =>
      match neighborAt children i with
      | none => .ok none
      | some neighbor => some <$> firstLeafId neighbor
    | none => siblingLeafIdAll leafId children

def siblingLeafIdAll (leafId : String) : List LayoutNode → Except String (Option String)
  | [] => .ok none
  | c :: cs => do
    match ← siblingLeafId leafId c with
    | some found => if found = "" then siblingLeafIdAll leafId cs else return some found
    | none => siblingLeafIdAll leafId cs
end

/-- Close one Pane in a Tab. Returns `none` only when this was the last leaf. Focus moves to the
closed Pane's sibling when the closed Pane was focused. -/
def closeLeaf (tab : AwenTab) (leafId : String) : Except String (Option AwenTab) := do
  match removePane leafId tab.layout with
  | none => return none
  | some nextLayout =>
    if tab.focusedPaneId = leafId then
      match ← siblingLeafId leafId tab.layout with
      | some sibling => return some { tab with layout := nextLayout, focusedPaneId := sibling }
      | none =>
        let first ← firstLeafId nextLayout
        return some { tab with layout := nextLayout, focusedPaneId := first }
    else
      return some { tab with layout := nextLayout }

/-! ## Sashes -/

/-- Move the boundary between `index` and `index + 1`, keeping both sides at the minimum size. -/
def splitSizesAtBoundary (current : List ℚ) (index : ℤ) (boundary : ℚ) : List ℚ :=
  if index < 0 ∨ (current.length : ℤ) - 1 ≤ index then current
  else
    let i := index.toNat
    match current[i]?, current[i + 1]? with
    | some a, some b =>
      let before := (current.take i).sum
      let pair := a + b
      let min' := min MIN_SIZE (pair / 2)
      let first := min (pair - min') (max min' (boundary - before))
      (current.set i first).set (i + 1) (pair - first)
    | _, _ => current

mutual
def setSplitRatio (splitId : String) (index : ℤ) (boundary : ℚ) : LayoutNode → LayoutNode
  | .leaf id => .leaf id
  | .split id dir children sizes =>
    if id ≠ splitId then
      .split id dir (setSplitRatioAll splitId index boundary children) sizes
    else if index < 0 ∨ (sizes.length : ℤ) - 1 ≤ index then .split id dir children sizes
    else .split id dir children (splitSizesAtBoundary sizes index boundary)

def setSplitRatioAll (splitId : String) (index : ℤ) (boundary : ℚ) :
    List LayoutNode → List LayoutNode
  | [] => []
  | c :: cs => setSplitRatio splitId index boundary c :: setSplitRatioAll splitId index boundary cs
end

/-- Whether `setSplitRatio` hands back the very node it was given: it copies every split it
descends into, and the named split unless the index has no sash. -/
def setSplitRatioKeeps (splitId : String) (index : ℤ) : LayoutNode → Bool
  | .leaf _ => true
  | .split id _ _ sizes => id = splitId ∧ (index < 0 ∨ (sizes.length : ℤ) - 1 ≤ index)

/-! ## Placing and moving a leaf -/

inductive PanePlace
  | before
  | after
  deriving DecidableEq, Repr

inductive PaneEdge
  | left
  | right
  | top
  | bottom
  deriving DecidableEq, Repr

/-- Where a dragged View lands relative to a Pane: on one of its edges, or in its place. -/
inductive PaneDropZone
  | edge (e : PaneEdge)
  | replace
  deriving DecidableEq, Repr

def edgeSplit : PaneEdge → SplitDir × PanePlace
  | .left => (.right, .before)
  | .right => (.right, .after)
  | .top => (.down, .before)
  | .bottom => (.down, .after)

structure LeafParent where
  parentId : String
  index : ℕ
  dir : SplitDir
  deriving DecidableEq, Repr

mutual
/-- The split that holds a leaf directly, and the leaf's position in it. -/
def leafParent (leafId : String) : LayoutNode → Option LeafParent
  | .leaf _ => none
  | .split id dir children _ => leafParentFrom leafId id dir 0 children

def leafParentFrom (leafId parentId : String) (dir : SplitDir) (i : ℕ) :
    List LayoutNode → Option LeafParent
  | [] => none
  | c :: cs =>
    if c.isLeaf leafId then some ⟨parentId, i, dir⟩
    else
      match leafParent leafId c with
      | some found => some found
      | none => leafParentFrom leafId parentId dir (i + 1) cs
end

/-- Move one child of a split before or after another, with its size. -/
def reorderChild (id : String) (dir : SplitDir) (children : List LayoutNode) (sizes : List ℚ)
    (fromIndex toIndex : ℕ) (place : PanePlace) : LayoutNode :=
  let n := children.length
  if n ≤ fromIndex ∨ n ≤ toIndex then .split id dir children sizes
  else
    let wanted := min n (if place = .after then toIndex + 1 else toIndex)
    let at' := if fromIndex < wanted then wanted - 1 else wanted
    if fromIndex = at' then .split id dir children sizes
    else
      match children[fromIndex]?, sizes[fromIndex]? with
      | some child, some size =>
        .split id dir (insertAt at' child (children.eraseIdx fromIndex))
          (insertAt at' size (sizes.eraseIdx fromIndex))
      | _, _ => .split id dir children sizes

mutual
def reorderInSplit (splitId : String) (fromIndex toIndex : ℕ) (place : PanePlace) :
    LayoutNode → LayoutNode
  | .leaf id => .leaf id
  | .split id dir children sizes =>
    if id = splitId then reorderChild id dir children sizes fromIndex toIndex place
    else .split id dir (reorderInSplitAll splitId fromIndex toIndex place children) sizes

def reorderInSplitAll (splitId : String) (fromIndex toIndex : ℕ) (place : PanePlace) :
    List LayoutNode → List LayoutNode
  | [] => []
  | c :: cs => reorderInSplit splitId fromIndex toIndex place c ::
      reorderInSplitAll splitId fromIndex toIndex place cs
end

mutual
/-- Take a leaf out of the tree: what is left of the tree, and the leaf. -/
def extractLeaf (leafId : String) : LayoutNode → Option (Option LayoutNode × LayoutNode)
  | .leaf id => if id = leafId then some (none, .leaf id) else none
  | .split id dir children sizes =>
    match extractLeafAll leafId children sizes with
    | (_, none) => none
    | (kept, some found) => some (rebuildSplit id dir kept, found)

/-- The children left over with their sizes, and the last leaf taken out of one of them. -/
def extractLeafAll (leafId : String) :
    List LayoutNode → List ℚ → List (LayoutNode × ℚ) × Option LayoutNode
  | [], _ => ([], none)
  | c :: cs, sizes =>
    let rest := extractLeafAll leafId cs sizes.tail
    match extractLeaf leafId c with
    | none => ((c, sizes.headD 0) :: rest.1, rest.2)
    | some (some tree, found) => ((tree, sizes.headD 0) :: rest.1, some (rest.2.getD found))
    | some (none, found) => (rest.1, some (rest.2.getD found))
end

mutual
/-- Insert a node next to a leaf that its split holds directly, halving the leaf's size. -/
def insertBeside (targetId : String) (incoming : LayoutNode) (place : PanePlace) :
    LayoutNode → LayoutNode
  | .leaf id => .leaf id
  | .split id dir children sizes =>
    match children.findIdx? (LayoutNode.isLeaf targetId) with
    | some i =>
      let at' := if place = .before then i else i + 1
      let share := sizes.getD i 0 / 2
      .split id dir (insertAt at' incoming children) (insertAt at' share (sizes.set i share))
    | none => .split id dir (insertBesideAll targetId incoming place children) sizes

def insertBesideAll (targetId : String) (incoming : LayoutNode) (place : PanePlace) :
    List LayoutNode → List LayoutNode
  | [] => []
  | c :: cs => insertBeside targetId incoming place c :: insertBesideAll targetId incoming place cs
end

mutual
/-- Nest a new split around a leaf, holding the leaf and the incoming node. -/
def wrapBeside (targetId : String) (incoming : LayoutNode) (dir : SplitDir) (place : PanePlace) :
    LayoutNode → WorkbenchM LayoutNode
  | .leaf id =>
    if id ≠ targetId then return .leaf id
    else do
      let splitId ← cryptoRandomId
      return .split splitId dir
        (if place = .before then [incoming, .leaf id] else [.leaf id, incoming]) [1 / 2, 1 / 2]
  | .split id dir' children sizes => do
    let children ← wrapBesideAll targetId incoming dir place children
    return .split id dir' children sizes

def wrapBesideAll (targetId : String) (incoming : LayoutNode) (dir : SplitDir)
    (place : PanePlace) : List LayoutNode → WorkbenchM (List LayoutNode)
  | [] => return []
  | c :: cs => do
    let c ← wrapBeside targetId incoming dir place c
    let cs ← wrapBesideAll targetId incoming dir place cs
    return c :: cs
end

/-- Drag a leaf onto another Pane's edge. Same-axis siblings only swap order; otherwise the leaf is
taken out and put beside the target, in the target's split when its axis fits, else in a new
split around the target. -/
def movePane (node : LayoutNode) (fromId toId : String) (edge : PaneEdge) :
    WorkbenchM LayoutNode :=
  if fromId = toId then return node
  else
    match leafParent fromId node, leafParent toId node with
    | some fromAt, some toAt =>
      let (dir, place) := edgeSplit edge
      if toAt.dir = dir ∧ fromAt.parentId = toAt.parentId then
        return reorderInSplit fromAt.parentId fromAt.index toAt.index place node
      else
        match extractLeaf fromId node with
        | some (some tree, found) =>
          if toId ∉ leafIds tree then return node
          else if (leafParent toId tree).map LeafParent.dir = some dir then
            return insertBeside toId found place tree
          else wrapBeside toId found dir place tree
        | _ => return node
    | _, _ => return node

/-- Place an intact layout beside one Pane. -/
def placeLayout (node incoming : LayoutNode) (toId : String) (edge : PaneEdge) :
    WorkbenchM LayoutNode :=
  if toId ∉ leafIds node then return node
  else
    let (dir, place) := edgeSplit edge
    if (leafParent toId node).map LeafParent.dir = some dir then
      return insertBeside toId incoming place node
    else wrapBeside toId incoming dir place node

/-- Open `leafId` on `toId`'s edge, or move it there when it is already a leaf. -/
def placePane (node : LayoutNode) (leafId toId : String) (edge : PaneEdge) :
    WorkbenchM LayoutNode :=
  if leafId = toId then return node
  else if toId ∉ leafIds node then return node
  else if leafId ∈ leafIds node then movePane node leafId toId edge
  else placeLayout node (.leaf leafId) toId edge

end Awen.Workbench
