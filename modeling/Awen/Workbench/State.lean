import Awen.Library.OrderedMap
import Awen.Workbench.ScrollingLayout
import Awen.Workbench.ViewRegistry

/-!
# The workbench snapshot

The snapshot of `workbenchState.ts` (Tabs, each with a layout and a map from Panes to the View
instances they show), the lookups on it, and the operations on one Tab from which the commands are
made: reconciling a scrolling Tab, clearing it, taking a View out and putting one in.

An operation that reaches a `throw` or reads a property of `undefined` in the source is an error
here; that none does so on a snapshot the workbench can reach is proved, not assumed. `Map` and
`Set` of the source keep insertion order, and so do `OrderedMap` and the duplicate-free lists that
stand for them.
-/

namespace Awen.Workbench

/-- One presentation occurrence, independent of the Session it displays. -/
structure ViewInstance where
  id : String
  definitionId : String
  target : ViewTarget
  deriving DecidableEq, Repr

inductive TitleMode
  | auto
  | manual
  deriving DecidableEq, Repr

/-- A Tab: its layout, and the View instance of every layout leaf. -/
structure WorkbenchTab extends AwenTab where
  panes : OrderedMap String ViewInstance
  layoutMode : Option LayoutMode := none
  columns : Option (List Column) := none
  layoutMemory : Option LayoutMemory := none
  titleMode : TitleMode
  titleOverride : Option String

structure WorkbenchSnapshot where
  tabs : List WorkbenchTab
  activeTabId : String

/-- A Pane of a Tab. -/
@[ext] structure PaneLocation where
  tabId : String
  paneId : String
  deriving DecidableEq, Repr

/-- What is being dragged. -/
inductive ViewDragSource
  | sidebar (target : ViewTarget)
  | pane (tabId paneId : String)
  | tab (tabId : String)
  deriving DecidableEq, Repr

/-- Where it is dropped. -/
inductive ViewDropTarget
  | pane (tabId paneId : String) (zone : PaneDropZone)
  | existingTab (tabId : String)
  | newTab (index : ℤ)
  deriving DecidableEq, Repr

structure ViewDropResult where
  snapshot : WorkbenchSnapshot
  tabId : String
  paneId : String

/-- A number of the source: finite, or one of the infinities and NaN. -/
inductive JsNumber
  | finite (value : ℚ)
  | nonFinite
  deriving DecidableEq, Repr

/-! ## Lookups -/

def findTab (snapshot : WorkbenchSnapshot) (tabId : String) : Option WorkbenchTab :=
  snapshot.tabs.find? (·.id = tabId)

def getActiveTab (snapshot : WorkbenchSnapshot) : Except String WorkbenchTab :=
  match findTab snapshot snapshot.activeTabId with
  | some tab => .ok tab
  | none => .error "Workbench active Tab is missing"

def findPaneByTarget (tab : WorkbenchTab) (target : ViewTarget) : Option String :=
  (tab.panes.entries.find? fun e ↦ targetKey e.2.target = targetKey target).map Prod.fst

/-- Find a Pane in a Tab that displays the given Session target. -/
def findPaneBySessionTarget (tab : WorkbenchTab) (target : ViewTarget) : Option String :=
  (tab.panes.entries.find? fun e ↦ isSameSessionTarget e.2.target target).map Prod.fst

/-- Locate the single Session View for a target, leftmost Tab first. -/
def findSessionViewPane (snapshot : WorkbenchSnapshot) (target : ViewTarget) :
    Option PaneLocation :=
  if isSessionViewTarget target then
    snapshot.tabs.findSome? fun tab ↦
      (findPaneBySessionTarget tab target).map fun paneId ↦ ⟨tab.id, paneId⟩
  else none

/-- Whether a target is the draft with the given ids. -/
def isDraft (environmentId workspaceId draftId : String) (target : ViewTarget) : Bool :=
  match target.body with
  | .newAgentSession e w d => e = environmentId ∧ w = workspaceId ∧ d = draftId
  | _ => false

def findNewAgentSessionPane (snapshot : WorkbenchSnapshot)
    (environmentId workspaceId draftId : String) : Option PaneLocation :=
  snapshot.tabs.findSome? fun tab ↦
    (tab.panes.entries.find? fun e ↦ isDraft environmentId workspaceId draftId e.2.target).map
      fun e ↦ ⟨tab.id, e.1⟩

/-- The draft lookup that opening and splitting begin with; other targets find nothing. -/
def findDraftOf (snapshot : WorkbenchSnapshot) (target : ViewTarget) : Option PaneLocation :=
  match target.body with
  | .newAgentSession e w d => findNewAgentSessionPane snapshot e w d
  | _ => none

/-! ## Tabs -/

def viewInstance (target : ViewTarget) : WorkbenchM ViewInstance := do
  let id ← generateId
  return { id, definitionId := definitionIdForTarget target, target }

def welcomeTarget : ViewTarget := { body := .welcome }

def welcomeTab : WorkbenchM WorkbenchTab := do
  let paneId ← generateId
  let tab ← newTab paneId
  let view ← viewInstance welcomeTarget
  return { tab with
    panes := .singleton paneId view
    titleMode := .auto
    titleOverride := none }

def emptyWorkbenchSnapshot : WorkbenchM WorkbenchSnapshot := do
  let tab ← welcomeTab
  return { tabs := [tab], activeTabId := tab.id }

/-- Derive the columns and the layout of a scrolling Tab from its Panes. -/
def reconcileTab (tab : WorkbenchTab) : WorkbenchM WorkbenchTab := do
  if tab.layoutMode ≠ some .scrolling then return tab
  else
    let shown := (leafIds tab.layout).filter tab.panes.has
    let ids := tab.panes.keys.foldl (fun ids id ↦ if id ∈ ids then ids else ids ++ [id]) shown
    let columns ← reconcileColumns (tab.columns.getD []) ids
    return { tab with columns := some columns, layout := columnsTree columns }

/-- Replace the Tabs with a given id. -/
def replaceTab (tabs : List WorkbenchTab) (tabId : String) (tab : WorkbenchTab) :
    List WorkbenchTab :=
  tabs.map fun current ↦ if current.id = tabId then tab else current

def updateTab (snapshot : WorkbenchSnapshot) (tab : WorkbenchTab) :
    WorkbenchM WorkbenchSnapshot := do
  let tab ← reconcileTab tab
  return { snapshot with tabs := replaceTab snapshot.tabs tab.id tab }

/-- The layout fields `placedLayout` returns; `columns` only in scrolling mode. -/
structure PlacedLayout where
  layout : LayoutNode
  columns : Option (List Column) := none

/-- Spread the placed fields over a Tab. -/
def WorkbenchTab.withPlaced (tab : WorkbenchTab) (placed : PlacedLayout) : WorkbenchTab :=
  { tab with layout := placed.layout, columns := placed.columns <|> tab.columns }

def placedLayout (tab : WorkbenchTab) (paneId targetId : String) (zone : PaneDropZone) :
    WorkbenchM PlacedLayout := do
  if tab.layoutMode ≠ some .scrolling then
    match zone with
    | .replace => return { layout := replaceLeafId tab.layout targetId paneId }
    | .edge edge => return { layout := ← placePane tab.layout paneId targetId edge }
  else
    let columns ← placeInColumns (tab.columns.getD []) paneId targetId zone
    return { layout := columnsTree columns, columns := some columns }

/-- A Tab back to Welcome, under its own id, title and layout mode. -/
def clearedTab (tab : WorkbenchTab) : WorkbenchM WorkbenchTab := do
  let welcome ← welcomeTab
  reconcileTab { welcome with
    id := tab.id
    titleMode := tab.titleMode
    titleOverride := tab.titleOverride
    layoutMode := some (tab.layoutMode.getD .bsp) }

/-! ## Taking a View out of a Tab and putting one in -/

/-- Close one Pane of a Tab, which goes back to Welcome when it was the last. -/
def closePaneInTab (tab : WorkbenchTab) (paneId : String) : WorkbenchM WorkbenchTab := do
  match ← closeLeaf tab.toAwenTab paneId with
  | none => clearedTab tab
  | some next => reconcileTab { tab with toAwenTab := next, panes := tab.panes.delete paneId }

def removeViewFromTab (tab : WorkbenchTab) (paneId : String) :
    WorkbenchM (Option WorkbenchTab) :=
  if tab.panes.has paneId then some <$> closePaneInTab tab paneId else return none

/-- Where a View is put: at an anchor Pane, and under the Pane id it keeps, if it has one. -/
structure PlaceTarget where
  anchorPaneId : String
  zone : PaneDropZone
  paneId : Option String := none

/-- Whether a View takes over the anchor Pane: on a center drop, without an anchor, or in place of
the Tab's only Welcome. -/
def reusesAnchorPane (tab : WorkbenchTab) (target : PlaceTarget) : Bool :=
  match tab.panes.get target.anchorPaneId with
  | none => true
  | some anchor => target.zone = .replace ∨ (tab.panes.size = 1 ∧ anchor.target.kind = .welcome)

/-- The Pane id a View keeps, or a new one. -/
def pickPaneId (target : PlaceTarget) : WorkbenchM String :=
  match target.paneId with
  | some paneId => return paneId
  | none => generateId

/-- Put a View into one Tab, either in the anchor Pane or in a new Pane beside it. -/
def placeViewInTab (tab : WorkbenchTab) (view : ViewInstance) (target : PlaceTarget) :
    WorkbenchM (WorkbenchTab × String) := do
  if reusesAnchorPane tab target then
    let paneId := target.paneId.getD target.anchorPaneId
    return ({ tab with
      layout := replaceLeafId tab.layout target.anchorPaneId paneId
      panes := (tab.panes.delete target.anchorPaneId).set paneId view
      focusedPaneId := paneId }, paneId)
  else
    let paneId ← pickPaneId target
    let placed ← placedLayout tab paneId target.anchorPaneId target.zone
    return ({ tab.withPlaced placed with
      panes := tab.panes.set paneId view
      focusedPaneId := paneId }, paneId)

/-- Detach one Pane's View from its Tab, keeping the View instance for reuse. -/
def detachView (snapshot : WorkbenchSnapshot) (location : PaneLocation) :
    WorkbenchM (Option (WorkbenchSnapshot × ViewInstance)) := do
  match findTab snapshot location.tabId with
  | none => return none
  | some tab =>
    match tab.panes.get location.paneId with
    | none => return none
    | some view =>
      match ← removeViewFromTab tab location.paneId with
      | none => return none
      | some tabAfter =>
        return some ({ snapshot with tabs := replaceTab snapshot.tabs tab.id tabAfter }, view)

/-- A Pane of a Tab, or the Tab's first Pane without it. -/
def anchorIn (tab : WorkbenchTab) (paneId : String) : Except String String :=
  if tab.panes.has paneId then .ok paneId else firstLeafId tab.layout

/-- Place a detached Session View beside one anchor Pane of the active Tab. -/
def placeDetachedViewBeside (snapshot : WorkbenchSnapshot) (view : ViewInstance)
    (anchorPaneId : String) (dir : SplitDir) : WorkbenchM WorkbenchSnapshot := do
  let tab ← getActiveTab snapshot
  let anchor ← anchorIn tab anchorPaneId
  let (placed, _) ← placeViewInTab tab view
    { anchorPaneId := anchor, zone := .edge (if dir = .down then .bottom else .right) }
  updateTab snapshot placed

def insertPresentationTab (snapshot : WorkbenchSnapshot) (view : ViewInstance) (index : ℤ)
    (paneId : String) : WorkbenchM ViewDropResult := do
  let tab ← newTab paneId
  let at' := (max 0 (min index snapshot.tabs.length)).toNat
  let tab : WorkbenchTab := { tab with
    panes := .singleton paneId view
    titleMode := .auto
    titleOverride := none }
  return {
    snapshot := { tabs := insertAt at' tab snapshot.tabs, activeTabId := tab.id }
    tabId := tab.id
    paneId }

end Awen.Workbench
