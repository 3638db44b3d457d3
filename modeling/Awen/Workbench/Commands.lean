import Mathlib.Data.List.DropRight
import Awen.Workbench.State

/-!
# The workbench commands

The `apply…` commands of `workbenchState.ts` on the whole snapshot: opening, splitting, focusing,
closing and retargeting, the layout commands, and the commands on the tab strip. Drag and drop and
bulk removal have modules of their own.
-/

namespace Awen.Workbench

/-! ## Opening and focusing -/

def applyActivateTab (snapshot : WorkbenchSnapshot) (tabId : String) : WorkbenchSnapshot :=
  if (snapshot.tabs.any fun tab ↦ tab.id = tabId) ∧ snapshot.activeTabId ≠ tabId then
    { snapshot with activeTabId := tabId }
  else snapshot

def applySetFocused (snapshot : WorkbenchSnapshot) (paneId : String) :
    WorkbenchM WorkbenchSnapshot := do
  let tab ← getActiveTab snapshot
  if tab.panes.has paneId = false ∨ tab.focusedPaneId = paneId then return snapshot
  else updateTab snapshot { tab with focusedPaneId := paneId }

/-- Activate a Tab and focus one of its Panes. -/
def focusPane (snapshot : WorkbenchSnapshot) (location : PaneLocation) :
    WorkbenchM WorkbenchSnapshot :=
  applySetFocused (applyActivateTab snapshot location.tabId) location.paneId

/-- The leftmost Tab other than the active one that shows a target. -/
def findInOtherTab (snapshot : WorkbenchSnapshot) (activeTabId : String)
    (target : ViewTarget) : Option PaneLocation :=
  snapshot.tabs.findSome? fun tab ↦
    if tab.id = activeTabId then none
    else (findPaneByTarget tab target).map fun paneId ↦ ⟨tab.id, paneId⟩

/-- Whether a Tab shows nothing but Welcome. -/
def isSoleWelcome (tab : WorkbenchTab) : Bool :=
  match tab.panes.values with
  | [view] => view.target.kind = .welcome
  | _ => false

def applyOpenTarget (snapshot : WorkbenchSnapshot) (target : ViewTarget) :
    WorkbenchM WorkbenchSnapshot := do
  match findDraftOf snapshot target with
  | some existing => focusPane snapshot existing
  | none =>
    let activeTab ← getActiveTab snapshot
    match findPaneByTarget activeTab target with
    | some paneId => applySetFocused snapshot paneId
    | none =>
      match findInOtherTab snapshot activeTab.id target with
      | some existing => focusPane snapshot existing
      | none =>
        if isSoleWelcome activeTab then
          let view ← viewInstance target
          updateTab snapshot
            { activeTab with panes := activeTab.panes.set activeTab.focusedPaneId view }
        else
          let insertIndex : ℤ :=
            match snapshot.tabs.findIdx? fun tab ↦ tab.id = snapshot.activeTabId with
            | some activeIndex => (activeIndex : ℤ) + 1
            | none => snapshot.tabs.length
          let view ← viewInstance target
          let paneId ← generateId
          let result ← insertPresentationTab snapshot view insertIndex paneId
          return result.snapshot

/-- Deep links are recovery inputs; they open their target like any other command. -/
def applyOpenDeepLinkTarget (snapshot : WorkbenchSnapshot) (target : ViewTarget) :
    WorkbenchM WorkbenchSnapshot := applyOpenTarget snapshot target

def applySplitPane (snapshot : WorkbenchSnapshot) (sourcePaneId : String) (target : ViewTarget)
    (dir : SplitDir) : WorkbenchM WorkbenchSnapshot := do
  match findDraftOf snapshot target with
  | some existing => focusPane snapshot existing
  | none =>
    let tab ← getActiveTab snapshot
    match tab.panes.get sourcePaneId with
    | none => applyOpenTarget snapshot target
    | some source =>
      -- an open Session moves to the requested position
      match findSessionViewPane snapshot target with
      | some location =>
        if location.tabId = tab.id ∧ location.paneId = sourcePaneId then
          applySetFocused snapshot location.paneId
        else
          match ← detachView snapshot location with
          | none => return snapshot
          | some (detached, view) => placeDetachedViewBeside detached view sourcePaneId dir
      | none =>
        if source.target.kind = .welcome then applyOpenTarget snapshot target
        else
          match findPaneByTarget tab target with
          | some existing => applySetFocused snapshot existing
          | none =>
            let paneId ← generateId
            let view ← viewInstance target
            let placed ← placedLayout tab paneId sourcePaneId
              (.edge (if dir = .down then .bottom else .right))
            updateTab snapshot { tab.withPlaced placed with
              panes := tab.panes.set paneId view
              focusedPaneId := paneId }

def applySplitFocused (snapshot : WorkbenchSnapshot) (target : ViewTarget) (dir : SplitDir) :
    WorkbenchM WorkbenchSnapshot := do
  let tab ← getActiveTab snapshot
  applySplitPane snapshot tab.focusedPaneId target dir

/-! ## Closing -/

/-- Pick the active Tab after some Tabs are removed: the survivor at the closed Tab's index, else
the last one. -/
def activeTabIdAfterClose (snapshot : WorkbenchSnapshot) (survivors : List WorkbenchTab)
    (closedTabIds : List String) : Except String String :=
  if snapshot.activeTabId ∉ closedTabIds then .ok snapshot.activeTabId
  else
    let closingIndex := (snapshot.tabs.findIdx? fun tab ↦ tab.id = snapshot.activeTabId).getD 0
    match survivors[min closingIndex (survivors.length - 1)]? with
    | some next => .ok next.id
    | none => .error "activeTabIdAfterClose: no survivor"

def applyCloseTab (snapshot : WorkbenchSnapshot) (tabId : String) :
    WorkbenchM WorkbenchSnapshot := do
  if snapshot.tabs.length ≤ 1 then return snapshot
  else if snapshot.tabs.all fun tab ↦ tab.id ≠ tabId then return snapshot
  else
    let tabs := snapshot.tabs.filter fun tab ↦ tab.id ≠ tabId
    if snapshot.activeTabId ≠ tabId then return { snapshot with tabs }
    else return { tabs, activeTabId := ← activeTabIdAfterClose snapshot tabs [tabId] }

/-- Close one Pane of the active Tab; without that Pane nothing is returned. -/
def applyClosePane (snapshot : WorkbenchSnapshot) (paneId : String) :
    WorkbenchM (Option WorkbenchSnapshot) := do
  let tab ← getActiveTab snapshot
  match tab.panes.get paneId with
  | none => return none
  | some view =>
    match ← closeLeaf tab.toAwenTab paneId with
    | none =>
      if view.target.kind = .welcome ∨ snapshot.tabs.length ≤ 1 then
        some <$> (clearedTab tab >>= updateTab snapshot)
      else some <$> applyCloseTab snapshot tab.id
    | some next =>
      some <$> updateTab snapshot
        { tab with toAwenTab := next, panes := tab.panes.delete paneId }

/-! ## Retargeting a Pane -/

/-- The View that a Pane's new target already has, anywhere for a Session, else in the Tab. -/
def existingViewOf (snapshot : WorkbenchSnapshot) (tab : WorkbenchTab) (target : ViewTarget) :
    Option PaneLocation :=
  match findSessionViewPane snapshot target with
  | some location => some location
  | none => (findPaneByTarget tab target).map fun paneId ↦ ⟨tab.id, paneId⟩

/-- Replace a Pane's target while preserving the View instance identity. -/
def applyReplacePaneTarget (snapshot : WorkbenchSnapshot) (paneId : String)
    (target : ViewTarget) : WorkbenchM WorkbenchSnapshot := do
  let tab ← getActiveTab snapshot
  match tab.panes.get paneId with
  | none => return snapshot
  | some view =>
    let retarget := updateTab snapshot { tab with
      panes := tab.panes.set paneId
        { view with definitionId := definitionIdForTarget target, target } }
    match existingViewOf snapshot tab target with
    | some existing =>
      if existing.tabId ≠ tab.id ∨ existing.paneId ≠ paneId then
        let localTab ← closePaneInTab tab paneId
        focusPane { snapshot with tabs := replaceTab snapshot.tabs tab.id localTab } existing
      else retarget
    | none => retarget

/-! ## Layout commands -/

/-- What a Tab remembers, unless it was written by another version. -/
def currentMemory (tab : WorkbenchTab) : LayoutMemory :=
  match tab.layoutMemory with
  | some memory =>
    if memory.version = LAYOUT_VERSION then memory else { version := LAYOUT_VERSION }
  | none => { version := LAYOUT_VERSION }

def applySetLayoutMode (snapshot : WorkbenchSnapshot) (mode : LayoutMode) :
    WorkbenchM WorkbenchSnapshot := do
  let tab ← getActiveTab snapshot
  if tab.layoutMode.getD .bsp = mode then return snapshot
  else
    let memory := currentMemory tab
    let ids := leafIds tab.layout
    match mode with
    | .scrolling =>
      let columns ← reconcileColumns (memory.columns.getD []) ids
      updateTab snapshot { tab with
        layoutMode := some mode
        columns := some columns
        layout := columnsTree columns
        layoutMemory := some { memory with bsp := some tab.layout } }
    | .bsp =>
      let layout ← reconcileBsp memory.bsp ids
      updateTab snapshot { tab with
        layoutMode := some mode
        layout
        layoutMemory := some { memory with columns := some (tab.columns.getD []) } }

/-- The directions `-1` and `1` of the column commands. -/
inductive ColumnDirection
  | prev
  | next
  deriving DecidableEq, Repr

/-- The index one step away; there is none before the first. -/
def ColumnDirection.step : ColumnDirection → ℕ → Option ℕ
  | .prev, 0 => none
  | .prev, i + 1 => some i
  | .next, i => some (i + 1)

structure ColumnChange where
  width : Option JsNumber := none
  direction : Option ColumnDirection := none
  shares : Option (List JsNumber) := none
  deriving DecidableEq, Repr

/-- The finite positive numbers of a list, when all of it is. -/
def finitePositive (numbers : List JsNumber) : Option (List ℚ) :=
  numbers.mapM fun
    | .finite value => if 0 < value then some value else none
    | .nonFinite => none

def changeWidth (column : Column) : Option JsNumber → Column
  | some (.finite width) =>
    { column with width := max MIN_COLUMN_WIDTH (min MAX_COLUMN_WIDTH width) }
  | _ => column

def changeShares (column : Column) : Option (List JsNumber) → Column
  | some shares =>
    if shares.length = column.paneIds.length then
      match finitePositive shares with
      | some values => { column with shares := values.map (· / values.sum) }
      | none => column
    else column
  | none => column

def applyColumnChange (snapshot : WorkbenchSnapshot) (columnId : String)
    (change : ColumnChange) : WorkbenchM WorkbenchSnapshot := do
  let tab ← getActiveTab snapshot
  if tab.layoutMode ≠ some .scrolling then return snapshot
  else
    let columns := tab.columns.getD []
    match columns.findIdx? (·.id = columnId) with
    | none => return snapshot
    | some index =>
      let columns := columns.modify index fun column ↦
        changeShares (changeWidth column change.width) change.shares
      let columns :=
        match change.direction.bind (·.step index) with
        | some other => swapAt index other columns
        | none => columns
      updateTab snapshot { tab with columns := some columns, layout := columnsTree columns }

/-- Exchange a Pane with its neighbour in a column. A neighbour with an empty id counts as none. -/
def moveInColumn (paneId : String) (direction : ColumnDirection) (column : Column) : Column :=
  if paneId ∈ column.paneIds then
    let index := column.paneIds.idxOf paneId
    match direction.step index with
    | some other =>
      if column.paneIds[other]?.getD "" = "" then column
      else { column with paneIds := swapAt index other column.paneIds }
    | none => column
  else column

def applyMoveInColumn (snapshot : WorkbenchSnapshot) (paneId : String)
    (direction : ColumnDirection) : WorkbenchM WorkbenchSnapshot := do
  let tab ← getActiveTab snapshot
  match tab.columns with
  | some columns =>
    if tab.layoutMode = some .scrolling then
      let columns := columns.map (moveInColumn paneId direction)
      updateTab snapshot { tab with columns := some columns, layout := columnsTree columns }
    else return snapshot
  | none => return snapshot

def applySetSplitRatio (snapshot : WorkbenchSnapshot) (splitId : String) (index : ℤ) :
    JsNumber → WorkbenchM WorkbenchSnapshot
  | .finite ratio => do
    let tab ← getActiveTab snapshot
    if setSplitRatioKeeps splitId index tab.layout then return snapshot
    else
      updateTab snapshot { tab with layout := setSplitRatio splitId index ratio tab.layout }
  | .nonFinite => do
    let _ ← getActiveTab snapshot
    return snapshot

/-! ## The tab strip -/

def applyCreateTab (snapshot : WorkbenchSnapshot) : WorkbenchM WorkbenchSnapshot := do
  let tab ← welcomeTab
  return { tabs := snapshot.tabs ++ [tab], activeTabId := tab.id }

/-- The white space and line terminators that `trim` strips. -/
def isTrimmed (c : Char) : Bool :=
  c.toNat ∈ [9, 10, 11, 12, 13, 32, 160, 5760, 8232, 8233, 8239, 8287, 12288, 65279] ∨
    (8192 ≤ c.toNat ∧ c.toNat ≤ 8202)

def trim (s : String) : String :=
  String.ofList ((s.toList.dropWhile isTrimmed).rdropWhile isTrimmed)

def applyRenameTab (snapshot : WorkbenchSnapshot) (tabId : String) (title : Option String) :
    WorkbenchM WorkbenchSnapshot := do
  match findTab snapshot tabId with
  | none => return snapshot
  | some tab =>
    let trimmed := (title.map trim).getD ""
    updateTab snapshot { tab with
      titleMode := if trimmed = "" then .auto else .manual
      titleOverride := if trimmed = "" then none else some trimmed }

def applyMoveTab (snapshot : WorkbenchSnapshot) (fromIndex toIndex : ℤ) : WorkbenchSnapshot :=
  if fromIndex < 0 ∨ (snapshot.tabs.length : ℤ) ≤ fromIndex ∨ toIndex < 0 ∨
      (snapshot.tabs.length : ℤ) ≤ toIndex ∨ fromIndex = toIndex then snapshot
  else
    match snapshot.tabs[fromIndex.toNat]? with
    | none => snapshot
    | some moved =>
      { snapshot with
        tabs := insertAt toIndex.toNat moved (snapshot.tabs.eraseIdx fromIndex.toNat) }

end Awen.Workbench
