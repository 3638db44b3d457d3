import Awen.Workbench.Commands

/-!
# Drag and drop

`applyViewDrop` of `workbenchState.ts`, one definition for each combination of a drag source (a Tab,
a Pane, Sidebar content) and a drop target (a Pane, an existing Tab, a new Tab).
-/

namespace Awen.Workbench

/-! ## Sidebar content -/

/-- Detach a dragged Sidebar Session when the Workbench already shows it. -/
def takeDraggedSessionView (snapshot : WorkbenchSnapshot) (target : ViewTarget) :
    WorkbenchM (Option (WorkbenchSnapshot × ViewInstance × PaneLocation)) := do
  match findSessionViewPane snapshot target with
  | none => return none
  | some location =>
    match ← detachView snapshot location with
    | none => return none
    | some (detached, view) => return some (detached, view, location)

/-- Insert a View into an existing Tab, reusing a sole Welcome Pane. -/
def openSidebarViewInTab (snapshot : WorkbenchSnapshot) (tabId : String) (view : ViewInstance) :
    WorkbenchM (Option ViewDropResult) := do
  match findTab snapshot tabId with
  | none => return none
  | some targetTab =>
    let anchorPaneId ← anchorIn targetTab targetTab.focusedPaneId
    let (placed, paneId) ← placeViewInTab targetTab view { anchorPaneId, zone := .edge .right }
    let snapshot ← updateTab (applyActivateTab snapshot tabId) placed
    return some { snapshot, tabId, paneId }

/-- Place Sidebar content at a Pane drop position, replacing on a center drop. -/
def placeSidebarViewInPane (snapshot : WorkbenchSnapshot) (view : ViewInstance)
    (tabId targetPaneId : String) (zone : PaneDropZone) : WorkbenchM (Option ViewDropResult) := do
  match findTab snapshot tabId with
  | none => return none
  | some tab =>
    if tab.panes.has targetPaneId then
      let (placed, paneId) ← placeViewInTab tab view { anchorPaneId := targetPaneId, zone }
      let snapshot ← updateTab snapshot placed
      return some { snapshot, tabId, paneId }
    else return none

/-! ## Tabs as drag sources -/

/-- Drop a Tab on the tab strip, at the position of another one. -/
def dropTabAt (snapshot : WorkbenchSnapshot) (tab : WorkbenchTab) (fromIndex toIndex : ℤ) :
    WorkbenchM (Option ViewDropResult) := do
  let paneId ← firstLeafId tab.layout
  return some { snapshot := applyMoveTab snapshot fromIndex toIndex, tabId := tab.id, paneId }

/-- Drop an inactive Tab of one Pane into a Pane of the active Tab. -/
def dropTabInPane (snapshot : WorkbenchSnapshot) (tab : WorkbenchTab)
    (targetTabId targetPaneId : String) (zone : PaneDropZone) :
    WorkbenchM (Option ViewDropResult) := do
  let sourcePaneId ← firstLeafId tab.layout
  if tab.id = snapshot.activeTabId ∨ targetTabId ≠ snapshot.activeTabId then return none
  else if tab.panes.size ≠ 1 then return none
  else
    match tab.panes.get sourcePaneId, findTab snapshot targetTabId with
    | some sourceView, some targetTab =>
      match targetTab.panes.get targetPaneId with
      | none => return none
      | some targetPane =>
        if (findPaneByTarget targetTab sourceView.target).isSome then return none
        else
          let finish (targetAfter : WorkbenchTab) : Option ViewDropResult := some {
            snapshot := {
              tabs := replaceTab (snapshot.tabs.filter fun candidate ↦ candidate.id ≠ tab.id)
                targetTab.id targetAfter
              activeTabId := targetTab.id }
            tabId := targetTab.id
            paneId := sourcePaneId }
          if targetTab.panes.size = 1 ∧ targetPane.target.kind = .welcome then
            finish <$> reconcileTab { targetTab with
              layout := .leaf sourcePaneId
              panes := .singleton sourcePaneId sourceView
              focusedPaneId := sourcePaneId }
          else
            match zone with
            | .replace => return none
            | .edge edge =>
              let placed ← placedLayout targetTab sourcePaneId targetPaneId (.edge edge)
              finish <$> reconcileTab { targetTab.withPlaced placed with
                panes := targetTab.panes.set sourcePaneId sourceView
                focusedPaneId := sourcePaneId }
    | _, _ => return none

/-- Drop a Tab. Moving it over its own position leaves the snapshot as it is. -/
def dropTab (snapshot : WorkbenchSnapshot) (tabId : String) (target : ViewDropTarget) :
    WorkbenchM (Option ViewDropResult) := do
  match snapshot.tabs.findIdx? fun tab ↦ tab.id = tabId with
  | none => return none
  | some fromIndex =>
    match snapshot.tabs[fromIndex]? with
    | none => return none
    | some tab =>
      match target with
      | .existingTab targetTabId =>
        match snapshot.tabs.findIdx? fun tab ↦ tab.id = targetTabId with
        | none => dropTabAt snapshot tab fromIndex fromIndex
        | some toIndex => dropTabAt snapshot tab fromIndex toIndex
      | .newTab index =>
        dropTabAt snapshot tab fromIndex (max 0 (min index (snapshot.tabs.length - 1)))
      | .pane targetTabId targetPaneId zone =>
        dropTabInPane snapshot tab targetTabId targetPaneId zone

/-! ## Panes as drag sources -/

/-- The layout of a Tab with one of its Panes moved to an edge of another. -/
def movedLayout (tab : WorkbenchTab) (sourcePaneId targetPaneId : String) (edge : PaneEdge) :
    WorkbenchM PlacedLayout :=
  if tab.layoutMode = some .scrolling then
    placedLayout tab sourcePaneId targetPaneId (.edge edge)
  else do
    let layout ← movePane tab.layout sourcePaneId targetPaneId edge
    return { layout }

/-- Drop a Pane on a Pane of its own Tab: a layout change only. -/
def dropPaneInOwnTab (snapshot : WorkbenchSnapshot) (tab : WorkbenchTab)
    (sourcePaneId targetPaneId : String) (zone : PaneDropZone) :
    WorkbenchM (Option ViewDropResult) := do
  let edge := match zone with
    | .replace => .right
    | .edge edge => edge
  let placed ← movedLayout tab sourcePaneId targetPaneId edge
  let snapshot ← updateTab snapshot { tab.withPlaced placed with focusedPaneId := sourcePaneId }
  return some { snapshot, tabId := tab.id, paneId := sourcePaneId }

/-- Drop a Pane on a Pane of another Tab. -/
def dropPaneInPane (snapshot : WorkbenchSnapshot) (sourceTab targetTab : WorkbenchTab)
    (sourcePaneId targetPaneId : String) (view : ViewInstance) (zone : PaneDropZone) :
    WorkbenchM (Option ViewDropResult) := do
  if (findPaneByTarget targetTab view.target).isSome then return none
  else
    match ← removeViewFromTab sourceTab sourcePaneId with
    | none => return none
    | some sourceAfter =>
      let panes := if zone = .replace then targetTab.panes.delete targetPaneId else targetTab.panes
      let placed ← placedLayout targetTab sourcePaneId targetPaneId zone
      let targetAfter ← reconcileTab { targetTab.withPlaced placed with
        panes := panes.set sourcePaneId view
        focusedPaneId := sourcePaneId }
      return some {
        snapshot := {
          tabs := snapshot.tabs.map fun tab ↦
            if tab.id = sourceTab.id then sourceAfter
            else if tab.id = targetTab.id then targetAfter
            else tab
          activeTabId := targetTab.id }
        tabId := targetTab.id
        paneId := sourcePaneId }

/-- Drop a Pane on another Tab, beside the Pane focused there. -/
def dropPaneInTab (snapshot : WorkbenchSnapshot) (sourceTab targetTab : WorkbenchTab)
    (sourcePaneId : String) (view : ViewInstance) : WorkbenchM (Option ViewDropResult) := do
  if (findPaneByTarget targetTab view.target).isSome then return none
  else
    let anchorPaneId ← anchorIn targetTab targetTab.focusedPaneId
    let (inserted, paneId) ← placeViewInTab targetTab view
      { anchorPaneId, zone := .edge .right, paneId := some sourcePaneId }
    match ← removeViewFromTab sourceTab sourcePaneId with
    | none => return none
    | some sourceAfter =>
      let targetAfter ← reconcileTab inserted
      return some {
        snapshot := {
          tabs := snapshot.tabs.map fun tab ↦
            if tab.id = sourceTab.id then sourceAfter
            else if tab.id = targetTab.id then targetAfter
            else tab
          activeTabId := targetTab.id }
        tabId := targetTab.id
        paneId }

def dropPane (snapshot : WorkbenchSnapshot) (sourceTabId sourcePaneId : String) :
    ViewDropTarget → WorkbenchM (Option ViewDropResult)
  | .pane targetTabId targetPaneId zone => do
    match findTab snapshot sourceTabId, findTab snapshot targetTabId with
    | some sourceTab, some targetTab =>
      match sourceTab.panes.get sourcePaneId with
      | none => return none
      | some view =>
        if targetTab.panes.has targetPaneId = false ∨ sourcePaneId = targetPaneId then return none
        else if sourceTab.id = targetTab.id then
          dropPaneInOwnTab snapshot sourceTab sourcePaneId targetPaneId zone
        else dropPaneInPane snapshot sourceTab targetTab sourcePaneId targetPaneId view zone
    | _, _ => return none
  | .existingTab targetTabId => do
    match findTab snapshot sourceTabId, findTab snapshot targetTabId with
    | some sourceTab, some targetTab =>
      match sourceTab.panes.get sourcePaneId with
      | none => return none
      | some view =>
        if sourceTab.id = targetTab.id then return none
        else dropPaneInTab snapshot sourceTab targetTab sourcePaneId view
    | _, _ => return none
  | .newTab index => do
    match findTab snapshot sourceTabId with
    | none => return none
    | some sourceTab =>
      match sourceTab.panes.get sourcePaneId with
      | none => return none
      | some view =>
        match ← removeViewFromTab sourceTab sourcePaneId with
        | none => return none
        | some sourceAfter =>
          let tabs := replaceTab snapshot.tabs sourceTab.id sourceAfter
          some <$> insertPresentationTab { snapshot with tabs } view index sourcePaneId

/-! ## The transaction -/

/-- Drop Sidebar content. An open Session moves instead of gaining a second View. -/
def dropSidebar (snapshot : WorkbenchSnapshot) (source : ViewTarget) :
    ViewDropTarget → WorkbenchM (Option ViewDropResult)
  | .existingTab tabId => do
    match findTab snapshot tabId with
    | none => return none
    | some targetTab =>
      match ← takeDraggedSessionView snapshot source with
      | some (detached, view, location) =>
        if location.tabId = targetTab.id then
          let snapshot ← focusPane snapshot ⟨targetTab.id, location.paneId⟩
          return some { snapshot, tabId := targetTab.id, paneId := location.paneId }
        else openSidebarViewInTab detached targetTab.id view
      | none =>
        let view ← viewInstance source
        openSidebarViewInTab snapshot targetTab.id view
  | .newTab index => do
    match ← takeDraggedSessionView snapshot source with
    | some (detached, view, location) =>
      some <$> insertPresentationTab detached view index location.paneId
    | none =>
      let view ← viewInstance source
      let paneId ← generateId
      some <$> insertPresentationTab snapshot view index paneId
  | .pane tabId targetPaneId zone => do
    match findTab snapshot tabId with
    | none => return none
    | some tab =>
      if tab.panes.has targetPaneId = false then return none
      else
        match ← takeDraggedSessionView snapshot source with
        | some (detached, view, location) =>
          if location.tabId = tab.id ∧ location.paneId = targetPaneId then
            let snapshot ← focusPane snapshot ⟨tab.id, location.paneId⟩
            return some { snapshot, tabId := tab.id, paneId := location.paneId }
          else placeSidebarViewInPane detached view tab.id targetPaneId zone
        | none =>
          let view ← viewInstance source
          placeSidebarViewInPane snapshot view tab.id targetPaneId zone

/-- Apply one drag and drop transaction without owning runtime Session lifecycle. -/
def applyViewDrop (snapshot : WorkbenchSnapshot) (source : ViewDragSource)
    (target : ViewDropTarget) : WorkbenchM (Option ViewDropResult) :=
  match source with
  | .tab tabId => dropTab snapshot tabId target
  | .pane tabId paneId => dropPane snapshot tabId paneId target
  | .sidebar sourceTarget => dropSidebar snapshot sourceTarget target

end Awen.Workbench
