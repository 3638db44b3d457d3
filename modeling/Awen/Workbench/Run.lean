import Awen.Workbench.DragDrop

/-!
# Bulk removal, and runs of commands

Removing every View that matches a predicate, deduplicating Session Views, and the runs that the
results about the workbench are about: any sequence of commands from the empty workbench.
-/

namespace Awen.Workbench

/-! ## Bulk removal -/

/-- How a Tab that loses its last Pane via bulk removal is recovered. -/
inductive EmptiedTabPolicy
  | welcome
  | close
  deriving DecidableEq, Repr

/-- The Pane ids to close, grouped by Tab. -/
abbrev Removals := OrderedMap String (List String)

def Removals.add (removals : Removals) (tabId paneId : String) : Removals :=
  let paneIds := (removals.get tabId).getD []
  OrderedMap.set removals tabId (if paneId ∈ paneIds then paneIds else paneIds ++ [paneId])

/-- Close one Pane of a Tab that may have lost its last one already. -/
def closeOnePane (current : Option AwenTab) (paneId : String) :
    Except String (Option AwenTab) :=
  match current with
  | none => .ok none
  | some tab => closeLeaf tab paneId

/-- The focus of a Tab, or its first leaf when the focused one is gone. -/
def validFocus (tab : AwenTab) : Except String String :=
  if tab.focusedPaneId ∈ leafIds tab.layout then .ok tab.focusedPaneId
  else firstLeafId tab.layout

/-- Close the given Panes of one Tab; the flag says whether the Tab lost every Pane. -/
def removePaneIdsFromTab (tab : WorkbenchTab) (paneIds : List String) :
    WorkbenchM (WorkbenchTab × Bool) := do
  match ← (paneIds.foldlM closeOnePane (some tab.toAwenTab) : Except String _) with
  | none => return (← clearedTab tab, true)
  | some current =>
    let focusedPaneId ← validFocus current
    let next ← reconcileTab { tab with
      layout := current.layout
      focusedPaneId
      panes := paneIds.foldl OrderedMap.delete tab.panes }
    return (next, false)

/-- What bulk removal makes of one Tab; the flag says whether it lost every Pane. -/
def removeFrom (removals : Removals) (tab : WorkbenchTab) : WorkbenchM (WorkbenchTab × Bool) :=
  match removals.get tab.id with
  | none | some [] => pure (tab, false)
  | some paneIds => removePaneIdsFromTab tab paneIds

/-- Close the given Panes of every Tab, recovering Welcome and focus. -/
def removePaneIdsFromTabs (snapshot : WorkbenchSnapshot) (removals : Removals)
    (emptiedTabPolicy : EmptiedTabPolicy) : WorkbenchM WorkbenchSnapshot := do
  if removals.size = 0 then return snapshot
  else
    let results ← snapshot.tabs.mapM (removeFrom removals)
    let tabs := results.map Prod.fst
    let emptiedTabIds := (results.filter Prod.snd).map fun result ↦ result.1.id
    if emptiedTabPolicy = .welcome ∨ emptiedTabIds = [] then return { snapshot with tabs }
    else
      let survivors := tabs.filter fun tab ↦ tab.id ∉ emptiedTabIds
      if survivors = [] then
        match (tabs.find? fun tab ↦ tab.id = snapshot.activeTabId) <|> tabs.head? with
        | some keeper => return { tabs := [keeper], activeTabId := keeper.id }
        | none => throw "removePaneIdsFromTabs: no Tab"
      else
        return {
          tabs := survivors
          activeTabId := ← activeTabIdAfterClose snapshot survivors emptiedTabIds }

/-- Collect the Pane ids to close for one match predicate. -/
def paneIdsMatching (snapshot : WorkbenchSnapshot) (isMatch : ViewTarget → Bool) : Removals :=
  snapshot.tabs.foldl (fun removals tab ↦
    tab.panes.entries.foldl (fun removals entry ↦
      if isMatch entry.2.target then Removals.add removals tab.id entry.1 else removals) removals)
    OrderedMap.empty

def applyRemoveMatchingViews (snapshot : WorkbenchSnapshot) (isMatch : ViewTarget → Bool)
    (emptiedTabPolicy : EmptiedTabPolicy) : WorkbenchM WorkbenchSnapshot :=
  removePaneIdsFromTabs snapshot (paneIdsMatching snapshot isMatch) emptiedTabPolicy

/-- Remove every View of a Session; a Tab that held only that View is closed. -/
def applyRemoveSessionViews (snapshot : WorkbenchSnapshot) (target : ViewTarget) :
    WorkbenchM WorkbenchSnapshot :=
  applyRemoveMatchingViews snapshot (isSameSessionTarget · target) .close

/-- The Panes of every Session, by target key. -/
def sessionOccurrences (snapshot : WorkbenchSnapshot) : OrderedMap String (List PaneLocation) :=
  snapshot.tabs.foldl (fun occurrences tab ↦
    tab.panes.entries.foldl (fun occurrences entry ↦
      if isSessionViewTarget entry.2.target then
        let key := targetKey entry.2.target
        occurrences.set key ((occurrences.get key).getD [] ++ [⟨tab.id, entry.1⟩])
      else occurrences) occurrences)
    OrderedMap.empty

/-- The occurrence that is kept: the active Tab's focused Pane, else one in the active Tab, else the
leftmost. -/
def keptOccurrence (snapshot : WorkbenchSnapshot) (entries : List PaneLocation) :
    Option PaneLocation :=
  let focused := (findTab snapshot snapshot.activeTabId).map fun tab ↦ tab.focusedPaneId
  (entries.find? fun entry ↦ entry.tabId = snapshot.activeTabId ∧ some entry.paneId = focused)
    <|> (entries.find? fun entry ↦ entry.tabId = snapshot.activeTabId)
    <|> entries.head?

/-- Close every other occurrence of a Session shown more than once. -/
def dedupeRemovals (snapshot : WorkbenchSnapshot) : Removals :=
  (sessionOccurrences snapshot).values.foldl (fun removals entries ↦
    if entries.length ≤ 1 then removals
    else
      entries.foldl (fun removals entry ↦
        if some entry = keptOccurrence snapshot entries then removals
        else Removals.add removals entry.tabId entry.paneId) removals)
    OrderedMap.empty

/-- Repair a restored layout that still shows one Session in several Tabs. -/
def applyDedupeSessionViews (snapshot : WorkbenchSnapshot) : WorkbenchM WorkbenchSnapshot :=
  removePaneIdsFromTabs snapshot (dedupeRemovals snapshot) .welcome

/-- Remove legacy Workspace overview Views from restored layouts. -/
def applyRemoveWorkspaceViews (snapshot : WorkbenchSnapshot) : WorkbenchM WorkbenchSnapshot :=
  applyRemoveMatchingViews snapshot (fun target ↦ target.kind = .workspace) .welcome

/-- Remove the explicit New Agent Session View without deleting its draft payload. -/
def applyRemoveNewAgentSessionViews (snapshot : WorkbenchSnapshot)
    (environmentId workspaceId draftId : String) : WorkbenchM WorkbenchSnapshot :=
  applyRemoveMatchingViews snapshot (isDraft environmentId workspaceId draftId) .welcome

structure KnownWorkspace where
  environmentId : String
  workspaceId : String
  deriving DecidableEq, Repr

/-- Whether the scoped Workspace of a target is gone from an environment that was observed. -/
def isStaleTarget (known : List KnownWorkspace) (observed : List String)
    (target : ViewTarget) : Bool :=
  let isStale (environmentId workspaceId : String) : Bool :=
    environmentId ∈ observed ∧ environmentId ++ ":" ++ workspaceId ∉
      known.map fun workspace ↦ workspace.environmentId ++ ":" ++ workspace.workspaceId
  match target.body with
  | .workspace e w _ _ => isStale e w
  | .agentSession e w _ => isStale e w
  | .newAgentSession e w _ => isStale e w
  | .workspaceTerminal e w _ => isStale e w
  | .project _ _ | .welcome => false

/-- Remove Views whose scoped Workspace is no longer present in projections. -/
def applyPruneWorkspaceViews (snapshot : WorkbenchSnapshot)
    (knownWorkspaces : List KnownWorkspace) (observedEnvironmentIds : List String) :
    WorkbenchM WorkbenchSnapshot :=
  applyRemoveMatchingViews snapshot (isStaleTarget knownWorkspaces observedEnvironmentIds) .welcome

/-! ## Runs -/

/-- The commands, with their arguments. -/
inductive WorkbenchOp
  | openTarget (target : ViewTarget)
  | openDeepLinkTarget (target : ViewTarget)
  | splitPane (sourcePaneId : String) (target : ViewTarget) (dir : SplitDir)
  | splitFocused (target : ViewTarget) (dir : SplitDir)
  | closePane (paneId : String)
  | setFocused (paneId : String)
  | replacePaneTarget (paneId : String) (target : ViewTarget)
  | viewDrop (source : ViewDragSource) (target : ViewDropTarget)
  | setSplitRatio (splitId : String) (index : ℤ) (ratio : JsNumber)
  | setLayoutMode (mode : LayoutMode)
  | columnChange (columnId : String) (change : ColumnChange)
  | moveInColumn (paneId : String) (direction : ColumnDirection)
  | createTab
  | activateTab (tabId : String)
  | renameTab (tabId : String) (title : Option String)
  | closeTab (tabId : String)
  | moveTab (fromIndex toIndex : ℤ)
  | removeSessionViews (target : ViewTarget)
  | dedupeSessionViews
  | removeWorkspaceViews
  | removeNewAgentSessionViews (environmentId workspaceId draftId : String)
  | pruneWorkspaceViews (known : List KnownWorkspace) (observed : List String)

/-- One command. A command that returns nothing leaves its caller with the snapshot it had. -/
def applyOp (snapshot : WorkbenchSnapshot) : WorkbenchOp → WorkbenchM WorkbenchSnapshot
  | .openTarget target => applyOpenTarget snapshot target
  | .openDeepLinkTarget target => applyOpenDeepLinkTarget snapshot target
  | .splitPane sourcePaneId target dir => applySplitPane snapshot sourcePaneId target dir
  | .splitFocused target dir => applySplitFocused snapshot target dir
  | .closePane paneId => (·.getD snapshot) <$> applyClosePane snapshot paneId
  | .setFocused paneId => applySetFocused snapshot paneId
  | .replacePaneTarget paneId target => applyReplacePaneTarget snapshot paneId target
  | .viewDrop source target =>
    (fun result ↦ (result.map ViewDropResult.snapshot).getD snapshot) <$>
      applyViewDrop snapshot source target
  | .setSplitRatio splitId index ratio => applySetSplitRatio snapshot splitId index ratio
  | .setLayoutMode mode => applySetLayoutMode snapshot mode
  | .columnChange columnId change => applyColumnChange snapshot columnId change
  | .moveInColumn paneId direction => applyMoveInColumn snapshot paneId direction
  | .createTab => applyCreateTab snapshot
  | .activateTab tabId => return applyActivateTab snapshot tabId
  | .renameTab tabId title => applyRenameTab snapshot tabId title
  | .closeTab tabId => applyCloseTab snapshot tabId
  | .moveTab fromIndex toIndex => return applyMoveTab snapshot fromIndex toIndex
  | .removeSessionViews target => applyRemoveSessionViews snapshot target
  | .dedupeSessionViews => applyDedupeSessionViews snapshot
  | .removeWorkspaceViews => applyRemoveWorkspaceViews snapshot
  | .removeNewAgentSessionViews e w d => applyRemoveNewAgentSessionViews snapshot e w d
  | .pruneWorkspaceViews known observed => applyPruneWorkspaceViews snapshot known observed

/-- A sequence of commands, started from the empty workbench. -/
def runOps (ops : List WorkbenchOp) : WorkbenchM WorkbenchSnapshot := do
  let snapshot ← emptyWorkbenchSnapshot
  ops.foldlM applyOp snapshot

end Awen.Workbench
