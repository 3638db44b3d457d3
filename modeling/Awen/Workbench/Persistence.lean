import Awen.Library.Json
import Awen.Workbench.Board

/-!
# Saving and restoring the workbench

`workbenchPersistence.ts`: the encoding of a snapshot as a JSON value, and the decoder that accepts
only layouts it can trust. The predicates of the source that narrow an unknown value
(`isLayoutNode`, `isColumns`, `isViewTarget`, `isViewInstance`) are readers here, which return what
they accept.

The text of a JSON value and the storage it is kept in are left out: `JSON.parse` gives back the
value that `JSON.stringify` wrote, whose numbers are finite.
-/

namespace Awen.Workbench

/-! ## Encoding -/

def SplitDir.name : SplitDir → String
  | .right => "right"
  | .down => "down"

def LayoutMode.name : LayoutMode → String
  | .bsp => "bsp"
  | .scrolling => "scrolling"

def TitleMode.name : TitleMode → String
  | .auto => "auto"
  | .manual => "manual"

mutual
def layoutJson : LayoutNode → Json
  | .leaf id => .object [("type", some (.str "leaf")), ("id", some (.str id))]
  | .split id dir children sizes => .object [
      ("type", some (.str "split")),
      ("id", some (.str id)),
      ("dir", some (.str dir.name)),
      ("children", some (.arr (layoutJsonAll children))),
      ("sizes", some (.arr (sizes.map .num)))]

def layoutJsonAll : List LayoutNode → List Json
  | [] => []
  | c :: cs => layoutJson c :: layoutJsonAll cs
end

def columnJson (column : Column) : Json := .object [
  ("id", some (.str column.id)),
  ("width", some (.num column.width)),
  ("paneIds", some (.arr (column.paneIds.map .str))),
  ("shares", some (.arr (column.shares.map .num)))]

def columnsJson (columns : List Column) : Json := .arr (columns.map columnJson)

def layoutMemoryJson (memory : LayoutMemory) : Json := .object [
  ("version", some (.num memory.version)),
  ("bsp", memory.bsp.map layoutJson),
  ("columns", memory.columns.map columnsJson)]

/-- The fields of a target besides its kind and its definition. -/
def bodyFields : TargetBody → List (String × Option Json)
  | .welcome => []
  | .project e p => [("environmentId", some (.str e)), ("projectId", some (.str p))]
  | .workspace e w initialPath revealLine => [
      ("environmentId", some (.str e)),
      ("workspaceId", some (.str w)),
      ("initialPath", initialPath.map .str),
      ("revealLine", revealLine.map .num)]
  | .agentSession e w a => [
      ("environmentId", some (.str e)),
      ("workspaceId", some (.str w)),
      ("agentSessionId", some (.str a))]
  | .newAgentSession e w d => [
      ("environmentId", some (.str e)),
      ("workspaceId", some (.str w)),
      ("draftId", some (.str d))]
  | .workspaceTerminal e w t => [
      ("environmentId", some (.str e)),
      ("workspaceId", some (.str w)),
      ("terminalSessionId", some (.str t))]

def targetJson (target : ViewTarget) : Json := .object (
  ("kind", some (.str target.kind.name)) ::
  ("definitionId", target.definitionId.map .str) :: bodyFields target.body)

def viewJson (view : ViewInstance) : Json := .object [
  ("id", some (.str view.id)),
  ("definitionId", some (.str view.definitionId)),
  ("target", some (targetJson view.target))]

def entryJson (entry : String × ViewInstance) : Json := .arr [.str entry.1, viewJson entry.2]

def tabJson (tab : WorkbenchTab) : Json := .object [
  ("id", some (.str tab.id)),
  ("layout", some (layoutJson tab.layout)),
  ("layoutMode", tab.layoutMode.map fun mode ↦ .str mode.name),
  ("columns", tab.columns.map columnsJson),
  ("layoutMemory", tab.layoutMemory.map layoutMemoryJson),
  ("focusedPaneId", some (.str tab.focusedPaneId)),
  ("titleMode", some (.str tab.titleMode.name)),
  ("titleOverride", some ((tab.titleOverride.map .str).getD .null)),
  ("panes", some (.arr (tab.panes.entries.map entryJson)))]

def WORKBENCH_PERSISTENCE_VERSION : ℚ := 1

def serializeWorkbenchSnapshot (snapshot : WorkbenchSnapshot) : Json := .object [
  ("version", some (.num WORKBENCH_PERSISTENCE_VERSION)),
  ("activeTabId", some (.str snapshot.activeTabId)),
  ("tabs", some (.arr (snapshot.tabs.map tabJson)))]

/-! ## Reading layouts -/

/-- A string that is not empty. -/
def nonEmptyString (value : Json) : Option String := do
  let s ← value.string?
  if s = "" then none else some s

def splitDirOf (value : Json) : Option SplitDir :=
  match value with
  | .str "right" => some .right
  | .str "down" => some .down
  | _ => none

/-- The positive numbers of a list that holds nothing else. -/
def positiveNumbersOf : List Json → Option (List ℚ)
  | [] => some []
  | value :: rest => do
    let n ← value.number?
    let ns ← positiveNumbersOf rest
    if 0 < n then some (n :: ns) else none

mutual
/-- `isLayoutNode`. -/
def layoutNodeOf : Json → Option LayoutNode
  | .obj fields =>
    match fields.lookup "type" with
    | some (.str "leaf") => do
      let id ← (fields.lookup "id").bind nonEmptyString
      return .leaf id
    | some (.str "split") => do
      let id ← (fields.lookup "id").bind Json.string?
      let dir ← (fields.lookup "dir").bind splitDirOf
      let children ← childrenOf fields
      let sizes ← ((fields.lookup "sizes").bind Json.array?).bind positiveNumbersOf
      if children.length < 2 ∨ sizes.length ≠ children.length then none
      else return .split id dir children sizes
    | _ => none
  | _ => none

/-- The field `children` of a split. -/
def childrenOf : List (String × Json) → Option (List LayoutNode)
  | [] => none
  | (key, value) :: fields => if "children" = key then childListOf value else childrenOf fields

def childListOf : Json → Option (List LayoutNode)
  | .arr items => layoutNodesOf items
  | _ => none

def layoutNodesOf : List Json → Option (List LayoutNode)
  | [] => some []
  | value :: rest => do
    let node ← layoutNodeOf value
    let nodes ← layoutNodesOf rest
    return node :: nodes
end

/-- The Panes of one column, none of which may be among the given ones, with these. -/
def columnPaneIdsOf (panes : List String) : List Json → Option (List String × List String)
  | [] => some ([], panes)
  | value :: rest => do
    let id ← nonEmptyString value
    if id ∈ panes then none
    else
      let (paneIds, panes) ← columnPaneIdsOf (id :: panes) rest
      return (id :: paneIds, panes)

/-- One column, after columns with the given ids and Panes. -/
def columnOf (ids panes : List String) (value : Json) : Option (Column × List String) := do
  let id ← (value.field "id").bind Json.string?
  let width ← (value.field "width").bind Json.number?
  let items ← (value.field "paneIds").bind Json.array?
  let shares ← ((value.field "shares").bind Json.array?).bind positiveNumbersOf
  if id ∈ ids ∨ width < MIN_COLUMN_WIDTH ∨ MAX_COLUMN_WIDTH < width ∨ items.isEmpty ∨
      shares.length ≠ items.length then none
  else
    let (paneIds, panes) ← columnPaneIdsOf panes items
    return ({ id, width, paneIds, shares }, panes)

def columnListOf (ids panes : List String) : List Json → Option (List Column)
  | [] => some []
  | value :: rest => do
    let (column, panes) ← columnOf ids panes value
    let columns ← columnListOf (column.id :: ids) panes rest
    return column :: columns

/-- `isColumns`. -/
def columnsOf (value : Json) : Option (List Column) := do
  let items ← value.array?
  if items.isEmpty then none else columnListOf [] [] items

/-! ## Reading Views -/

def bodyOf (value : Json) : Option TargetBody := do
  let kind ← (value.field "kind").bind Json.string?
  let text (key : String) : Option String := (value.field key).bind Json.string?
  match kind with
  | "welcome" => return .welcome
  | "project" => return .project (← text "environmentId") (← text "projectId")
  | "workspace" =>
    -- the two hints are not checked; one of another type than the source gives it is none here
    return .workspace (← text "environmentId") (← text "workspaceId") (text "initialPath")
      ((value.field "revealLine").bind Json.number?)
  | "agentSession" =>
    return .agentSession (← text "environmentId") (← text "workspaceId") (← text "agentSessionId")
  | "newAgentSession" =>
    return .newAgentSession (← text "environmentId") (← text "workspaceId") (← text "draftId")
  | "workspaceTerminal" =>
    return .workspaceTerminal (← text "environmentId") (← text "workspaceId")
      (← text "terminalSessionId")
  | _ => none

/-- `isViewTarget`. -/
def viewTargetOf (value : Json) : Option ViewTarget := do
  let body ← bodyOf value
  let definitionId ← value.optionalString "definitionId"
  return { body, definitionId }

/-- `isViewInstance`. -/
def viewInstanceOf (value : Json) : Option ViewInstance := do
  let id ← (value.field "id").bind nonEmptyString
  let definitionId ← (value.field "definitionId").bind nonEmptyString
  let target ← (value.field "target").bind viewTargetOf
  return { id, definitionId, target }

/-- The Panes of a Tab: none is listed twice, and no target twice that a Tab shows once. A Session
may be, since older layouts are repaired after decoding. -/
def panesOf (panes : OrderedMap String ViewInstance) (perTabTargetKeys : List String) :
    List Json → Option (OrderedMap String ViewInstance)
  | [] => some panes
  | .arr [.str paneId, value] :: rest => do
    let view ← viewInstanceOf value
    if panes.has paneId then none
    else if isTabScoped view.target then
      let key := targetKey view.target
      if key ∈ perTabTargetKeys then none
      else panesOf (panes.set paneId view) (key :: perTabTargetKeys) rest
    else panesOf (panes.set paneId view) perTabTargetKeys rest
  | _ :: _ => none

/-! ## Reading Tabs -/

def titleModeOf (value : Json) : Option TitleMode :=
  match value with
  | .str "auto" => some .auto
  | .str "manual" => some .manual
  | _ => none

def titleOverrideOf (value : Json) : Option (Option String) :=
  match value with
  | .null => some none
  | .str title => some (some title)
  | _ => none

def layoutModeOf (value : Option Json) : Option (Option LayoutMode) :=
  match value with
  | none => some none
  | some (.str "bsp") => some (some .bsp)
  | some (.str "scrolling") => some (some .scrolling)
  | some _ => none

/-- Optional layout metadata, of which damaged parts are dropped. -/
def layoutMemoryOf (value : Json) : Option LayoutMemory :=
  if (value.field "version").bind Json.number? = some LAYOUT_VERSION then
    some {
      version := LAYOUT_VERSION
      bsp := ((value.field "bsp").bind layoutNodeOf).filter fun tree ↦ (leafIds tree).Nodup
      columns := (value.field "columns").bind columnsOf }
  else none

/-- The checks of `decodeWorkbenchTab`, before columns are reconciled. -/
def checkWorkbenchTab (value : Json) : Option WorkbenchTab := do
  let id ← (value.field "id").bind nonEmptyString
  let layout ← (value.field "layout").bind layoutNodeOf
  let focusedPaneId ← (value.field "focusedPaneId").bind Json.string?
  let titleMode ← (value.field "titleMode").bind titleModeOf
  let titleOverride ← (value.field "titleOverride").bind titleOverrideOf
  let panes ← ((value.field "panes").bind Json.array?).bind (panesOf .empty [])
  let layoutMode ← layoutModeOf (value.field "layoutMode")
  let ids := leafIds layout
  if ¬ids.Nodup ∨ ids.length ≠ panes.size ∨ (∃ paneId ∈ ids, panes.has paneId = false) then none
  else if panes.has focusedPaneId = false then none
  else if titleMode = .manual ∧ trim (titleOverride.getD "") = "" then none
  else
    return {
      id, layout, focusedPaneId, titleMode, titleOverride, panes, layoutMode
      columns := (value.field "columns").bind columnsOf
      layoutMemory := (value.field "layoutMemory").bind layoutMemoryOf }

/-- Keep valid work references even when optional layout metadata is damaged. -/
def recoverColumns (tab : WorkbenchTab) : WorkbenchM (Option (List Column)) :=
  match tab.columns with
  | some columns => some <$> reconcileColumns columns (leafIds tab.layout)
  | none =>
    if tab.layoutMode = some .scrolling then some <$> reconcileColumns [] (leafIds tab.layout)
    else return none

def decodeWorkbenchTab (value : Json) : WorkbenchM (Option WorkbenchTab) := do
  match checkWorkbenchTab value with
  | none => return none
  | some tab =>
    let columns ← recoverColumns tab
    let layout :=
      if tab.layoutMode = some .scrolling then columnsTree (columns.getD []) else tab.layout
    return some { tab with columns, layout }

/-! ## Reading a snapshot -/

/-- The Workspace whose draft a target is, under the key the decoder gives it. -/
def draftKey (target : ViewTarget) : Option String :=
  match target.body with
  | .newAgentSession environmentId workspaceId _ => some (environmentId ++ ":" ++ workspaceId)
  | _ => none

/-- Claim the drafts of a Tab; no Workspace may have two. -/
def claimDrafts (draftWorkspaceKeys : List String) : List ViewInstance → Option (List String)
  | [] => some draftWorkspaceKeys
  | view :: views =>
    match draftKey view.target with
    | none => claimDrafts draftWorkspaceKeys views
    | some key =>
      if key ∈ draftWorkspaceKeys then none else claimDrafts (key :: draftWorkspaceKeys) views

def tabsOf (tabIds draftWorkspaceKeys : List String) :
    List Json → WorkbenchM (Option (List WorkbenchTab))
  | [] => return some []
  | candidate :: rest => do
    match ← decodeWorkbenchTab candidate with
    | none => return none
    | some tab =>
      if tab.id ∈ tabIds then return none
      else
        match claimDrafts draftWorkspaceKeys tab.panes.values with
        | none => return none
        | some draftWorkspaceKeys =>
          match ← tabsOf (tab.id :: tabIds) draftWorkspaceKeys rest with
          | none => return none
          | some tabs => return some (tab :: tabs)

def decodeWorkbenchSnapshot (value : Json) : WorkbenchM (Option WorkbenchSnapshot) := do
  match (value.field "version").bind Json.number?, (value.field "activeTabId").bind Json.string?,
      (value.field "tabs").bind Json.array? with
  | some version, some activeTabId, some (candidate :: candidates) =>
    if version ≠ WORKBENCH_PERSISTENCE_VERSION then return none
    else
      match ← tabsOf [] [] (candidate :: candidates) with
      | none => return none
      | some tabs =>
        if activeTabId ∈ tabs.map (fun tab ↦ tab.id) then return some { tabs, activeTabId }
        else return none
  | _, _, _ => return none

/-- Whatever fails while decoding rejects the layout. -/
def deserializeWorkbenchSnapshot (value : Json) : WorkbenchM (Option WorkbenchSnapshot) :=
  tryCatch (decodeWorkbenchSnapshot value) fun _ ↦ return none

end Awen.Workbench
